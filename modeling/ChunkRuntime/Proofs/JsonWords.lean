import Mathlib
import ChunkRuntime.Pool.SnapshotText

/-! Reading a word from JSON text, from every input. A reader walks the bytes that are left;
`Input.skip` is the input once some of them are taken, and an input fits its budget
(`Input.Fits`) when no more bytes are left than the text is long, which is what the fuel of every
loop of the reader counts on. A run is opened one step at a time (`run_bind_of_ok`) and taken
apart the same way (`run_bind_eq_ok`); what a reader can return from any input at all is stated
with `Yields`.

A number is written as its plain decimal digits (`numeral`), as `toString` writes it. The reader
of a word field accepts exactly blanks, then the numeral of a word (a number up to `maxWord`), at
a point where no digit, point or exponent follows (`NumberEnd`), and it takes those bytes and no
more (`readWordField_eq_ok_iff`). A sign, a fraction, an exponent, a leading zero, a number past
the largest word and every value that is not a number are refused, for an address as for a
size. Whatever the input, the value of a word field is a word (`readWordField_le`). -/

namespace ByteArray

theorem toList_loop_eq (bs : ByteArray) (i : Nat) (r : List UInt8) :
    toList.loop bs i r = r.reverse ++ bs.data.toList.drop i := by
  fun_induction toList.loop bs i r with
  | case1 i r h ih =>
    have hi : i < bs.data.toList.length := by simpa using h
    rw [ih, List.drop_eq_getElem_cons hi]
    simp [ByteArray.get!, h]
  | case2 i r h =>
    rw [List.drop_eq_nil_of_le (by simpa using Nat.le_of_not_lt h)]
    simp

theorem toList_eq_data_toList (bs : ByteArray) : bs.toList = bs.data.toList := by
  simp [toList, toList_loop_eq]

end ByteArray

namespace ChunkRuntime.Json

/-! ### Bytes and digits -/

theorem digitValue_eq_some_iff {b : UInt8} {d : Nat} :
    digitValue b = some d ↔ 48 ≤ b.toNat ∧ b.toNat ≤ 57 ∧ d = b.toNat - 48 := by
  unfold digitValue
  split <;> rename_i h <;> simp [UInt8.le_iff_toNat_le] at h ⊢ <;> omega

theorem digitValue_eq_none_iff {b : UInt8} : digitValue b = none ↔ b.toNat < 48 ∨ 57 < b.toNat := by
  rw [← Option.not_isSome_iff_eq_none, Option.isSome_iff_exists]
  simp only [digitValue_eq_some_iff]
  constructor
  · intro h
    by_contra hc
    exact h ⟨b.toNat - 48, by omega, by omega, rfl⟩
  · rintro h ⟨d, h1, h2, -⟩
    omega

theorem isJsonBlank_eq_true_iff {b : UInt8} :
    isJsonBlank b = true ↔ b.toNat = 32 ∨ b.toNat = 10 ∨ b.toNat = 9 ∨ b.toNat = 13 := by
  simp [isJsonBlank, ← UInt8.toNat_inj, or_assoc]

/-- A digit is not a blank. -/
theorem isJsonBlank_of_digitValue {b : UInt8} {d : Nat} (h : digitValue b = some d) :
    isJsonBlank b = false := by
  rw [digitValue_eq_some_iff] at h
  rw [← Bool.not_eq_true, isJsonBlank_eq_true_iff]
  omega

/-- A digit is none of the bytes that are not digits. -/
theorem ne_of_digitValue {b c : UInt8} {d : Nat} (hb : digitValue b = some d)
    (hc : digitValue c = none) : b ≠ c := by
  rintro rfl
  rw [hb] at hc
  cases hc

/-- A text of one-byte characters is written as those characters' codes. -/
theorem toUTF8_ofList_of_ascii {cs : List Char} (h : ∀ c ∈ cs, c.toNat < 128) :
    (String.ofList cs).toUTF8.toList = cs.map Char.toUInt8 := by
  rw [String.toUTF8_eq_toByteArray, String.toByteArray_ofList, ByteArray.toList_eq_data_toList,
    List.utf8Encode, List.toList_data_toByteArray]
  induction cs with
  | nil => rfl
  | cons c cs ih =>
    have hc : c.utf8Size = 1 := by
      rw [Char.utf8Size_eq_one_iff, UInt32.le_iff_toNat_le]
      exact Nat.le_of_lt_succ (h c List.mem_cons_self)
    rw [List.flatMap_cons, String.utf8EncodeChar_eq_singleton hc,
      ih fun c' hc' => h c' (List.mem_cons_of_mem c hc')]
    rfl

/-! ### Decimal numerals -/

/-- The decimal numeral of `n`: its digits, most significant first, as bytes. -/
def numeral (n : Nat) : List UInt8 := (Nat.toDigits 10 n).map Char.toUInt8

/-- The value of digit bytes read onto `sig`, one digit at a time. -/
def foldDigits (sig : Nat) (ds : List UInt8) : Nat :=
  ds.foldl (fun a b => a * 10 + (b.toNat - 48)) sig

theorem foldDigits_cons (sig : Nat) (b : UInt8) (ds : List UInt8) :
    foldDigits sig (b :: ds) = foldDigits (sig * 10 + (b.toNat - 48)) ds := by
  simp only [foldDigits, List.foldl_cons]

theorem le_foldDigits (sig : Nat) (ds : List UInt8) : sig ≤ foldDigits sig ds := by
  induction ds generalizing sig with
  | nil => exact Nat.le_refl sig
  | cons b ds ih =>
    rw [foldDigits_cons]
    exact Nat.le_trans (by omega) (ih _)

/-- A digit character is one byte, its code. -/
theorem toUInt8_of_isDigit {c : Char} (h : c.isDigit = true) :
    c.toUInt8.toNat = c.toNat ∧ 48 ≤ c.toNat ∧ c.toNat ≤ 57 := by
  simp [Char.isDigit, UInt32.le_iff_toNat_le] at h
  simp only [Char.toUInt8, UInt32.toNat_toUInt8, Char.toNat_val]
  omega

theorem mem_numeral {n : Nat} {b : UInt8} (h : b ∈ numeral n) : 48 ≤ b.toNat ∧ b.toNat ≤ 57 := by
  obtain ⟨c, hc, rfl⟩ := List.mem_map.1 h
  have := toUInt8_of_isDigit (Nat.isDigit_of_mem_toDigits (by decide) (by decide) hc)
  omega

theorem digitValue_of_mem_numeral {n : Nat} {b : UInt8} (h : b ∈ numeral n) :
    ∃ d, digitValue b = some d :=
  ⟨b.toNat - 48, digitValue_eq_some_iff.2 ⟨(mem_numeral h).1, (mem_numeral h).2, rfl⟩⟩

theorem numeral_ne_nil (n : Nat) : numeral n ≠ [] := by
  simp [numeral]

/-- A numeral begins with a digit. -/
theorem numeral_eq_cons (n : Nat) : ∃ b ds d, numeral n = b :: ds ∧ digitValue b = some d := by
  obtain ⟨b, ds, hnum⟩ := List.exists_cons_of_ne_nil (numeral_ne_nil n)
  obtain ⟨d, hb⟩ := digitValue_of_mem_numeral (hnum ▸ List.mem_cons_self : b ∈ numeral n)
  exact ⟨b, ds, d, hnum, hb⟩

theorem numeral_zero : numeral 0 = [48] := by decide

/-- The numeral of a single digit is the one byte that reads as it. -/
theorem numeral_of_digitValue {b : UInt8} {d : Nat} (h : digitValue b = some d) :
    numeral d = [b] := by
  have hdigits : ∀ d < 10, numeral d = [UInt8.ofNat (48 + d)] := by decide
  rw [digitValue_eq_some_iff] at h
  rw [hdigits d (by omega)]
  congr 1
  apply UInt8.toNat_inj.1
  simp only [UInt8.toNat_ofNat', Nat.reducePow]
  omega

/-- One more digit writes one more byte. -/
theorem numeral_push {n d : Nat} (hn : 0 < n) (hd : d < 10) :
    numeral (n * 10 + d) = numeral n ++ numeral d := by
  rw [numeral, numeral, numeral, ← List.map_append, Nat.toDigits_append_toDigits (by decide) hn hd,
    Nat.mul_comm]

/-- The numeral of a positive number starts with a digit other than zero. -/
theorem numeral_leading {n : Nat} (hn : 0 < n) :
    ∃ b ds d, numeral n = b :: ds ∧ digitValue b = some d ∧ 0 < d := by
  induction n using Nat.strong_induction_on with
  | _ n ih =>
    by_cases hlt : n < 10
    · have hdigits : ∀ d < 10, numeral d = [UInt8.ofNat (48 + d)] := by decide
      refine ⟨UInt8.ofNat (48 + n), [], n, hdigits n hlt, ?_, hn⟩
      rw [digitValue_eq_some_iff]
      simp only [UInt8.toNat_ofNat', Nat.reducePow]
      omega
    · obtain ⟨b, ds, d, hnum, hb, hd⟩ := ih (n / 10) (by omega) (by omega)
      have hsplit : n = n / 10 * 10 + n % 10 := by omega
      refine ⟨b, ds ++ numeral (n % 10), d, ?_, hb, hd⟩
      rw [hsplit, numeral_push (by omega) (Nat.mod_lt n (by decide)), hnum]
      simp

theorem foldDigits_numeral (n : Nat) : foldDigits 0 (numeral n) = n := by
  rw [foldDigits, numeral, List.foldl_map]
  have hstep : ∀ a, ∀ c ∈ Nat.toDigits 10 n,
      a * 10 + (c.toUInt8.toNat - 48) = 10 * a + (c.toNat - '0'.toNat) := by
    intro a c hc
    obtain ⟨h1, h2, -⟩ := toUInt8_of_isDigit (Nat.isDigit_of_mem_toDigits (by decide) (by decide) hc)
    have h48 : '0'.toNat = 48 := rfl
    rw [h1, h48]
    omega
  rw [List.foldl_ext _ _ _ hstep, ← Nat.ofDigitChars_eq_foldl, Nat.ofDigitChars_ten_toDigits]

/-- `toString` writes a number as its numeral. -/
theorem toString_toUTF8 (n : Nat) : (toString n).toUTF8.toList = numeral n := by
  rw [Nat.toString_eq_ofList_toDigits, toUTF8_ofList_of_ascii]
  · rfl
  · intro c hc
    have := toUInt8_of_isDigit (Nat.isDigit_of_mem_toDigits (by decide) (by decide) hc)
    omega

/-! ### Runs of a reader -/

namespace Input

/-- The input once `k` more bytes are taken. -/
def skip (st : Input) (k : Nat) : Input := ⟨st.rest.drop k, st.index + k, st.total⟩

@[simp] theorem skip_rest (st : Input) (k : Nat) : (st.skip k).rest = st.rest.drop k := rfl

@[simp] theorem skip_total (st : Input) (k : Nat) : (st.skip k).total = st.total := rfl

@[simp] theorem skip_zero (st : Input) : st.skip 0 = st := rfl

@[simp] theorem skip_skip (st : Input) (a b : Nat) : (st.skip a).skip b = st.skip (a + b) := by
  simp only [skip, List.drop_drop, Nat.add_assoc]

/-- No more bytes are left than the text is long: the budget of every loop covers them. -/
def Fits (st : Input) : Prop := st.rest.length ≤ st.total

theorem Fits.skip {st : Input} (h : st.Fits) (k : Nat) : (st.skip k).Fits := by
  simp only [Fits, skip_rest, skip_total, List.length_drop] at h ⊢
  omega

end Input

section Runs

variable {α β : Type} {st st' st'' : Input}

theorem run_bind_of_ok {x : Read α} {a : α} (h : x.run st = .ok (a, st')) (f : α → Read β) :
    (x >>= f).run st = (f a).run st' := by
  rw [StateT.run_bind, h]
  rfl

theorem run_bind_eq_ok {x : Read α} {f : α → Read β} {b : β} :
    (x >>= f).run st = .ok (b, st'') ↔
      ∃ a st', x.run st = .ok (a, st') ∧ (f a).run st' = .ok (b, st'') := by
  rw [StateT.run_bind]
  constructor
  · intro h
    rcases hx : x.run st with e | ⟨a, st'⟩
    · rw [hx] at h
      cases h
    · rw [hx] at h
      exact ⟨a, st', rfl, h⟩
  · rintro ⟨a, st', hx, hf⟩
    rw [hx]
    exact hf

@[simp] theorem run_pure_eq_ok {a b : α} : (pure a : Read α).run st = .ok (b, st') ↔ a = b ∧ st = st' := by
  change Except.ok (a, st) = Except.ok (b, st') ↔ _
  simp

/-- A reader that ends by returning a function of what it read. -/
theorem run_bind_pure_eq_ok {x : Read α} {g : α → β} {b : β} :
    (x >>= fun a => pure (g a)).run st = .ok (b, st') ↔ ∃ a, x.run st = .ok (a, st') ∧ g a = b := by
  rw [run_bind_eq_ok]
  constructor
  · rintro ⟨a, st₁, hx, hp⟩
    obtain ⟨rfl, rfl⟩ := run_pure_eq_ok.1 hp
    exact ⟨a, hx, rfl⟩
  · rintro ⟨a, hx, rfl⟩
    exact ⟨a, st', hx, run_pure_eq_ok.2 ⟨rfl, rfl⟩⟩

/-- Every value that `r` returns, from any input, satisfies `P`. -/
def Yields (r : Read α) (P : α → Prop) : Prop :=
  ∀ st a st', r.run st = .ok (a, st') → P a

theorem Yields.pure {a : α} {P : α → Prop} (h : P a) : Yields (pure a) P := by
  intro st b st' hr
  rw [(run_pure_eq_ok.1 hr).1] at h
  exact h

theorem Yields.bind {x : Read α} {f : α → Read β} {Q : α → Prop} {P : β → Prop}
    (hx : Yields x Q) (hf : ∀ a, Q a → Yields (f a) P) : Yields (x >>= f) P := by
  intro st b st'' hr
  obtain ⟨a, st', hxa, hfa⟩ := run_bind_eq_ok.1 hr
  exact hf a (hx st a st' hxa) st' b st'' hfa

/-- What the first reader returned does not matter. -/
theorem Yields.bind_of_forall {x : Read α} {f : α → Read β} {P : β → Prop}
    (hf : ∀ a, Yields (f a) P) : Yields (x >>= f) P :=
  Yields.bind (Q := fun _ => True) (fun _ _ _ _ => trivial) fun a _ => hf a

theorem Yields.mono {r : Read α} {P Q : α → Prop} (h : Yields r P) (hPQ : ∀ a, P a → Q a) :
    Yields r Q :=
  fun st a st' hr => hPQ a (h st a st' hr)

theorem Yields.failHere (p : Problem) (P : α → Prop) : Yields (failHere p) P := by
  intro st a st' hr
  cases hr

theorem Yields.failAhead (p : Problem) (P : α → Prop) : Yields (failAhead p) P := by
  intro st a st' hr
  cases hr

/-- A reader that yields nothing never returns. -/
theorem not_run_eq_ok_of_yields_false {r : Read α} (h : Yields r fun _ => False) {a : α} :
    r.run st ≠ .ok (a, st') :=
  fun hr => h st a st' hr

end Runs

/-! ### Single steps -/

section Steps

variable {st : Input} {b : UInt8} {r : List UInt8}

theorem peekByte_run (st : Input) : peekByte.run st = .ok (st.rest.head?, st) := rfl

theorem budget_run (st : Input) : budget.run st = .ok (st.total + 1, st) := rfl

theorem bump_run (h : st.rest = b :: r) : bump.run st = .ok ((), st.skip 1) := by
  rw [show st.skip 1 = ⟨r, st.index + 1, st.total⟩ by simp [Input.skip, h]]
  simp only [bump, StateT.run_modify, h]
  rfl

theorem nextByte_run (h : st.rest = b :: r) : nextByte.run st = .ok (some b, st.skip 1) := by
  simp only [nextByte, run_bind_of_ok (peekByte_run st), h, run_bind_of_ok (bump_run h)]
  rfl

theorem nextByte_run_nil (h : st.rest = []) : nextByte.run st = .ok (none, st) := by
  simp only [nextByte, run_bind_of_ok (peekByte_run st), h]
  change (do bump; pure none : Read (Option UInt8)).run st = _
  simp only [bump, StateT.run_bind, StateT.run_modify, h]
  rfl

theorem dropCounting_eq (p : UInt8 → Bool) (l : List UInt8) (n : Nat) :
    dropCounting p l n = (l.dropWhile p, n + (l.takeWhile p).length) := by
  induction l generalizing n with
  | nil => rfl
  | cons a l ih =>
    by_cases hp : p a = true
    · simp only [dropCounting, hp, if_true, ih, List.dropWhile_cons_of_pos hp,
        List.takeWhile_cons_of_pos hp, List.length_cons]
      ext <;> simp only
      omega
    · simp [dropCounting, hp]

/-- Dropping as many as `takeWhile` takes is `dropWhile`. -/
theorem drop_length_takeWhile (p : UInt8 → Bool) (l : List UInt8) :
    l.drop (l.takeWhile p).length = l.dropWhile p :=
  calc l.drop (l.takeWhile p).length
      = (l.takeWhile p ++ l.dropWhile p).drop (l.takeWhile p).length := by
        rw [List.takeWhile_append_dropWhile]
    _ = l.dropWhile p := List.drop_left

theorem skipBlank_run (st : Input) :
    skipBlank.run st = .ok ((st.rest.dropWhile isJsonBlank).head?,
      st.skip (st.rest.takeWhile isJsonBlank).length) := by
  simp only [skipBlank, dropCounting_eq, Nat.zero_add]
  change Except.ok _ = _
  simp only [Input.skip, drop_length_takeWhile]

/-- Bytes that are all blanks. -/
def Blanks (l : List UInt8) : Prop := ∀ b ∈ l, isJsonBlank b = true

/-- Skipping the blanks in front of a byte that is not one. -/
theorem skipBlank_run_append {pre : List UInt8} (h : st.rest = pre ++ r) (hpre : Blanks pre)
    (hr : ∀ b ∈ r.head?, isJsonBlank b = false) :
    skipBlank.run st = .ok (r.head?, st.skip pre.length) := by
  have hdrop : r.dropWhile isJsonBlank = r := by
    cases r with
    | nil => rfl
    | cons a r => exact List.dropWhile_cons_of_neg (by simpa using hr a rfl)
  have htake : r.takeWhile isJsonBlank = [] := by
    cases r with
    | nil => rfl
    | cons a r => exact List.takeWhile_cons_of_neg (by simpa using hr a rfl)
  rw [skipBlank_run, h, List.dropWhile_append_of_pos hpre, List.takeWhile_append_of_pos hpre,
    hdrop, htake, List.append_nil]

end Steps

/-! ### Numbers -/

section Numbers

variable {neg : Bool} {st st' : Input}

/-- Bytes that cannot continue a number: no digit, point or exponent mark comes next. -/
def NumberEnd (r : List UInt8) : Prop :=
  ∀ b ∈ r.head?, digitValue b = none ∧ b ≠ 46 ∧ b ≠ 101 ∧ b ≠ 69

/-- A reader that ends by making a double of what it read never gives a word. -/
theorem yields_float {α : Type} (x : Read α) (g : α → Float) :
    Yields (x >>= fun a => pure (Number.float (g a))) fun v => ∀ n, v ≠ .nat n :=
  Yields.bind_of_forall fun _ => Yields.pure fun _ h => Number.noConfusion h

/-- The end of a number's digits gives a word only after a plain run of digits, and takes
nothing. -/
theorem readNumberTail_eq_nat_iff {sig n : Nat} :
    (readNumberTail neg sig).run st = .ok (.nat n, st') ↔
      neg = false ∧ n = sig ∧ st' = st ∧ ∀ b ∈ st.rest.head?, b ≠ 46 ∧ b ≠ 101 ∧ b ≠ 69 := by
  unfold readNumberTail
  rw [run_bind_of_ok (peekByte_run st)]
  split
  · -- a point: the number goes on as a fraction
    rename_i hhead
    refine iff_of_false (fun h => yields_float _ id st _ st' h n rfl) ?_
    rintro ⟨-, -, -, hb⟩
    exact (hb 46 hhead).1 rfl
  · -- an exponent mark
    rename_i hhead
    refine iff_of_false (fun h => yields_float _ id st _ st' h n rfl) ?_
    rintro ⟨-, -, -, hb⟩
    exact (hb 101 hhead).2.1 rfl
  · rename_i hhead
    refine iff_of_false (fun h => yields_float _ id st _ st' h n rfl) ?_
    rintro ⟨-, -, -, hb⟩
    exact (hb 69 hhead).2.2 rfl
  · rename_i h46 h101 h69
    have hhead : ∀ b ∈ st.rest.head?, b ≠ 46 ∧ b ≠ 101 ∧ b ≠ 69 := by
      intro b hb
      refine ⟨?_, ?_, ?_⟩ <;> rintro rfl
      · exact h46 hb
      · exact h101 hb
      · exact h69 hb
    cases neg with
    | false =>
      rw [Bool.not_false, if_pos rfl, run_pure_eq_ok, Number.nat.injEq]
      constructor
      · rintro ⟨rfl, rfl⟩
        exact ⟨rfl, rfl, rfl, hhead⟩
      · rintro ⟨-, rfl, rfl, -⟩
        simp
    | true =>
      -- a negative number is a negative integer or a double
      refine iff_of_false ?_ (by simp)
      simp only [Bool.not_true, Bool.false_eq_true, if_false]
      split_ifs <;> rw [run_pure_eq_ok] <;> simp

theorem readNumberTail_yields (neg : Bool) (sig : Nat) :
    Yields (readNumberTail neg sig) fun x => ∀ n, x = .nat n → n = sig := by
  rintro st x st' h n rfl
  exact (readNumberTail_eq_nat_iff.1 h).2.1

/-- A run of digits read onto a positive `sig` that fits a word, with fuel for every byte left:
when it gives a word, the digits it took extend the numeral of `sig` to the word's, and what
follows cannot continue the number. -/
theorem readIntegerDigits_eq_nat {fuel sig n : Nat} (hsig : 0 < sig) (hle : sig ≤ maxWord)
    (hfuel : st.rest.length < fuel) (h : (readIntegerDigits neg fuel sig).run st = .ok (.nat n, st')) :
    neg = false ∧ ∃ ds, st.rest = ds ++ st'.rest ∧ numeral n = numeral sig ++ ds ∧ n ≤ maxWord ∧
      NumberEnd st'.rest ∧ st' = st.skip ds.length := by
  induction fuel generalizing sig st with
  | zero => exact absurd hfuel (Nat.not_lt_zero _)
  | succ fuel ih =>
    rw [readIntegerDigits, run_bind_of_ok (peekByte_run st)] at h
    cases hrest : st.rest with
    | nil =>
      simp only [hrest, List.head?_nil, Option.bind_none] at h
      obtain ⟨hneg, rfl, rfl, -⟩ := readNumberTail_eq_nat_iff.1 h
      refine ⟨hneg, [], by simp [hrest], by simp, hle, ?_, by simp⟩
      simp [NumberEnd, hrest]
    | cons b r =>
      cases hb : digitValue b with
      | none =>
        -- the digits end here
        simp only [hrest, List.head?_cons, Option.bind_some, hb] at h
        obtain ⟨hneg, rfl, rfl, hend⟩ := readNumberTail_eq_nat_iff.1 h
        refine ⟨hneg, [], by simp [hrest], by simp, hle, ?_, by simp⟩
        rw [hrest] at hend ⊢
        intro c hc
        cases hc
        exact ⟨hb, hend b rfl⟩
      | some d =>
        simp only [hrest, List.head?_cons, Option.bind_some, hb] at h
        have hd : d < 10 := by
          have := digitValue_eq_some_iff.1 hb
          omega
        split_ifs at h with hover
        · exact absurd h fun h' =>
            Yields.bind_of_forall (fun f => yields_float (readLongInteger neg sig f 0) id)
              st _ st' h' n rfl
        · rw [run_bind_of_ok (bump_run hrest)] at h
          have hfuel' : (st.skip 1).rest.length < fuel := by
            simp only [Input.skip_rest, hrest, List.drop_succ_cons, List.drop_zero]
            rw [hrest] at hfuel
            simpa using hfuel
          obtain ⟨hneg, ds, hds, hnum, hn, hend, hst⟩ :=
            ih (Nat.mul_pos hsig (by decide) |>.trans_le (Nat.le_add_right _ _)) (by omega) hfuel' h
          refine ⟨hneg, b :: ds, ?_, ?_, hn, hend, ?_⟩
          · simpa [hrest] using hds
          · rw [hnum, numeral_push hsig hd, numeral_of_digitValue hb]
            simp
          · rw [hst, Input.skip_skip, List.length_cons, Nat.add_comm]

/-- Digits followed by what cannot continue a number, read onto `sig` with fuel for each of them,
give their value when it fits a word, and are all taken. -/
theorem readIntegerDigits_of_digits {fuel sig : Nat} {ds r : List UInt8} (h : st.rest = ds ++ r)
    (hds : ∀ b ∈ ds, ∃ d, digitValue b = some d) (hr : NumberEnd r)
    (hle : foldDigits sig ds ≤ maxWord) (hfuel : ds.length < fuel) :
    (readIntegerDigits false fuel sig).run st = .ok (.nat (foldDigits sig ds), st.skip ds.length) := by
  induction ds generalizing fuel sig st with
  | nil =>
    obtain ⟨fuel, rfl⟩ : ∃ f, fuel = f + 1 := ⟨fuel - 1, by simp at hfuel; omega⟩
    rw [readIntegerDigits, run_bind_of_ok (peekByte_run st)]
    have hnone : st.rest.head?.bind digitValue = none := by
      rw [h, List.nil_append]
      cases r with
      | nil => rfl
      | cons b r => simpa using (hr b rfl).1
    simp only [hnone, Input.skip_zero, List.length_nil]
    refine readNumberTail_eq_nat_iff.2 ⟨rfl, rfl, rfl, ?_⟩
    rw [h, List.nil_append]
    exact fun b hb => (hr b hb).2
  | cons b ds ih =>
    obtain ⟨fuel, rfl⟩ : ∃ f, fuel = f + 1 := ⟨fuel - 1, by simp at hfuel; omega⟩
    obtain ⟨d, hd⟩ := hds b List.mem_cons_self
    have hval : foldDigits sig (b :: ds) = foldDigits (sig * 10 + d) ds := by
      rw [foldDigits_cons, (digitValue_eq_some_iff.1 hd).2.2]
    rw [readIntegerDigits, run_bind_of_ok (peekByte_run st)]
    simp only [h, List.cons_append, List.head?_cons, Option.bind_some, hd]
    rw [if_neg (by have := le_foldDigits (sig * 10 + d) ds; omega),
      run_bind_of_ok (bump_run (h.trans (List.cons_append ..))), hval,
      ih (by simp [h]) (fun c hc => hds c (List.mem_cons_of_mem b hc)) (hval ▸ hle)
        (by simp at hfuel; omega), Input.skip_skip, List.length_cons, Nat.add_comm 1]

theorem readIntegerDigits_le (neg : Bool) {fuel sig : Nat} (hle : sig ≤ maxWord) :
    Yields (readIntegerDigits neg fuel sig) fun x => ∀ n, x = .nat n → n ≤ maxWord := by
  induction fuel generalizing sig with
  | zero => exact (readNumberTail_yields neg sig).mono fun x hx n hn => hx n hn ▸ hle
  | succ fuel ih =>
    rw [readIntegerDigits]
    refine Yields.bind_of_forall fun o => ?_
    split
    · split_ifs with hover
      · exact (Yields.bind_of_forall fun f => yields_float (readLongInteger neg sig f 0) id).mono
          fun x hx n hn => absurd hn (hx n)
      · exact Yields.bind_of_forall fun _ => ih (by omega)
    · exact (readNumberTail_yields neg sig).mono fun x hx n hn => hx n hn ▸ hle

/-- A number read as a word is the numeral of a word at a point where the number cannot go on,
and nothing else is taken; a negative number never is a word. -/
theorem readNumber_eq_nat {n : Nat} (hfits : st.Fits)
    (h : (readNumber neg).run st = .ok (.nat n, st')) :
    neg = false ∧ st.rest = numeral n ++ st'.rest ∧ n ≤ maxWord ∧ NumberEnd st'.rest ∧
      st' = st.skip (numeral n).length := by
  unfold readNumber at h
  cases hrest : st.rest with
  | nil =>
    rw [run_bind_of_ok (nextByte_run_nil hrest)] at h
    exact absurd h fun h' => Yields.failHere _ (fun _ => False) st _ st' h'
  | cons b r =>
    rw [run_bind_of_ok (nextByte_run hrest)] at h
    have hr : (st.skip 1).rest = r := by simp [hrest]
    split at h
    · rename_i hsome
      cases hsome
    · -- a zero: no digit may follow it
      rename_i hsome
      obtain rfl : b = 48 := Option.some.inj hsome
      rw [run_bind_of_ok (peekByte_run _)] at h
      split at h
      · exact absurd h fun h' => Yields.failAhead _ (fun _ => False) _ _ _ h'
      · rename_i hnone
        obtain ⟨hneg, rfl, rfl, hend⟩ := readNumberTail_eq_nat_iff.1 h
        refine ⟨hneg, by rw [numeral_zero, hr]; rfl, Nat.zero_le _, ?_, by rw [numeral_zero]; rfl⟩
        intro c hc
        refine ⟨?_, hend c hc⟩
        rw [Option.mem_def] at hc
        rw [hc, Option.bind_some] at hnone
        exact hnone
    · -- a first digit other than zero, and the digits after it
      rename_i b' hne hsome
      obtain rfl : b = b' := Option.some.inj hsome
      split at h
      · rename_i d hd
        rw [run_bind_of_ok (budget_run _)] at h
        have hd0 : 0 < d := by
          have := digitValue_eq_some_iff.1 hd
          have hb48 : b.toNat ≠ 48 := fun h48 => hne (UInt8.toNat_inj.1 h48)
          omega
        have hfuel : (st.skip 1).rest.length < (st.skip 1).total + 1 := by
          have := hfits.skip 1
          unfold Input.Fits at this
          omega
        obtain ⟨hneg, ds, hds, hnum, hn, hend, hst⟩ :=
          readIntegerDigits_eq_nat hd0 (Nat.le_trans (by have := digitValue_eq_some_iff.1 hd; omega)
            (by decide : 9 ≤ maxWord)) hfuel h
        refine ⟨hneg, ?_, hn, hend, ?_⟩
        · rw [hnum, numeral_of_digitValue hd, ← hr, hds]
          rfl
        · rw [hst, Input.skip_skip, hnum, numeral_of_digitValue hd, List.length_append,
            List.length_singleton, Nat.add_comm 1]
      · exact absurd h fun h' => Yields.failHere _ (fun _ => False) _ _ _ h'

/-- The numeral of a word, where the number cannot go on, is read as that word and taken
whole. -/
theorem readNumber_numeral {n : Nat} {r : List UInt8} (hfits : st.Fits) (h : st.rest = numeral n ++ r)
    (hr : NumberEnd r) (hn : n ≤ maxWord) :
    (readNumber false).run st = .ok (.nat n, st.skip (numeral n).length) := by
  unfold readNumber
  rcases Nat.eq_zero_or_pos n with rfl | hpos
  · rw [numeral_zero] at h ⊢
    rw [run_bind_of_ok (nextByte_run h)]
    split
    · rename_i hsome
      cases hsome
    · have hnone : (st.skip 1).rest.head?.bind digitValue = none := by
        simp only [Input.skip_rest, h]
        cases r with
        | nil => rfl
        | cons c r => simpa using (hr c rfl).1
      rw [run_bind_of_ok (peekByte_run _)]
      simp only [hnone]
      refine readNumberTail_eq_nat_iff.2 ⟨rfl, rfl, rfl, ?_⟩
      simp only [Input.skip_rest, h, List.cons_append, List.nil_append, List.drop_succ_cons,
        List.drop_zero]
      exact fun c hc => (hr c hc).2
    · rename_i b hne hsome
      exact absurd (Option.some.inj hsome).symm hne
  · obtain ⟨b, ds, d, hnum, hb, hd⟩ := numeral_leading hpos
    have hds : ∀ c ∈ ds, ∃ d, digitValue c = some d := fun c hc =>
      digitValue_of_mem_numeral (hnum ▸ List.mem_cons_of_mem b hc)
    have hval : foldDigits d ds = n := by
      have := foldDigits_numeral n
      rwa [hnum, foldDigits_cons, (digitValue_eq_some_iff.1 hb).2.2.symm, Nat.zero_mul,
        Nat.zero_add] at this
    rw [hnum] at h ⊢
    rw [run_bind_of_ok (nextByte_run (h.trans (List.cons_append ..)))]
    have hb48 : b ≠ 48 := by
      rintro rfl
      have := digitValue_eq_some_iff.1 hb
      simp at this
      omega
    split
    · rename_i hsome
      cases hsome
    · rename_i hsome
      exact absurd (Option.some.inj hsome) hb48
    · rename_i b' hne hsome
      obtain rfl : b = b' := Option.some.inj hsome
      simp only [hb]
      rw [run_bind_of_ok (budget_run _)]
      have hfuel : ds.length < (st.skip 1).total + 1 := by
        have := hfits
        unfold Input.Fits at this
        rw [h] at this
        simp at this ⊢
        omega
      rw [readIntegerDigits_of_digits (by simp [h]) hds hr (hval ▸ hn) hfuel, hval, Input.skip_skip,
        List.length_cons, Nat.add_comm 1]

theorem readNumber_le (neg : Bool) :
    Yields (readNumber neg) fun x => ∀ n, x = .nat n → n ≤ maxWord := by
  unfold readNumber
  refine Yields.bind_of_forall fun o => ?_
  split
  · exact Yields.failHere _ _
  · refine Yields.bind_of_forall fun o => ?_
    split
    · exact Yields.failAhead _ _
    · exact (readNumberTail_yields neg 0).mono fun x hx n hn => (hx n hn) ▸ Nat.zero_le _
  · split
    · rename_i d hd
      have : d ≤ maxWord :=
        Nat.le_trans (by have := digitValue_eq_some_iff.1 hd; omega) (by decide : 9 ≤ maxWord)
      exact Yields.bind_of_forall fun _ => readIntegerDigits_le neg this
    · exact Yields.failHere _ _

end Numbers

/-! ### Word fields -/

section WordFields

variable {α : Type} {st st' : Input}

/-- A word field takes a number exactly when it was read as a word. -/
theorem WordKind.visit_eq_ok_iff (k : WordKind) {x : Number} {n : Nat} :
    k.visit x = .ok n ↔ x = .nat n := by
  cases x <;> cases k <;> simp [WordKind.visit]

/-- The value of a word field, once its number is read, placed where the number ended. -/
theorem placed_visit_eq_ok {x : Read Number} {k : WordKind} {n : Nat} :
    (placed (x >>= fun a => pure (k.visit a))).run st = .ok (n, st') ↔
      x.run st = .ok (.nat n, st') := by
  unfold placed
  rw [run_bind_eq_ok]
  constructor
  · rintro ⟨e, st₁, hx, hp⟩
    obtain ⟨a, hxa, rfl⟩ := run_bind_pure_eq_ok.1 hx
    cases he : k.visit a with
    | error p =>
      rw [he] at hp
      exact absurd hp fun h' => Yields.failHere _ (fun _ => False) _ _ _ h'
    | ok m =>
      rw [he] at hp
      obtain ⟨rfl, rfl⟩ := run_pure_eq_ok.1 hp
      rwa [(k.visit_eq_ok_iff).1 he] at hxa
  · intro hx
    exact ⟨.ok n, st', run_bind_pure_eq_ok.2 ⟨.nat n, hx, (k.visit_eq_ok_iff).2 rfl⟩,
      run_pure_eq_ok.2 ⟨rfl, rfl⟩⟩

/-- What a field wanted in the way of a typed read is never there: the read always fails. -/
theorem invalidType_yields (e : String) (P : α → Prop) : Yields (invalidType e) P := by
  unfold invalidType
  refine Yields.bind_of_forall fun o => ?_
  split
  case h_6 | h_7 => exact Yields.failHere _ _
  case h_8 =>
    split
    · exact Yields.bind_of_forall fun _ => Yields.failHere _ _
    · exact Yields.failAhead _ _
  case h_9 => exact Yields.failAhead _ _
  -- a literal, a number or a string, read whole, then refused
  all_goals exact Yields.bind_of_forall fun _ => Yields.bind_of_forall fun _ => Yields.failHere _ _

/-- The reader of a word field accepts exactly blanks, then the numeral of a word at a point
where the number cannot go on, and takes exactly those bytes: an address and a size alike. -/
theorem readWordField_eq_ok_iff (k : WordKind) {n : Nat} (hfits : st.Fits) :
    (readWordField k).run st = .ok (n, st') ↔
      ∃ pre, Blanks pre ∧ st.rest = pre ++ numeral n ++ st'.rest ∧ n ≤ maxWord ∧
        NumberEnd st'.rest ∧ st' = st.skip (pre ++ numeral n).length := by
  unfold readWordField
  rw [run_bind_of_ok (skipBlank_run st)]
  constructor
  · intro h
    have hsplit : st.rest = st.rest.takeWhile isJsonBlank ++ st.rest.dropWhile isJsonBlank :=
      List.takeWhile_append_dropWhile.symm
    have hfits' := hfits.skip (st.rest.takeWhile isJsonBlank).length
    have hrest' : (st.skip (st.rest.takeWhile isJsonBlank).length).rest =
        st.rest.dropWhile isJsonBlank := drop_length_takeWhile _ _
    cases hd : st.rest.dropWhile isJsonBlank with
    | nil =>
      simp only [hd, List.head?_nil] at h
      exact absurd h fun h' => Yields.failAhead _ (fun _ => False) _ _ _ h'
    | cons b r =>
      simp only [hd, List.head?_cons] at h
      split_ifs at h with hminus hdigit
      · -- a minus sign: what follows is never a word
        rw [hd] at hrest'
        rw [run_bind_of_ok (bump_run hrest')] at h
        exact absurd (readNumber_eq_nat (hfits'.skip 1) (placed_visit_eq_ok.1 h)).1 Bool.noConfusion
      · obtain ⟨-, hnum, hn, hend, hst⟩ := readNumber_eq_nat hfits' (placed_visit_eq_ok.1 h)
        refine ⟨st.rest.takeWhile isJsonBlank, fun c hc => List.mem_takeWhile_imp hc, ?_, hn, hend, ?_⟩
        · rw [List.append_assoc, ← hnum, hrest', ← hsplit]
        · rw [hst, Input.skip_skip, List.length_append]
      · exact absurd h fun h' => invalidType_yields _ (fun _ => False) _ _ _ h'
  · rintro ⟨pre, hpre, hrest, hn, hend, hst⟩
    obtain ⟨b, ds, d, hnum, hb⟩ := numeral_eq_cons n
    have hafter : (st.skip pre.length).rest = numeral n ++ st'.rest := by
      rw [Input.skip_rest, hrest, List.append_assoc, List.drop_left]
    -- the blanks are skipped up to the first digit
    have hskip := skipBlank_run_append (r := numeral n ++ st'.rest)
      (by rw [hrest, List.append_assoc]) hpre
      (by rw [hnum]; exact fun c hc => by cases hc; exact isJsonBlank_of_digitValue hb)
    obtain ⟨hhead, hpos⟩ := Prod.mk.inj (Except.ok.inj ((skipBlank_run st).symm.trans hskip))
    rw [hhead, hpos, hnum, List.cons_append, List.head?_cons]
    have h45 : (b == 45) = false := beq_eq_false_iff_ne.2 (ne_of_digitValue hb rfl)
    simp only [h45, Bool.false_eq_true, if_false, hb, Option.isSome_some, if_true]
    have hread := readNumber_numeral (hfits.skip pre.length) hafter hend hn
    rw [Input.skip_skip, ← List.length_append, ← hst] at hread
    exact placed_visit_eq_ok.2 hread

theorem readWordField_le (k : WordKind) : Yields (readWordField k) (· ≤ maxWord) := by
  have hvisit : ∀ neg, Yields (placed (readNumber neg >>= fun a => pure (k.visit a))) (· ≤ maxWord) :=
    fun neg st n st' h => readNumber_le neg st _ st' (placed_visit_eq_ok.1 h) n rfl
  unfold readWordField
  refine Yields.bind_of_forall fun o => ?_
  split
  · exact Yields.failAhead _ _
  · split_ifs
    · exact Yields.bind_of_forall fun _ => hvisit true
    · exact hvisit false
    · exact invalidType_yields _ _

end WordFields

end ChunkRuntime.Json
