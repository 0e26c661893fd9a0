import Mathlib
import ChunkRuntime.Pool.Config

/-! Reading the pool's geometry from its two settings, for every pair of settings. A setting
spells a word when, once white space is trimmed from both ends, it is an optional `+` and one or
more ASCII digits whose value is below the word's top (`Text.Spells`); trimming is stated as the
text between two runs of white space that neither starts nor ends with any (`Text.Trimmed`),
and the value of the digits as the base-ten number they write (`Text.decimalValue`). Reading a
text accepts exactly the texts that spell a word, with that word (`Text.parseWord_eq_some_iff`).

The block size is read first: when it is set and spells nothing, that is the error, carrying the
text as it was set, untrimmed; otherwise the region size is read the same way; and otherwise the
geometry holds the two words, each setting left unset giving its default
(`Geometry.fromLookup_readsSettings`). -/

namespace ChunkRuntime

namespace Text

/-! ### Trimming white space -/

/-- `t` is `s` with white space trimmed from both ends: `s` is `t` between a run of white space
before it and one after it, and `t` neither starts nor ends with white space. -/
def Trimmed (s t : List Char) : Prop :=
  ∃ pre post, s = pre ++ t ++ post ∧ (∀ c ∈ pre, isBlank c = true) ∧ (∀ c ∈ post, isBlank c = true) ∧
    (∀ c ∈ t.head?, isBlank c = false) ∧ (∀ c ∈ t.getLast?, isBlank c = false)

/-- Dropping white space from the front of a run of white space followed by a text that does not
start with any leaves that text. -/
theorem dropWhile_blank_append {pre t : List Char} (hpre : ∀ c ∈ pre, isBlank c = true)
    (ht : ∀ c ∈ t.head?, isBlank c = false) : (pre ++ t).dropWhile isBlank = t := by
  induction pre with
  | nil =>
    cases t with
    | nil => rfl
    | cons a t => exact List.dropWhile_cons_of_neg (by simpa using ht a rfl)
  | cons a pre ih =>
    rw [List.cons_append, List.dropWhile_cons_of_pos (hpre a List.mem_cons_self)]
    exact ih fun c hc => hpre c (List.mem_cons_of_mem a hc)

/-- What dropping white space leaves does not start with any. -/
theorem head?_dropWhile_blank (l : List Char) : ∀ c ∈ (l.dropWhile isBlank).head?, isBlank c = false := by
  intro c hc
  cases h : l.dropWhile isBlank with
  | nil => rw [h] at hc; cases hc
  | cons a rest =>
    rw [h, List.head?_cons, Option.mem_some_iff] at hc
    subst hc
    have := List.head_dropWhile_not isBlank (l := l) (by rw [h]; exact List.cons_ne_nil a rest)
    simpa [h] using this

/-- A text trimmed is the only text between two runs of white space that neither starts nor
ends with any. -/
theorem trim_of_trimmed {s t : List Char} (h : Trimmed s t) : trim s = t := by
  obtain ⟨pre, post, rfl, hpre, hpost, hhead, hlast⟩ := h
  unfold trim
  cases t with
  | nil =>
    have hall : (pre ++ post).dropWhile isBlank = [] := by
      refine List.dropWhile_eq_nil_iff.2 fun c hc => ?_
      rcases List.mem_append.1 hc with hc | hc
      · exact hpre c hc
      · exact hpost c hc
    rw [List.append_nil, hall]
    rfl
  | cons a t' =>
    -- the front run goes first, then the back run of what is left, read backwards
    have hfront : (pre ++ (a :: t' ++ post)).dropWhile isBlank = a :: t' ++ post :=
      dropWhile_blank_append hpre (by simpa using hhead)
    have hback : (post.reverse ++ (a :: t').reverse).dropWhile isBlank = (a :: t').reverse :=
      dropWhile_blank_append (by simpa using hpost) (by rwa [List.head?_reverse])
    rw [List.append_assoc, hfront, List.reverse_append, hback, List.reverse_reverse]

theorem trimmed_trim (s : List Char) : Trimmed s (trim s) := by
  have hfront : s.takeWhile isBlank ++ s.dropWhile isBlank = s := List.takeWhile_append_dropWhile
  have hback : (s.dropWhile isBlank).reverse.takeWhile isBlank ++
      (s.dropWhile isBlank).reverse.dropWhile isBlank = (s.dropWhile isBlank).reverse :=
    List.takeWhile_append_dropWhile
  -- what is left after the front run is the trimmed text followed by the back run
  have hrest : s.dropWhile isBlank = trim s ++ ((s.dropWhile isBlank).reverse.takeWhile isBlank).reverse := by
    rw [trim, ← List.reverse_append, hback, List.reverse_reverse]
  refine ⟨s.takeWhile isBlank, ((s.dropWhile isBlank).reverse.takeWhile isBlank).reverse, ?_,
    fun c hc => List.mem_takeWhile_imp hc, fun c hc => List.mem_takeWhile_imp (List.mem_reverse.1 hc),
    fun c hc => ?_, fun c hc => ?_⟩
  · rw [List.append_assoc, ← hrest, hfront]
  · -- the trimmed text starts where the front run ends
    apply head?_dropWhile_blank s c
    rw [hrest]
    cases h : trim s with
    | nil => rw [h] at hc; cases hc
    | cons a r => rw [h] at hc; simpa using hc
  · rw [trim, List.getLast?_reverse] at hc
    exact head?_dropWhile_blank _ c hc

theorem trim_eq_iff (s t : List Char) : trim s = t ↔ Trimmed s t :=
  ⟨fun h => h ▸ trimmed_trim s, trim_of_trimmed⟩

/-! ### Decimal digits -/

/-- The value of decimal digits, most significant first. -/
def decimalValue (ds : List Char) : Nat := Nat.ofDigits 10 (ds.reverse.map fun c => c.toNat - '0'.toNat)

theorem decimalValue_cons (d : Char) (ds : List Char) :
    decimalValue (d :: ds) = decimalValue ds + 10 ^ ds.length * (d.toNat - '0'.toNat) := by
  simp [decimalValue, Nat.ofDigits_append]

theorem isDigit_iff (c : Char) : c.isDigit = true ↔ '0' ≤ c ∧ c ≤ '9' := by
  simp only [Char.isDigit, Bool.and_eq_true, decide_eq_true_eq, ge_iff_le]
  rfl

theorem asciiDigit_eq (c : Char) : asciiDigit c = if c.isDigit then some (c.toNat - '0'.toNat) else none := by
  unfold asciiDigit
  by_cases h : c.isDigit = true
  · rw [if_pos ((isDigit_iff c).1 h), if_pos h]
  · rw [if_neg (mt (isDigit_iff c).2 h), if_neg h]

/-- One more digit read onto a value already read. -/
def digitStep (acc : Option Nat) (d : Char) : Option Nat := do
  let a ← acc
  let v ← asciiDigit d
  some (10 * a + v)

theorem digitsValue_cons (c : Char) (cs : List Char) : digitsValue (c :: cs) = cs.foldl digitStep (asciiDigit c) :=
  rfl

theorem foldl_digitStep_none (ds : List Char) : ds.foldl digitStep none = none := by
  induction ds with
  | nil => rfl
  | cons d ds ih => exact ih

/-- Reading digits onto `a` succeeds exactly when they all are digits, shifting `a` past them. -/
theorem foldl_digitStep_some (ds : List Char) (a n : Nat) :
    ds.foldl digitStep (some a) = some n ↔
      (∀ c ∈ ds, c.isDigit = true) ∧ n = a * 10 ^ ds.length + decimalValue ds := by
  induction ds generalizing a with
  | nil =>
    have h0 : decimalValue [] = 0 := rfl
    simp only [List.foldl_nil, Option.some.injEq, List.length_nil, pow_zero, mul_one, h0, add_zero]
    exact ⟨fun h => ⟨fun c hc => absurd hc List.not_mem_nil, h.symm⟩, fun h => h.2.symm⟩
  | cons d ds ih =>
    rw [List.foldl_cons]
    by_cases hd : d.isDigit = true
    · have hstep : digitStep (some a) d = some (10 * a + (d.toNat - '0'.toNat)) := by
        simp only [digitStep, asciiDigit_eq, if_pos hd]
        rfl
      rw [hstep, ih, decimalValue_cons, List.length_cons]
      simp only [List.forall_mem_cons, hd, true_and]
      constructor <;> rintro ⟨hall, rfl⟩ <;> refine ⟨hall, ?_⟩ <;> ring
    · have hstep : digitStep (some a) d = none := by
        simp only [digitStep, asciiDigit_eq, if_neg hd]
        rfl
      rw [hstep, foldl_digitStep_none]
      simp [hd]

/-- A run of digits is read exactly when it is non-empty and all ASCII digits, as the number it
writes in base ten. -/
theorem digitsValue_eq_some_iff (ds : List Char) (n : Nat) :
    digitsValue ds = some n ↔ ds ≠ [] ∧ (∀ c ∈ ds, c.isDigit = true) ∧ decimalValue ds = n := by
  cases ds with
  | nil => simp [digitsValue]
  | cons c cs =>
    rw [digitsValue_cons, asciiDigit_eq]
    by_cases hc : c.isDigit = true
    · rw [if_pos hc, foldl_digitStep_some, decimalValue_cons]
      simp only [List.forall_mem_cons, hc, true_and, ne_eq, reduceCtorEq, not_false_eq_true]
      constructor <;> rintro ⟨hall, h⟩ <;> refine ⟨hall, ?_⟩ <;> linarith
    · rw [if_neg hc, foldl_digitStep_none]
      simp [hc]

/-! ### Texts that spell a word -/

/-- `t` spells the word `n`: an optional `+` and one or more ASCII digits whose value `n` is
below the word's top. -/
def WordText (t : List Char) (n : Nat) : Prop :=
  ∃ ds, (t = '+' :: ds ∨ t = ds) ∧ ds ≠ [] ∧ (∀ c ∈ ds, c.isDigit = true) ∧ decimalValue ds = n ∧
    n < wordLimit

/-- `s` spells the word `n` once white space is trimmed from both ends. -/
def Spells (s : String) (n : Nat) : Prop := ∃ t, Trimmed s.toList t ∧ WordText t n

theorem spells_iff (s : String) (n : Nat) : Spells s n ↔ WordText (trim s.toList) n :=
  ⟨fun ⟨_, ht, hw⟩ => trim_of_trimmed ht ▸ hw, fun h => ⟨_, trimmed_trim _, h⟩⟩

/-- A text with no sign spells a word exactly when it is a run of digits writing it. -/
theorem wordText_unsigned {t : List Char} (ht : ∀ rest, t ≠ '+' :: rest) (n : Nat) :
    WordText t n ↔ t ≠ [] ∧ (∀ c ∈ t, c.isDigit = true) ∧ decimalValue t = n ∧ n < wordLimit := by
  constructor
  · rintro ⟨ds, hds | rfl, hne, hall, hval, hw⟩
    · exact absurd hds (ht ds)
    · exact ⟨hne, hall, hval, hw⟩
  · rintro ⟨hne, hall, hval, hw⟩
    exact ⟨t, .inr rfl, hne, hall, hval, hw⟩

/-- A text with a sign spells a word exactly when what follows the sign is a run of digits
writing it: a second sign is not a digit. -/
theorem wordText_signed (rest : List Char) (n : Nat) :
    WordText ('+' :: rest) n ↔
      rest ≠ [] ∧ (∀ c ∈ rest, c.isDigit = true) ∧ decimalValue rest = n ∧ n < wordLimit := by
  constructor
  · rintro ⟨ds, hds | hds, hne, hall, hval, hw⟩
    · cases hds
      exact ⟨hne, hall, hval, hw⟩
    · exact absurd (hall '+' (hds ▸ List.mem_cons_self)) (by decide)
  · rintro ⟨hne, hall, hval, hw⟩
    exact ⟨rest, .inl rfl, hne, hall, hval, hw⟩

theorem bind_below_eq_some {x : Option Nat} {n : Nat} :
    (x.bind fun n => if n < Nat.pow 2 64 then some n else none) = some n ↔ x = some n ∧ n < wordLimit := by
  cases x with
  | none => simp
  | some m =>
    by_cases hm : m < Nat.pow 2 64
    · simp only [Option.bind_some, if_pos hm, Option.some.injEq]
      constructor
      · rintro rfl; exact ⟨rfl, hm⟩
      · rintro ⟨rfl, -⟩; rfl
    · simp only [Option.bind_some, if_neg hm, reduceCtorEq, false_iff, not_and, Option.some.injEq]
      rintro rfl
      exact hm

/-- Reading a text accepts exactly the texts that spell a word, with that word. -/
theorem parseWord_eq_some_iff (s : String) (n : Nat) : parseWord s = some n ↔ Spells s n := by
  rw [spells_iff, parseWord]
  generalize trim s.toList = t
  simp only [bind_below_eq_some, digitsValue_eq_some_iff]
  split
  · next rest => rw [wordText_signed]; tauto
  · next hsign => rw [wordText_unsigned fun rest h => hsign rest h]; tauto

example : parseWord "\u3000 +0042\n" = some 42 ∧ parseWord "-0" = none ∧ parseWord "+" = none ∧
    parseWord "18446744073709551616" = none := by
  decide

end Text

namespace Geometry

/-! ### The two settings -/

variable (lookup : String → Option String)

/-- Setting `key` gives the word `n`: unset and `n` its default, or set to a text spelling `n`. -/
def Gives (key : String) (dflt n : Nat) : Prop :=
  lookup key = none ∧ n = dflt ∨ ∃ v, lookup key = some v ∧ Text.Spells v n

/-- Setting `key` is set to the text `v`, which spells no word. -/
def Garbled (key v : String) : Prop := lookup key = some v ∧ ∀ n, ¬ Text.Spells v n

/-- A set text that reads as no word spells none. -/
theorem not_spells_of_parseWord {v : String} (hp : Text.parseWord v = none) (n : Nat) : ¬ Text.Spells v n := by
  rw [← Text.parseWord_eq_some_iff, hp]
  exact fun h => Option.some_ne_none n h.symm

theorem setting_eq_ok_iff (key : String) (dflt n : Nat) :
    setting lookup key dflt = .ok n ↔ Gives lookup key dflt n := by
  unfold setting Gives
  cases hk : lookup key with
  | none => simp [eq_comm]
  | some v =>
    cases hp : Text.parseWord v with
    | none =>
      simp only [hp]
      refine ⟨(fun h => by cases h), ?_⟩
      rintro (⟨h, -⟩ | ⟨w, hw, hs⟩)
      · cases h
      · cases hw
        exact absurd hs (not_spells_of_parseWord hp n)
    | some m =>
      simp only [hp]
      constructor
      · rintro ⟨⟩
        exact .inr ⟨v, rfl, (Text.parseWord_eq_some_iff v n).1 hp⟩
      · rintro (⟨h, -⟩ | ⟨w, hw, hs⟩)
        · cases h
        · cases hw
          -- a text spells one word at most
          have hn := (Text.parseWord_eq_some_iff v n).2 hs
          rw [hp] at hn
          cases hn
          rfl

theorem setting_eq_error_iff (key : String) (dflt : Nat) (e : Error) :
    setting lookup key dflt = .error e ↔ ∃ v, Garbled lookup key v ∧ e = .invalidConfig key v := by
  unfold setting Garbled
  cases hk : lookup key with
  | none => simp
  | some v =>
    cases hp : Text.parseWord v with
    | none =>
      simp only [hp]
      constructor
      · rintro ⟨⟩
        exact ⟨v, ⟨rfl, not_spells_of_parseWord hp⟩, rfl⟩
      · rintro ⟨w, ⟨hw, -⟩, rfl⟩
        cases hw
        rfl
    | some m =>
      simp only [hp]
      refine ⟨(fun h => by cases h), ?_⟩
      rintro ⟨w, ⟨hw, hbad⟩, -⟩
      cases hw
      exact absurd ((Text.parseWord_eq_some_iff v m).1 hp) (hbad m)

/-- A text spells one word at most. -/
theorem spells_unique {v : String} {n n' : Nat} (h : Text.Spells v n) (h' : Text.Spells v n') : n = n' := by
  rw [← Text.parseWord_eq_some_iff] at h h'
  rw [h] at h'
  exact Option.some.inj h'

variable {lookup} {key : String} {dflt n : Nat}

/-- A setting gives one word at most. -/
theorem Gives.unique {n' : Nat} (h : Gives lookup key dflt n) (h' : Gives lookup key dflt n') : n = n' := by
  rcases h with ⟨hk, rfl⟩ | ⟨v, hk, hs⟩ <;> rcases h' with ⟨hk', rfl⟩ | ⟨v', hk', hs'⟩
  · rfl
  · rw [hk] at hk'; cases hk'
  · rw [hk] at hk'; cases hk'
  · rw [hk, Option.some.injEq] at hk'
    subst hk'
    exact spells_unique hs hs'

/-- A setting that gives a word is not garbled. -/
theorem Gives.not_garbled (h : Gives lookup key dflt n) (v : String) : ¬ Garbled lookup key v := by
  rintro ⟨hk, hbad⟩
  rcases h with ⟨hk', -⟩ | ⟨w, hk', hs⟩
  · rw [hk] at hk'; cases hk'
  · rw [hk, Option.some.injEq] at hk'
    subst hk'
    exact hbad n hs

/-- A garbled setting is garbled with the text it is set to. -/
theorem Garbled.unique {v w : String} (hv : Garbled lookup key v) (hw : Garbled lookup key w) : v = w :=
  Option.some.inj (hv.1.symm.trans hw.1)

variable (lookup)

/-- How reading the geometry from `lookup` ends: the error for a garbled block size, carrying the
text as set; the error for a garbled region size once the block size reads; the two words,
each unset setting giving its default, once both read; and no other error. -/
structure ReadsSettings (res : Except Error Geometry) : Prop where
  blockGarbled : ∀ v, res = .error (.invalidConfig "DLC_BLOCK_SIZE" v) ↔ Garbled lookup "DLC_BLOCK_SIZE" v
  maxGarbled : ∀ v, res = .error (.invalidConfig "DLC_MAX_SIZE" v) ↔
    (∃ b, Gives lookup "DLC_BLOCK_SIZE" 262144 b) ∧ Garbled lookup "DLC_MAX_SIZE" v
  read : ∀ g, res = .ok g ↔
    Gives lookup "DLC_BLOCK_SIZE" 262144 g.blockSize ∧ Gives lookup "DLC_MAX_SIZE" 67108864 g.maxSize
  only : ∀ e, res = .error e → ∃ key v, e = .invalidConfig key v

theorem fromLookup_eq : fromLookup lookup =
    match setting lookup blockSizeKey defaultBlockSize with
    | .error e => .error e
    | .ok b =>
      match setting lookup maxSizeKey defaultMaxSize with
      | .error e => .error e
      | .ok m => .ok ⟨b, m⟩ := by
  unfold fromLookup
  cases setting lookup blockSizeKey defaultBlockSize <;> cases setting lookup maxSizeKey defaultMaxSize <;> rfl

/-- The two keys are different texts. -/
theorem blockSizeKey_ne : blockSizeKey ≠ maxSizeKey := by decide

variable {lookup}

/-- A garbled block size is the answer, whatever the region size. -/
theorem readsSettings_blockGarbled {v : String} (hv : Garbled lookup blockSizeKey v) :
    ReadsSettings lookup (.error (.invalidConfig blockSizeKey v)) := by
  refine ⟨fun w => ⟨fun h => ?_, fun hw => ?_⟩, fun w => ⟨fun h => ?_, fun ⟨⟨b, hgb⟩, _⟩ => ?_⟩,
    fun g => ⟨fun h => ?_, fun ⟨hgb, _⟩ => ?_⟩, fun _ h => ⟨_, _, (Except.error.inj h).symm⟩⟩
  · cases h; exact hv
  · rw [hv.unique hw]; rfl
  · exact absurd (Error.invalidConfig.inj (Except.error.inj h)).1 blockSizeKey_ne
  · exact absurd hv (hgb.not_garbled v)
  · cases h
  · exact absurd hv (hgb.not_garbled v)

/-- Once the block size reads, a garbled region size is the answer. -/
theorem readsSettings_maxGarbled {b : Nat} {v : String} (hgb : Gives lookup blockSizeKey defaultBlockSize b)
    (hv : Garbled lookup maxSizeKey v) : ReadsSettings lookup (.error (.invalidConfig maxSizeKey v)) := by
  refine ⟨fun w => ⟨fun h => ?_, fun hw => ?_⟩, fun w => ⟨fun h => ?_, fun ⟨_, hw⟩ => ?_⟩,
    fun g => ⟨fun h => ?_, fun ⟨_, hgm⟩ => ?_⟩, fun _ h => ⟨_, _, (Except.error.inj h).symm⟩⟩
  · exact absurd (Error.invalidConfig.inj (Except.error.inj h)).1.symm blockSizeKey_ne
  · exact absurd hw (hgb.not_garbled w)
  · cases h; exact ⟨⟨b, hgb⟩, hv⟩
  · rw [hv.unique hw]; rfl
  · cases h
  · exact absurd hv (hgm.not_garbled v)

/-- Once both read, the geometry holds the two words. -/
theorem readsSettings_read {b m : Nat} (hgb : Gives lookup blockSizeKey defaultBlockSize b)
    (hgm : Gives lookup maxSizeKey defaultMaxSize m) : ReadsSettings lookup (.ok ⟨b, m⟩) := by
  refine ⟨fun w => ⟨fun h => ?_, fun hw => ?_⟩, fun w => ⟨fun h => ?_, fun ⟨_, hw⟩ => ?_⟩,
    fun g => ⟨fun h => ?_, fun ⟨hgb', hgm'⟩ => ?_⟩, fun _ h => ?_⟩
  · cases h
  · exact absurd hw (hgb.not_garbled w)
  · cases h
  · exact absurd hw (hgm.not_garbled w)
  · cases h; exact ⟨hgb, hgm⟩
  · rw [hgb.unique hgb', hgm.unique hgm']
  · cases h

variable (lookup)

/-- For every pair of settings, the geometry is read as `ReadsSettings` says. -/
theorem fromLookup_readsSettings : ReadsSettings lookup (fromLookup lookup) := by
  rw [fromLookup_eq]
  cases hb : setting lookup blockSizeKey defaultBlockSize with
  | error e =>
    obtain ⟨v, hv, rfl⟩ := (setting_eq_error_iff lookup _ _ e).1 hb
    exact readsSettings_blockGarbled hv
  | ok b =>
    have hgb := (setting_eq_ok_iff lookup _ _ b).1 hb
    dsimp only
    cases hm : setting lookup maxSizeKey defaultMaxSize with
    | error e =>
      obtain ⟨v, hv, rfl⟩ := (setting_eq_error_iff lookup _ _ e).1 hm
      exact readsSettings_maxGarbled hgb hv
    | ok m => exact readsSettings_read hgb ((setting_eq_ok_iff lookup _ _ m).1 hm)

end Geometry

end ChunkRuntime
