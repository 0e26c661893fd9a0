import Mathlib
import ChunkRuntime.Proofs.JsonWords

/-! A snapshot as JSON text, for every snapshot and every text. A snapshot is written as an object
holding its fields in declaration order, `base`, `block_size`, `max_size`, `allocated`, each
number as its plain decimal numeral and the blocks in use as an array of numerals
(`Snapshot.encode_eq`). Reading that text gives the snapshot back when its numbers are words
(`Snapshot.decode_encode`); whatever a text reads as has words for numbers
(`Snapshot.decode_words`), so writing it and reading it again gives it back
(`Snapshot.decode_encode_of_decode`).

The text is read one field at a time by the reader of an object's fields: a word field's key,
colon and numeral (`readSnapshotFields_wordField`), the array of blocks in use
(`readSnapshotFields_allocatedField`), and the closing brace (`readSnapshotFields_close`). In
the place of the base, a JSON value is taken exactly when it is the numeral of a word with
blanks around it (`Snapshot.decode_textWithBase_eq_ok_iff`): where the reader of the base stops,
a comma must come next, and a value with a comma after it is not one JSON value. The laws are
gathered in `Snapshot.jsonLaws`. -/

namespace ChunkRuntime

namespace Json

/-! ### The written text -/

theorem intercalate_cons_eq (s a : String) (l : List String) :
    s.intercalate (a :: l) = a ++ String.join (l.map (s ++ ·)) := by
  induction l generalizing a with
  | nil => simp
  | cons b l ih =>
    rw [String.intercalate_cons_cons, ih, List.map_cons, String.join_cons, String.append_assoc,
      String.append_assoc]

/-- Array items after the first are each written after a comma. -/
theorem writeItems_nat_rest (acc : String) (l : List Nat) :
    Value.writeItems acc false (l.map Value.nat) =
      acc ++ String.join (l.map fun n => "," ++ toString n) := by
  induction l generalizing acc with
  | nil => simp [Value.writeItems]
  | cons n l ih =>
    simp only [List.map_cons, Value.writeItems, Value.writeTo, ih, String.join_cons,
      Bool.false_eq_true, if_false, String.push_eq_append, String.append_assoc]
    rfl

/-- An array of numbers is written as their numerals separated by commas. -/
theorem writeItems_nat (acc : String) (l : List Nat) :
    Value.writeItems acc true (l.map Value.nat) = acc ++ ",".intercalate (l.map toString) := by
  cases l with
  | nil => simp [Value.writeItems]
  | cons n l =>
    simp only [List.map_cons, Value.writeItems, Value.writeTo, if_true, writeItems_nat_rest,
      intercalate_cons_eq, List.map_map, String.append_assoc]
    rfl

end Json

namespace Snapshot

open Json

/-- The text of a snapshot with `v` written in the place of its base. -/
def textWithBase (s : Snapshot) (v : String) : String :=
  "\x7b\"base\":" ++ v ++ ",\"block_size\":" ++ toString s.blockSize ++ ",\"max_size\":" ++
    toString s.maxSize ++ ",\"allocated\":[" ++ ",".intercalate (s.allocated.map toString) ++ "]\x7d"

/-- A snapshot is written as an object of its fields in declaration order, each number as its
decimal numeral, the blocks in use as an array, and no blanks. -/
theorem encode_eq (s : Snapshot) : s.encode = s.textWithBase (toString s.base) := by
  rw [← String.toList_inj]
  simp [Snapshot.encode, Snapshot.toValue, Value.render, Value.writeTo, Value.writeFields,
    writeString, String.foldl_eq_foldl_toList, escapeChar, writeItems_nat, textWithBase]

/-- Every number of the snapshot fits a word, as the machine types of its fields require. -/
def Words (s : Snapshot) : Prop :=
  s.base ≤ maxWord ∧ s.blockSize ≤ maxWord ∧ s.maxSize ≤ maxWord ∧ ∀ n ∈ s.allocated, n ≤ maxWord

instance : DecidablePred Words := fun s =>
  inferInstanceAs (Decidable (s.base ≤ maxWord ∧ s.blockSize ≤ maxWord ∧ s.maxSize ≤ maxWord ∧
    ∀ n ∈ s.allocated, n ≤ maxWord))

end Snapshot

/-! ### The bytes of the text -/

namespace Json

theorem toUTF8_toList (s : String) : s.toUTF8.toList = s.toByteArray.data.toList := by
  rw [String.toUTF8_eq_toByteArray, ByteArray.toList_eq_data_toList]

theorem toUTF8_toList_append (a b : String) :
    (a ++ b).toUTF8.toList = a.toUTF8.toList ++ b.toUTF8.toList := by
  simp only [String.toUTF8_eq_toByteArray, String.toByteArray_append,
    ByteArray.toList_eq_data_toList, ByteArray.data_append, Array.toList_append]

/-- What stands before a field or an element: nothing before the first, a comma before the
others. -/
def comma (first : Bool) : List UInt8 := if first then [] else [44]

/-- The numerals of array items, each after its comma. -/
def itemBytes (first : Bool) : List Nat → List UInt8
  | [] => []
  | n :: l => comma first ++ numeral n ++ itemBytes false l

theorem join_comma_toUTF8 (l : List Nat) :
    (String.join (l.map fun n => "," ++ toString n)).toUTF8.toList = itemBytes false l := by
  induction l with
  | nil =>
    rw [List.map_nil, String.join_nil, toUTF8_toList]
    rfl
  | cons n l ih =>
    have hcomma : ",".toUTF8.toList = [44] := by
      rw [toUTF8_toList]
      decide
    rw [List.map_cons, String.join_cons, toUTF8_toList_append, toUTF8_toList_append, ih,
      toString_toUTF8, hcomma]
    rfl

theorem intercalate_toUTF8 (l : List Nat) :
    (",".intercalate (l.map toString)).toUTF8.toList = itemBytes true l := by
  cases l with
  | nil =>
    rw [List.map_nil, String.intercalate_nil, toUTF8_toList]
    rfl
  | cons n l =>
    rw [List.map_cons, intercalate_cons_eq, toUTF8_toList_append, toString_toUTF8, List.map_map]
    exact congrArg (numeral n ++ ·) (join_comma_toUTF8 l)

/-- A key as written before its value: quoted, then a colon. -/
def keyColon (k : String) : List UInt8 := 34 :: k.toUTF8.toList ++ [34, 58]

/-- The fields of a snapshot that hold a word, each read the same way. -/
inductive WordKey where
  | base
  | blockSize
  | maxSize

namespace WordKey

/-- The field's key in the text. -/
def name : WordKey → String
  | base => "base"
  | blockSize => "block_size"
  | maxSize => "max_size"

/-- How the field takes a negative number. -/
def kind : WordKey → WordKind
  | base => .address
  | blockSize => .usize
  | maxSize => .usize

/-- The field's value among those read so far. -/
def get : WordKey → SnapshotFields → Option Nat
  | base, f => f.base
  | blockSize, f => f.blockSize
  | maxSize, f => f.maxSize

/-- The fields read so far, with this one's value read. -/
def set : WordKey → SnapshotFields → Nat → SnapshotFields
  | base, f, v => { f with base := some v }
  | blockSize, f, v => { f with blockSize := some v }
  | maxSize, f, v => { f with maxSize := some v }

/-- A word field after the first, as written: its comma, key, colon and numeral. -/
def field (k : WordKey) (n : Nat) : List UInt8 := comma false ++ keyColon k.name ++ numeral n

end WordKey

/-- The field of the blocks in use, after the first, as written. -/
def allocatedField (l : List Nat) : List UInt8 :=
  comma false ++ keyColon "allocated" ++ 91 :: itemBytes true l ++ [93]

end Json

namespace Snapshot

open Json

/-- What a snapshot's text holds after its base and before its closing brace: the other
fields. -/
def tailBytes (s : Snapshot) : List UInt8 :=
  WordKey.blockSize.field s.blockSize ++ WordKey.maxSize.field s.maxSize ++ allocatedField s.allocated

theorem textWithBase_bytes (s : Snapshot) (v : String) :
    (s.textWithBase v).toUTF8.toList =
      123 :: keyColon "base" ++ v.toUTF8.toList ++ s.tailBytes ++ [125] := by
  have h1 : "\x7b\"base\":".toUTF8.toList = 123 :: keyColon "base" := by
    simp only [keyColon, toUTF8_toList]
    decide
  have h2 : ",\"block_size\":".toUTF8.toList = 44 :: keyColon "block_size" := by
    simp only [keyColon, toUTF8_toList]
    decide
  have h3 : ",\"max_size\":".toUTF8.toList = 44 :: keyColon "max_size" := by
    simp only [keyColon, toUTF8_toList]
    decide
  have h4 : ",\"allocated\":[".toUTF8.toList = 44 :: keyColon "allocated" ++ [91] := by
    simp only [keyColon, toUTF8_toList]
    decide
  have h5 : "]\x7d".toUTF8.toList = [93, 125] := by
    simp only [toUTF8_toList]
    decide
  simp only [textWithBase, toUTF8_toList_append, toString_toUTF8, intercalate_toUTF8, h1, h2, h3,
    h4, h5, tailBytes, WordKey.field, WordKey.name, allocatedField, comma]
  simp

end Snapshot

/-! ### Reading strings, punctuation and arrays of words -/

namespace Json

variable {st : Input}

theorem Blanks.nil : Blanks [] := by simp [Blanks]

theorem Input.rest_skip_length {P R : List UInt8} (h : st.rest = P ++ R) :
    (st.skip P.length).rest = R := by
  rw [Input.skip_rest, h, List.drop_left]

/-- What is still to be read is no longer than the text. -/
theorem Input.Fits.length_le {P R : List UInt8} (hfits : st.Fits) (h : st.rest = P ++ R) :
    P.length ≤ st.total := by
  have hlen : st.rest.length ≤ st.total := hfits
  rw [h, List.length_append] at hlen
  omega

/-- Bytes that stand for themselves inside a string: no quote, backslash or control byte. -/
def Plain (l : List UInt8) : Prop := ∀ b ∈ l, b ≠ 34 ∧ b ≠ 92 ∧ ¬b < 32

theorem readStringBytes_plain {kb r acc : List UInt8} {fuel : Nat} (h : st.rest = kb ++ 34 :: r)
    (hkb : Plain kb) (hfuel : kb.length < fuel) :
    (readStringBytes fuel acc).run st = .ok (kb.reverse ++ acc, st.skip (kb.length + 1)) := by
  obtain ⟨fuel, rfl⟩ : ∃ f, fuel = f + 1 := ⟨fuel - 1, by omega⟩
  induction kb generalizing fuel acc st with
  | nil =>
    rw [readStringBytes, run_bind_of_ok (peekByte_run st)]
    simp only [h, List.nil_append, List.head?_cons, beq_self_eq_true, if_true]
    rw [run_bind_of_ok (bump_run (h.trans (List.nil_append _)))]
    rfl
  | cons b kb ih =>
    obtain ⟨h34, h92, h32⟩ := hkb b List.mem_cons_self
    rw [readStringBytes, run_bind_of_ok (peekByte_run st)]
    simp only [h, List.cons_append, List.head?_cons, beq_iff_eq, h34, h92, h32, if_false]
    obtain ⟨f, rfl⟩ : ∃ f, fuel = f + 1 := ⟨fuel - 1, by simp at hfuel; omega⟩
    have hr : (st.skip 1).rest = kb ++ 34 :: r :=
      Input.rest_skip_length (P := [b]) (h.trans (List.cons_append ..))
    rw [run_bind_of_ok (bump_run (h.trans (List.cons_append ..))),
      ih hr (fun c hc => hkb c (List.mem_cons_of_mem b hc)) _ (by simp at hfuel; omega)]
    simp [Nat.add_comm 1, Nat.add_assoc]

/-- A string of plain bytes is read as the text they encode, its closing quote taken. -/
theorem readString_plain {k : String} {r : List UInt8} (h : st.rest = k.toUTF8.toList ++ 34 :: r)
    (hk : Plain k.toUTF8.toList) (hfits : st.Fits) :
    readString.run st = .ok (k, st.skip (k.toUTF8.toList.length + 1)) := by
  have hfuel : k.toUTF8.toList.length < st.total + 1 := Nat.lt_succ_of_le (hfits.length_le h)
  have hvalid : String.fromUTF8? k.toByteArray = some k := by
    simp only [String.fromUTF8?, k.isValidUTF8, dite_true]
    rfl
  unfold readString
  rw [run_bind_of_ok (budget_run st), run_bind_of_ok (readStringBytes_plain h hk hfuel),
    List.append_nil, List.reverse_reverse, toUTF8_toList, Array.toArray_toList]
  exact run_pure_eq_ok.2 ⟨by rw [hvalid]; rfl, rfl⟩

theorem Input.skip_append (st : Input) (P Q : List UInt8) :
    (st.skip P.length).skip Q.length = st.skip (P ++ Q).length := by
  rw [Input.skip_skip, List.length_append]

/-- Blanks, then a byte that is not one: the blanks are skipped and the byte looked at. -/
theorem skipBlank_run_cons {pre r : List UInt8} {b : UInt8} (h : st.rest = pre ++ b :: r)
    (hpre : Blanks pre) (hb : isJsonBlank b = false) :
    skipBlank.run st = .ok (some b, st.skip pre.length) :=
  skipBlank_run_append h hpre fun c hc => by cases hc; exact hb

/-- A comma taken with no blanks after it: the byte after it is looked at. -/
theorem skipBlank_after_comma {pre r : List UInt8} {b : UInt8} (h : st.rest = pre ++ 44 :: b :: r)
    (hb : isJsonBlank b = false) :
    skipBlank.run ((st.skip pre.length).skip 1) = .ok (some b, (st.skip pre.length).skip 1) :=
  skipBlank_run_cons (Input.rest_skip_length (P := [44]) (Input.rest_skip_length h)) Blanks.nil hb

/-- A quoted key whose bytes are plain, its quotes taken. -/
theorem quotedKey_run {k : String} {r : List UInt8} (hfits : st.Fits)
    (hk : Plain k.toUTF8.toList) (h : st.rest = 34 :: k.toUTF8.toList ++ 34 :: r) :
    (do bump; let key ← readString; pure (some key) : Read (Option String)).run st =
      .ok (some k, st.skip (34 :: k.toUTF8.toList ++ [34]).length) := by
  have hr : (st.skip 1).rest = k.toUTF8.toList ++ 34 :: r := Input.rest_skip_length (P := [34]) h
  rw [run_bind_of_ok (bump_run h), run_bind_of_ok (readString_plain hr hk (hfits.skip 1)),
    Input.skip_skip]
  simp only [List.cons_append, List.length_cons, List.length_append, List.length_nil]
  rw [Nat.add_comm 1, Nat.add_assoc]
  rfl

/-- The key of a field, after blanks and the comma of a field that is not the first. -/
theorem nextKey_key {first : Bool} {pre r : List UInt8} {k : String} (hfits : st.Fits)
    (hpre : Blanks pre) (hk : Plain k.toUTF8.toList)
    (h : st.rest = pre ++ comma first ++ 34 :: k.toUTF8.toList ++ 34 :: r) :
    (nextKey first).run st =
      .ok (some k, st.skip (pre ++ comma first ++ 34 :: k.toUTF8.toList ++ [34]).length) := by
  have hkey : (st.skip (pre ++ comma first).length).rest = 34 :: k.toUTF8.toList ++ 34 :: r :=
    Input.rest_skip_length (by rw [h, List.append_assoc (pre ++ comma first)])
  have hread := quotedKey_run (hfits.skip _) hk hkey
  rw [Input.skip_append, ← List.append_assoc] at hread
  unfold nextKey
  cases first with
  | true =>
    have hat : st.rest = pre ++ 34 :: (k.toUTF8.toList ++ 34 :: r) := by simp [h, comma]
    rw [run_bind_of_ok (skipBlank_run_cons hat hpre (by decide))]
    simp +decide only [if_true, pure_bind]
    simpa [comma] using hread
  | false =>
    -- the comma is taken, then the blanks after it, of which there are none
    have hat : st.rest = pre ++ 44 :: 34 :: (k.toUTF8.toList ++ 34 :: r) := by simp [h, comma]
    rw [run_bind_of_ok (skipBlank_run_cons hat hpre (by decide))]
    simp +decide only [if_false, pure_bind]
    rw [run_bind_of_ok (bump_run (Input.rest_skip_length hat)),
      run_bind_of_ok (skipBlank_after_comma hat (by decide))]
    simp +decide only [Input.skip_skip]
    simpa [comma] using hread

/-- The closing brace ends the keys, and is not taken. -/
theorem nextKey_close {first : Bool} {pre r : List UInt8} (hpre : Blanks pre)
    (h : st.rest = pre ++ 125 :: r) : (nextKey first).run st = .ok (none, st.skip pre.length) := by
  unfold nextKey
  rw [run_bind_of_ok (skipBlank_run_cons h hpre (by decide))]
  rfl

theorem expectColon_run {pre r : List UInt8} (hpre : Blanks pre) (h : st.rest = pre ++ 58 :: r) :
    expectColon.run st = .ok ((), st.skip (pre.length + 1)) := by
  unfold expectColon
  rw [run_bind_of_ok (skipBlank_run_cons h hpre (by decide)), ← Input.skip_skip]
  exact bump_run (Input.rest_skip_length h)

theorem endMap_run {pre r : List UInt8} (hpre : Blanks pre) (h : st.rest = pre ++ 125 :: r) :
    endMap.run st = .ok (.ok (), st.skip (pre.length + 1)) := by
  unfold endMap
  rw [run_bind_of_ok (skipBlank_run_cons h hpre (by decide))]
  simp +decide only
  rw [run_bind_of_ok (bump_run (Input.rest_skip_length h)), Input.skip_skip]
  rfl

theorem endSeq_run {pre r : List UInt8} (hpre : Blanks pre) (h : st.rest = pre ++ 93 :: r) :
    endSeq.run st = .ok (.ok (), st.skip (pre.length + 1)) := by
  unfold endSeq
  rw [run_bind_of_ok (skipBlank_run_cons h hpre (by decide))]
  simp +decide only
  rw [run_bind_of_ok (bump_run (Input.rest_skip_length h)), Input.skip_skip]
  rfl

theorem nextElement_close {first : Bool} {pre r : List UInt8} (hpre : Blanks pre)
    (h : st.rest = pre ++ 93 :: r) : (nextElement first).run st = .ok (false, st.skip pre.length) := by
  unfold nextElement
  rw [run_bind_of_ok (skipBlank_run_cons h hpre (by decide))]
  rfl

theorem nextElement_item {first : Bool} {pre r : List UInt8} {b : UInt8} {d : Nat}
    (hpre : Blanks pre) (hb : digitValue b = some d) (h : st.rest = pre ++ comma first ++ b :: r) :
    (nextElement first).run st = .ok (true, st.skip (pre ++ comma first).length) := by
  have h93 : b ≠ 93 := ne_of_digitValue hb rfl
  unfold nextElement
  cases first with
  | true =>
    have h44 : b ≠ 44 := ne_of_digitValue hb rfl
    rw [run_bind_of_ok (skipBlank_run_cons (by simpa [comma] using h) hpre
      (isJsonBlank_of_digitValue hb))]
    split
    case h_1 heq => exact absurd (Option.some.inj heq) h93
    case h_2 heq => exact absurd (Option.some.inj heq) h44
    case h_3 => simp [comma]; rfl
    case h_4 heq => cases heq
  | false =>
    -- the comma is taken, then the blanks after it, of which there are none
    have hat : st.rest = pre ++ 44 :: b :: r := by simpa [comma] using h
    rw [run_bind_of_ok (skipBlank_run_cons hat hpre (by decide))]
    simp +decide only [if_false]
    rw [run_bind_of_ok (bump_run (Input.rest_skip_length hat)),
      run_bind_of_ok (skipBlank_after_comma hat (isJsonBlank_of_digitValue hb))]
    split
    case h_1 heq => exact absurd (Option.some.inj heq) h93
    case h_2 => simp [comma]; rfl
    case h_3 heq => cases heq

/-- A byte after which a number cannot go on. -/
theorem numberEnd_cons {b : UInt8} (hb : b = 44 ∨ b = 93 ∨ b = 125) (r : List UInt8) :
    NumberEnd (b :: r) := by
  rintro c ⟨⟩
  rcases hb with rfl | rfl | rfl <;> decide

theorem numberEnd_itemBytes (l : List Nat) (r : List UInt8) :
    NumberEnd (itemBytes false l ++ 93 :: r) := by
  cases l with
  | nil => exact numberEnd_cons (by simp) r
  | cons n l => exact numberEnd_cons (by simp) _

/-- Blanks cannot continue a number either. -/
theorem NumberEnd.blanks_append {post R : List UInt8} (hpost : Blanks post) (hR : NumberEnd R) :
    NumberEnd (post ++ R) := by
  cases post with
  | nil => exact hR
  | cons c post =>
    rintro b ⟨⟩
    have hc := isJsonBlank_eq_true_iff.1 (hpost c List.mem_cons_self)
    refine ⟨digitValue_eq_none_iff.2 (by omega), ?_, ?_, ?_⟩ <;> rintro rfl <;> revert hc <;> decide

/-- The numeral of a word after blanks, where the number cannot go on, read by a word field. -/
theorem readWordField_numeral (k : WordKind) {pre r : List UInt8} {n : Nat} (hfits : st.Fits)
    (hpre : Blanks pre) (h : st.rest = pre ++ numeral n ++ r) (hn : n ≤ maxWord)
    (hr : NumberEnd r) : (readWordField k).run st = .ok (n, st.skip (pre ++ numeral n).length) := by
  have hrest : (st.skip (pre ++ numeral n).length).rest = r := Input.rest_skip_length h
  refine (readWordField_eq_ok_iff k hfits).2 ⟨pre, hpre, ?_, hn, hrest ▸ hr, rfl⟩
  rw [hrest, h]

/-- The items of an array of words, up to its closing bracket. -/
theorem readWordItems_itemBytes {first : Bool} {l acc : List Nat} {r : List UInt8} {fuel : Nat}
    (hfits : st.Fits) (hl : ∀ n ∈ l, n ≤ maxWord) (hfuel : l.length < fuel)
    (h : st.rest = itemBytes first l ++ 93 :: r) :
    (readWordItems fuel first acc).run st =
      .ok (l.reverse ++ acc, st.skip (itemBytes first l).length) := by
  induction l generalizing first acc fuel st with
  | nil =>
    obtain ⟨f, rfl⟩ : ∃ f, fuel = f + 1 := ⟨fuel - 1, by omega⟩
    rw [readWordItems, run_bind_of_ok (nextElement_close Blanks.nil h)]
    rfl
  | cons n l ih =>
    obtain ⟨b, ds, d, hnum, hb⟩ := numeral_eq_cons n
    have hat : st.rest = [] ++ comma first ++ b :: (ds ++ itemBytes false l ++ 93 :: r) := by
      simp [h, itemBytes, hnum]
    have hword : (st.skip ([] ++ comma first).length).rest =
        [] ++ numeral n ++ (itemBytes false l ++ 93 :: r) :=
      Input.rest_skip_length (by simp [h, itemBytes])
    have hread := readWordField_numeral .usize (hfits.skip _) Blanks.nil hword
      (hl n List.mem_cons_self) (numberEnd_itemBytes l r)
    have hnext : ((st.skip ([] ++ comma first).length).skip ([] ++ numeral n).length).rest =
        itemBytes false l ++ 93 :: r := Input.rest_skip_length hword
    obtain ⟨f, rfl⟩ : ∃ f, fuel = f + 1 := ⟨fuel - 1, by simp at hfuel; omega⟩
    rw [readWordItems, run_bind_of_ok (nextElement_item Blanks.nil hb hat), if_pos rfl,
      run_bind_of_ok hread, ih ((hfits.skip _).skip _) (fun m hm => hl m (List.mem_cons_of_mem n hm))
        (by simp at hfuel; omega) hnext]
    simp [itemBytes, Nat.add_assoc]

theorem length_le_itemBytes (first : Bool) (l : List Nat) : l.length ≤ (itemBytes first l).length := by
  induction l generalizing first with
  | nil => simp [itemBytes]
  | cons n l ih =>
    have hn := List.length_pos_of_ne_nil (numeral_ne_nil n)
    simp only [itemBytes, List.length_append, List.length_cons]
    have := ih false
    omega

/-- An array of words, written without blanks, read whole. -/
theorem readWordList_itemBytes {l : List Nat} {r : List UInt8} (hfits : st.Fits)
    (hl : ∀ n ∈ l, n ≤ maxWord) (h : st.rest = 91 :: itemBytes true l ++ 93 :: r) :
    readWordList.run st = .ok (l, st.skip (91 :: itemBytes true l ++ [93]).length) := by
  have hitems : (st.skip 1).rest = itemBytes true l ++ 93 :: r :=
    Input.rest_skip_length (P := [91]) h
  have hend : ((st.skip 1).skip (itemBytes true l).length).rest = [] ++ 93 :: r :=
    Input.rest_skip_length hitems
  -- every item has a byte, so the budget is enough
  have hfuel : l.length < (st.skip 1).total + 1 := by
    have hbytes := hfits.length_le (P := 91 :: itemBytes true l) h
    rw [List.length_cons] at hbytes
    have := length_le_itemBytes true l
    rw [Input.skip_total]
    omega
  unfold readWordList
  rw [run_bind_of_ok (skipBlank_run_cons (h.trans (List.nil_append _).symm) Blanks.nil (by decide))]
  simp +decide only [List.length_nil, Input.skip_zero]
  rw [run_bind_of_ok (bump_run h), run_bind_of_ok (budget_run _),
    run_bind_of_ok (readWordItems_itemBytes (hfits.skip 1) hl hfuel hitems),
    run_bind_of_ok (endSeq_run Blanks.nil hend)]
  simp only [closing, List.reverse_reverse, List.append_nil, Input.skip_skip, List.length_nil]
  exact congrArg (fun n => Except.ok (l, st.skip n)) (by simp; omega)

theorem WordKey.plain_name (k : WordKey) : Plain k.name.toUTF8.toList := by
  cases k <;> simp only [WordKey.name, Plain, toUTF8_toList] <;> decide +kernel

/-- Nothing but blanks is left. -/
theorem expectEnd_run {pre : List UInt8} (hpre : Blanks pre) (h : st.rest = pre) :
    expectEnd.run st = .ok ((), st.skip pre.length) := by
  unfold expectEnd
  rw [run_bind_of_ok (skipBlank_run_append (r := []) (by rw [h, List.append_nil]) hpre
    (fun _ hb => by cases hb))]
  rfl

/-! ### Reading the fields -/

variable {first : Bool} {f : SnapshotFields} {pre r : List UInt8} {fuel : Nat}

/-- A plain key and its colon, taken: the value of its field comes next. -/
theorem nextKey_expectColon {k : String} (hfits : st.Fits) (hpre : Blanks pre)
    (hk : Plain k.toUTF8.toList) (h : st.rest = pre ++ comma first ++ keyColon k ++ r) :
    ∃ st', (nextKey first).run st = .ok (some k, st') ∧
      expectColon.run st' = .ok ((), st.skip (pre ++ comma first ++ keyColon k).length) := by
  have hkey : st.rest = pre ++ comma first ++ 34 :: k.toUTF8.toList ++ 34 :: 58 :: r := by
    simp [h, keyColon]
  have hat : (st.skip (pre ++ comma first ++ 34 :: k.toUTF8.toList ++ [34]).length).rest =
      [] ++ 58 :: r := Input.rest_skip_length (by simp [hkey])
  refine ⟨_, nextKey_key hfits hpre hk hkey, ?_⟩
  rw [expectColon_run Blanks.nil hat, List.length_nil, Nat.zero_add, Input.skip_skip]
  simp only [keyColon, List.length_append, List.length_cons, List.length_nil]
  exact congrArg (fun n => Except.ok ((), st.skip n)) (by omega)

/-- A word field not read before: its key and colon are taken, then its value is read. -/
theorem readSnapshotFields_word (k : WordKey) (hfits : st.Fits) (hpre : Blanks pre)
    (hfree : k.get f = none) (h : st.rest = pre ++ comma first ++ keyColon k.name ++ r) :
    (readSnapshotFields (fuel + 1) first f).run st =
      (readWordField k.kind >>= fun v => readSnapshotFields fuel false (k.set f v)).run
        (st.skip (pre ++ comma first ++ keyColon k.name).length) := by
  obtain ⟨st', hkey, hcolon⟩ := nextKey_expectColon hfits hpre k.plain_name h
  rw [readSnapshotFields, run_bind_of_ok hkey]
  -- the key is compared with each field's name in turn
  cases k <;> simp only [WordKey.get] at hfree <;>
    simp +decide only [WordKey.name, WordKey.kind, WordKey.set, hfree, Option.isSome_none,
      ↓reduceIte] at hcolon ⊢ <;>
    rw [run_bind_of_ok hcolon]

/-- The field of the blocks in use, not read before: its key and colon are taken, then its
array is read. -/
theorem readSnapshotFields_allocated (hfits : st.Fits) (hpre : Blanks pre)
    (hfree : f.allocated = none) (h : st.rest = pre ++ comma first ++ keyColon "allocated" ++ r) :
    (readSnapshotFields (fuel + 1) first f).run st =
      (readWordList >>= fun v => readSnapshotFields fuel false { f with allocated := some v }).run
        (st.skip (pre ++ comma first ++ keyColon "allocated").length) := by
  have hk : Plain "allocated".toUTF8.toList := by
    simp only [Plain, toUTF8_toList]
    decide +kernel
  obtain ⟨st', hkey, hcolon⟩ := nextKey_expectColon hfits hpre hk h
  rw [readSnapshotFields, run_bind_of_ok hkey]
  simp +decide only [hfree, Option.isSome_none, ↓reduceIte]
  rw [run_bind_of_ok hcolon]

/-- The closing brace ends the fields: the snapshot is what the fields read make. -/
theorem readSnapshotFields_close (hpre : Blanks pre) (h : st.rest = pre ++ 125 :: r) :
    (readSnapshotFields (fuel + 1) first f).run st = .ok (f.finish, st.skip pre.length) := by
  rw [readSnapshotFields, run_bind_of_ok (nextKey_close hpre h)]
  rfl

/-- A word field after the first, holding the numeral of a word, read whole. -/
theorem readSnapshotFields_wordField (k : WordKey) {n : Nat} (hfits : st.Fits) (hpre : Blanks pre)
    (hfree : k.get f = none) (hn : n ≤ maxWord) (hr : NumberEnd r)
    (h : st.rest = pre ++ k.field n ++ r) :
    (readSnapshotFields (fuel + 1) false f).run st =
      (readSnapshotFields fuel false (k.set f n)).run (st.skip (pre ++ k.field n).length) := by
  have hkey : st.rest = pre ++ comma false ++ keyColon k.name ++ (numeral n ++ r) := by
    simp [h, WordKey.field]
  have hval : (st.skip (pre ++ comma false ++ keyColon k.name).length).rest =
      [] ++ numeral n ++ r := Input.rest_skip_length (by simp [hkey])
  rw [readSnapshotFields_word k hfits hpre hfree hkey,
    run_bind_of_ok (readWordField_numeral k.kind (hfits.skip _) Blanks.nil hval hn hr),
    Input.skip_append]
  simp [WordKey.field]

/-- The field of the blocks in use after the first, an array of words, read whole. -/
theorem readSnapshotFields_allocatedField {l : List Nat} (hfits : st.Fits) (hpre : Blanks pre)
    (hfree : f.allocated = none) (hl : ∀ n ∈ l, n ≤ maxWord)
    (h : st.rest = pre ++ allocatedField l ++ r) :
    (readSnapshotFields (fuel + 1) false f).run st =
      (readSnapshotFields fuel false { f with allocated := some l }).run
        (st.skip (pre ++ allocatedField l).length) := by
  have hkey : st.rest = pre ++ comma false ++ keyColon "allocated" ++
      (91 :: itemBytes true l ++ 93 :: r) := by
    simp [h, allocatedField]
  have hval : (st.skip (pre ++ comma false ++ keyColon "allocated").length).rest =
      91 :: itemBytes true l ++ 93 :: r := Input.rest_skip_length hkey
  rw [readSnapshotFields_allocated hfits hpre hfree hkey,
    run_bind_of_ok (readWordList_itemBytes (hfits.skip _) hl hval), Input.skip_append]
  simp [allocatedField]

end Json

/-! ### Reading a snapshot's text -/

namespace Snapshot

open Json

variable {st : Input} {s : Snapshot} {pre r : List UInt8} {fuel : Nat}

/-- The fields after the base, read whole up to the closing brace. -/
theorem readSnapshotFields_tail (hs : s.Words) (b : Nat) (hfits : st.Fits) (hpre : Blanks pre)
    (h : st.rest = pre ++ s.tailBytes ++ 125 :: r) :
    (readSnapshotFields (fuel + 4) false { base := some b }).run st =
      .ok (.ok { s with base := b }, st.skip (pre ++ s.tailBytes).length) := by
  obtain ⟨-, hbs, hms, hl⟩ := hs
  -- each field begins with a comma, where a number cannot go on
  have hend : ∀ k n R, NumberEnd (WordKey.field k n ++ R) := fun _ _ _ => numberEnd_cons (by simp) _
  have h1 : st.rest = pre ++ WordKey.blockSize.field s.blockSize ++
      (WordKey.maxSize.field s.maxSize ++ (allocatedField s.allocated ++ 125 :: r)) := by
    simp [h, tailBytes]
  have h2 : (st.skip (pre ++ WordKey.blockSize.field s.blockSize).length).rest =
      WordKey.maxSize.field s.maxSize ++ (allocatedField s.allocated ++ 125 :: r) :=
    Input.rest_skip_length (by simp [h1])
  have h3 := Input.rest_skip_length h2
  have h4 := Input.rest_skip_length h3
  rw [readSnapshotFields_wordField .blockSize hfits hpre rfl hbs (hend _ _ _) h1,
    readSnapshotFields_wordField .maxSize (hfits.skip _) Blanks.nil rfl hms
      (numberEnd_cons (by simp) _) h2, List.nil_append,
    readSnapshotFields_allocatedField ((hfits.skip _).skip _) Blanks.nil rfl hl h3,
    List.nil_append, readSnapshotFields_close Blanks.nil h4]
  simp only [Input.skip_skip, tailBytes, List.length_append, List.length_nil]
  exact congrArg (fun n => Except.ok (Except.ok _, st.skip n)) (by omega)

/-- An object's opening brace: the snapshot's fields are read, then its closing brace. -/
theorem readSnapshot_brace (h : st.rest = 123 :: r) :
    readSnapshot.run st = (do
      let fields ← readSnapshotFields (st.total + 1) true {}
      closing fields (← endMap)).run (st.skip 1) := by
  unfold readSnapshot
  rw [run_bind_of_ok (skipBlank_run_cons (h.trans (List.nil_append _).symm) Blanks.nil
    (by decide))]
  simp +decide only [List.length_nil, Input.skip_zero]
  rw [run_bind_of_ok (bump_run h), run_bind_of_ok (budget_run _)]
  rfl

/-- The fields of a snapshot's text with the numeral of a word, blanks around it, in the place
of the base, read whole up to the closing brace. -/
theorem readSnapshotFields_base (hs : s.Words) {gap post : List UInt8} {n : Nat}
    (hgap : Blanks gap) (hpost : Blanks post) (hn : n ≤ maxWord) (hfits : st.Fits)
    (h : st.rest = keyColon "base" ++ (gap ++ numeral n ++ (post ++ (s.tailBytes ++ 125 :: r)))) :
    (readSnapshotFields (fuel + 4 + 1) true {}).run st = .ok (.ok { s with base := n },
      st.skip (keyColon "base" ++ gap ++ numeral n ++ post ++ s.tailBytes).length) := by
  have h1 : st.rest = [] ++ comma true ++ keyColon WordKey.base.name ++
      (gap ++ numeral n ++ (post ++ (s.tailBytes ++ 125 :: r))) := h
  have h2 := Input.rest_skip_length h1
  have h3 := Input.rest_skip_length h2
  -- the base's numeral ends at blanks or at the comma of the next field
  rw [readSnapshotFields_word .base hfits Blanks.nil rfl h1,
    run_bind_of_ok (readWordField_numeral WordKey.base.kind (hfits.skip _) hgap h2 hn
      (NumberEnd.blanks_append hpost (numberEnd_cons (by simp) _))),
    show WordKey.base.set {} n = { base := some n } from rfl,
    readSnapshotFields_tail hs n ((hfits.skip _).skip _) hpost
      (h3.trans (List.append_assoc ..).symm)]
  simp only [Input.skip_skip]
  exact congrArg (fun k => Except.ok (Except.ok _, st.skip k)) (by simp [comma, WordKey.name]; omega)

/-- A snapshot's text with the numeral of a word, blanks around it, in the place of the base,
is read whole as the snapshot with that base. -/
theorem readSnapshot_textWithBase (hs : s.Words) {v : String} {gap post : List UInt8} {n : Nat}
    (hgap : Blanks gap) (hpost : Blanks post) (hn : n ≤ maxWord)
    (hv : v.toUTF8.toList = gap ++ numeral n ++ post) (hfits : st.Fits)
    (h : st.rest = (s.textWithBase v).toUTF8.toList ++ r) :
    readSnapshot.run st =
      .ok ({ s with base := n }, st.skip (s.textWithBase v).toUTF8.toList.length) := by
  have hbytes : (s.textWithBase v).toUTF8.toList =
      123 :: keyColon "base" ++ gap ++ numeral n ++ post ++ s.tailBytes ++ [125] := by
    rw [textWithBase_bytes, hv]
    simp
  have h0 : st.rest = 123 :: (keyColon "base" ++ (gap ++ numeral n ++
      (post ++ (s.tailBytes ++ 125 :: r)))) := by
    rw [h, hbytes]
    simp
  have hfields : (st.skip 1).rest = keyColon "base" ++ (gap ++ numeral n ++
      (post ++ (s.tailBytes ++ 125 :: r))) := Input.rest_skip_length (P := [123]) h0
  have hclose : ((st.skip 1).skip
      (keyColon "base" ++ gap ++ numeral n ++ post ++ s.tailBytes).length).rest = [] ++ 125 :: r :=
    Input.rest_skip_length (by rw [hfields]; simp)
  -- the budget leaves a step for each field and one for the closing brace
  obtain ⟨fuel, hfuel⟩ : ∃ f, st.total + 1 = f + 4 + 1 := by
    have hlen := hfits.length_le (P := 123 :: keyColon "base") h0
    simp only [keyColon, List.length_cons, List.length_append] at hlen
    exact ⟨st.total - 4, by omega⟩
  rw [readSnapshot_brace h0, hfuel,
    run_bind_of_ok (readSnapshotFields_base hs hgap hpost hn (hfits.skip 1) hfields),
    run_bind_of_ok (endMap_run Blanks.nil hclose)]
  simp only [closing, Input.skip_skip]
  exact congrArg (fun k => Except.ok (_, st.skip k)) (by rw [hbytes]; simp; omega)

/-- A text is read as a snapshot exactly when the reader of a snapshot, then of the end of
the text, runs through it. -/
theorem decode_eq_ok_iff {text : String} :
    decode text = .ok s ↔ ∃ st',
      (do let s ← readSnapshot; expectEnd; return s : Read Snapshot).run
        ⟨text.toUTF8.toList, 0, text.toUTF8.toList.length⟩ = .ok (s, st') := by
  unfold decode Read.run'
  dsimp only
  rcases hr : (do let s ← readSnapshot; expectEnd; return s : Read Snapshot).run
      ⟨text.toUTF8.toList, 0, text.toUTF8.toList.length⟩ with e | ⟨a, st'⟩
  · simp [Except.map, Except.mapError]
  · simp [Except.map, Except.mapError, eq_comm]

/-- A snapshot's text with the numeral of a word, blanks around it, in the place of the base,
reads as the snapshot with that base. -/
theorem decode_textWithBase_numeral (hs : s.Words) {v : String} {gap post : List UInt8} {n : Nat}
    (hgap : Blanks gap) (hpost : Blanks post) (hn : n ≤ maxWord)
    (hv : v.toUTF8.toList = gap ++ numeral n ++ post) :
    decode (s.textWithBase v) = .ok { s with base := n } := by
  apply decode_eq_ok_iff.2
  apply Exists.intro
  have hread : readSnapshot.run ⟨(s.textWithBase v).toUTF8.toList, 0,
      (s.textWithBase v).toUTF8.toList.length⟩ = _ :=
    readSnapshot_textWithBase hs hgap hpost hn hv (r := []) (le_refl _) (List.append_nil _).symm
  rw [run_bind_of_ok hread, run_bind_of_ok (expectEnd_run Blanks.nil
    (Input.rest_skip_length (List.append_nil _).symm))]
  rfl

/-- A snapshot whose numbers are words is read back from its text. -/
theorem decode_encode (hs : s.Words) : decode s.encode = .ok s := by
  have hv : (toString s.base).toUTF8.toList = [] ++ numeral s.base ++ [] := by
    rw [toString_toUTF8, List.nil_append, List.append_nil]
  rw [encode_eq, decode_textWithBase_numeral hs Blanks.nil Blanks.nil hs.1 hv]

end Snapshot

/-! ### Whatever a text reads as holds words -/

namespace Json

/-- The fields read so far hold words. -/
def SnapshotFields.Words (f : SnapshotFields) : Prop :=
  (∀ n ∈ f.base, n ≤ maxWord) ∧ (∀ n ∈ f.blockSize, n ≤ maxWord) ∧
    (∀ n ∈ f.maxSize, n ≤ maxWord) ∧ ∀ l ∈ f.allocated, ∀ n ∈ l, n ≤ maxWord

namespace SnapshotFields.Words

variable {f : SnapshotFields}

theorem empty : ({} : SnapshotFields).Words := by
  simp [SnapshotFields.Words]

theorem set (k : WordKey) (hf : f.Words) {v : Nat} (hv : v ≤ maxWord) : (k.set f v).Words := by
  obtain ⟨hb, hbs, hms, hl⟩ := hf
  have hv' : ∀ n ∈ some v, n ≤ maxWord := fun n hn => by cases hn; exact hv
  cases k
  · exact ⟨hv', hbs, hms, hl⟩
  · exact ⟨hb, hv', hms, hl⟩
  · exact ⟨hb, hbs, hv', hl⟩

theorem setAllocated (hf : f.Words) {l : List Nat} (hl : ∀ n ∈ l, n ≤ maxWord) :
    ({ f with allocated := some l } : SnapshotFields).Words :=
  ⟨hf.1, hf.2.1, hf.2.2.1, fun l' hl' => by cases hl'; exact hl⟩

/-- The snapshot that fields holding words make holds words. -/
theorem finish (hf : f.Words) {s : Snapshot} (h : f.finish = .ok s) : s.Words := by
  obtain ⟨hb, hbs, hms, hl⟩ := hf
  rcases f with ⟨_ | b, _ | bs, _ | ms, _ | l⟩ <;>
    simp only [SnapshotFields.finish, reduceCtorEq] at h
  cases h
  exact ⟨hb b rfl, hbs bs rfl, hms ms rfl, hl l rfl⟩

end SnapshotFields.Words

variable {α : Type}

/-- A container's value is given back only when its reader found no problem. -/
theorem closing_yields (r : Except Problem α) (e : Except ReadError Unit) :
    Yields (closing r e) (fun a => r = .ok a) := by
  unfold closing
  split
  · exact Yields.failHere _ _
  · intro st a st' h
    cases h
  · exact Yields.pure rfl

theorem readWordItems_words (fuel : Nat) (first : Bool) {acc : List Nat}
    (hacc : ∀ n ∈ acc, n ≤ maxWord) :
    Yields (readWordItems fuel first acc) (fun l => ∀ n ∈ l, n ≤ maxWord) := by
  induction fuel generalizing first acc with
  | zero => exact Yields.pure hacc
  | succ fuel ih =>
    rw [readWordItems]
    refine Yields.bind_of_forall fun more => ?_
    split
    · exact (readWordField_le .usize).bind fun n hn =>
        ih false (List.forall_mem_cons.2 ⟨hn, hacc⟩)
    · exact Yields.pure hacc

theorem readWordList_words : Yields readWordList (fun l => ∀ n ∈ l, n ≤ maxWord) := by
  unfold readWordList
  refine Yields.bind_of_forall fun o => ?_
  split
  · exact Yields.failAhead _ _
  · refine Yields.bind_of_forall fun _ => Yields.bind_of_forall fun fuel =>
      (readWordItems_words fuel true (by simp)).bind fun items hitems =>
        Yields.bind_of_forall fun e => (closing_yields _ e).mono fun a ha => ?_
    cases ha
    simpa using hitems
  · exact invalidType_yields _ _

theorem readSnapshotFields_words (fuel : Nat) (first : Bool) {f : SnapshotFields} (hf : f.Words) :
    Yields (readSnapshotFields fuel first f) (fun r => ∀ s, r = .ok s → s.Words) := by
  induction fuel generalizing first f with
  | zero => exact Yields.pure fun s h => hf.finish h
  | succ fuel ih =>
    rw [readSnapshotFields]
    refine Yields.bind_of_forall fun key => ?_
    split
    · exact Yields.pure fun s h => hf.finish h
    -- a field read twice is refused; each field read adds its value to the fields
    · split_ifs
      · exact Yields.pure fun _ h => by cases h
      · exact Yields.bind_of_forall fun _ => (readWordField_le _).bind fun v hv =>
          ih false (hf.set .base hv)
      · exact Yields.pure fun _ h => by cases h
      · exact Yields.bind_of_forall fun _ => (readWordField_le _).bind fun v hv =>
          ih false (hf.set .blockSize hv)
      · exact Yields.pure fun _ h => by cases h
      · exact Yields.bind_of_forall fun _ => (readWordField_le _).bind fun v hv =>
          ih false (hf.set .maxSize hv)
      · exact Yields.pure fun _ h => by cases h
      · exact Yields.bind_of_forall fun _ => readWordList_words.bind fun l hl =>
          ih false (hf.setAllocated hl)
      · exact Yields.bind_of_forall fun _ => Yields.bind_of_forall fun _ => ih false hf

theorem readSnapshotItems_words :
    Yields readSnapshotItems (fun r => ∀ s, r = .ok s → s.Words) := by
  unfold readSnapshotItems
  refine Yields.bind_of_forall fun _ => ?_
  split
  · exact Yields.pure fun _ h => by cases h
  refine (readWordField_le _).bind fun b hb => Yields.bind_of_forall fun _ => ?_
  split
  · exact Yields.pure fun _ h => by cases h
  refine (readWordField_le _).bind fun bs hbs => Yields.bind_of_forall fun _ => ?_
  split
  · exact Yields.pure fun _ h => by cases h
  refine (readWordField_le _).bind fun ms hms => Yields.bind_of_forall fun _ => ?_
  split
  · exact Yields.pure fun _ h => by cases h
  refine readWordList_words.bind fun l hl => Yields.pure ?_
  rintro s ⟨⟩
  exact ⟨hb, hbs, hms, hl⟩

/-- Whatever the reader of a snapshot gives, as an object or an array, holds words. -/
theorem readSnapshot_words : Yields readSnapshot Snapshot.Words := by
  unfold readSnapshot
  refine Yields.bind_of_forall fun o => ?_
  split
  · exact Yields.failAhead _ _
  · exact Yields.bind_of_forall fun _ => Yields.bind_of_forall fun fuel =>
      (readSnapshotFields_words fuel true SnapshotFields.Words.empty).bind fun r hr =>
        Yields.bind_of_forall fun e => (closing_yields r e).mono hr
  · exact Yields.bind_of_forall fun _ => readSnapshotItems_words.bind fun r hr =>
      Yields.bind_of_forall fun e => (closing_yields r e).mono hr
  · exact invalidType_yields _ _

end Json

namespace Snapshot

open Json

variable {s : Snapshot}

/-- Whatever a text reads as holds words. -/
theorem decode_words {text : String} (h : decode text = .ok s) : s.Words := by
  obtain ⟨st', hrun⟩ := decode_eq_ok_iff.1 h
  obtain ⟨a, st₁, hsnap, hend⟩ := run_bind_eq_ok.1 hrun
  have has : a = s := (Yields.bind_of_forall fun _ => Yields.pure rfl) st₁ s st' hend
  exact has ▸ readSnapshot_words _ a st₁ hsnap

/-- Writing what a text reads as and reading it again gives it back. -/
theorem decode_encode_of_decode {text : String} (h : decode text = .ok s) :
    decode s.encode = .ok s :=
  decode_encode (decode_words h)

end Snapshot

/-! ### What the place of the base accepts -/

namespace Json

variable {st st' : Input} {α β : Type}

theorem Yields.failAhead_bind (p : Problem) (f : α → Read β) (P : β → Prop) :
    Yields (Json.failAhead p >>= f) P :=
  (Yields.failAhead p fun _ => False).bind fun _ h => h.elim

/-- A key after the first comes only after blanks and a comma. -/
theorem nextKey_some_comma {k : String} (h : (nextKey false).run st = .ok (some k, st')) :
    ∃ post R, Blanks post ∧ st.rest = post ++ 44 :: R := by
  unfold nextKey at h
  rw [run_bind_of_ok (skipBlank_run st)] at h
  have hsplit : st.rest = st.rest.takeWhile isJsonBlank ++ st.rest.dropWhile isJsonBlank :=
    List.takeWhile_append_dropWhile.symm
  have hpost : Blanks (st.rest.takeWhile isJsonBlank) := fun c hc => List.mem_takeWhile_imp hc
  cases hd : st.rest.dropWhile isJsonBlank with
  | nil =>
    simp only [hd, List.head?_nil] at h
    exact absurd h (not_run_eq_ok_of_yields_false (Yields.failAhead_bind _ _ _))
  | cons b R =>
    simp only [hd, List.head?_cons] at h
    split at h
    · simp only [pure_bind] at h
      exact absurd (run_pure_eq_ok.1 h).1 (by simp)
    · next heq =>
      obtain rfl : b = 44 := Option.some.inj heq
      exact ⟨_, R, hpost, by rw [← hd]; exact hsplit⟩
    · simp only [Bool.false_eq_true, if_false] at h
      exact absurd h (not_run_eq_ok_of_yields_false (Yields.failAhead_bind _ _ _))
    · exact absurd h (not_run_eq_ok_of_yields_false (Yields.failAhead_bind _ _ _))

/-- Fields still missing the block size end only after another comma. -/
theorem readSnapshotFields_base_comma {fuel b : Nat} {a : Snapshot}
    (h : (readSnapshotFields fuel false { base := some b }).run st = .ok (.ok a, st')) :
    ∃ post R, Blanks post ∧ st.rest = post ++ 44 :: R := by
  have hmissing : ({ base := some b } : SnapshotFields).finish ≠ .ok a := by
    simp [SnapshotFields.finish]
  cases fuel with
  | zero =>
    rw [readSnapshotFields] at h
    exact absurd (run_pure_eq_ok.1 h).1 hmissing
  | succ fuel =>
    rw [readSnapshotFields] at h
    obtain ⟨key, st₁, hkey, hrest⟩ := run_bind_eq_ok.1 h
    cases key with
    | none => exact absurd (run_pure_eq_ok.1 hrest).1 hmissing
    | some k => exact nextKey_some_comma hkey

/-- Two lists that go on with the same byte, which the second does not hold: the first is the
second, or extends it past that byte. -/
theorem eq_or_extends_of_append_cons {l₁ l₂ r₁ r₂ : List UInt8} {c : UInt8}
    (h : l₁ ++ c :: r₁ = l₂ ++ c :: r₂) (hc : c ∉ l₂) : l₁ = l₂ ∨ ∃ t, l₁ = l₂ ++ c :: t := by
  rcases List.append_eq_append_iff.1 h with ⟨a', hl₂, hr⟩ | ⟨c', hl₁, hr⟩
  · cases a' with
    | nil => exact Or.inl (by simpa using hl₂.symm)
    | cons x a' =>
      obtain ⟨rfl, -⟩ := List.cons.inj hr
      exact absurd (hl₂ ▸ List.mem_append_right l₁ List.mem_cons_self) hc
  · cases c' with
    | nil => exact Or.inl (by simpa using hl₁)
    | cons x c' =>
      obtain ⟨rfl, -⟩ := List.cons.inj hr
      exact Or.inr ⟨c', hl₁⟩

/-- A value that begins with the numeral of a word is read as that word. -/
theorem readValueAt_numeral {fuel depth n : Nat} {gap R : List UInt8} (hfuel : 0 < fuel)
    (hfits : st.Fits) (hgap : Blanks gap) (h : st.rest = gap ++ numeral n ++ R) (hR : NumberEnd R)
    (hn : n ≤ maxWord) :
    (readValueAt fuel depth).run st = .ok (.nat n, st.skip (gap ++ numeral n).length) := by
  obtain ⟨fuel, rfl⟩ : ∃ f, fuel = f + 1 := ⟨fuel - 1, by omega⟩
  obtain ⟨b, ds, d, hnum, hb⟩ := numeral_eq_cons n
  have hne : ∀ c : UInt8, digitValue c = none → (b == c) = false :=
    fun c hc => beq_eq_false_iff_ne.2 (ne_of_digitValue hb hc)
  have hat : (st.skip gap.length).rest = numeral n ++ R :=
    Input.rest_skip_length (by rw [h, List.append_assoc])
  rw [readValueAt, run_bind_of_ok (skipBlank_run_cons (b := b) (r := ds ++ R)
    (by rw [h, List.append_assoc, hnum, List.cons_append]) hgap (isJsonBlank_of_digitValue hb))]
  simp only [hne 110 rfl, hne 116 rfl, hne 102 rfl, hne 45 rfl, hb, Option.isSome_some,
    Bool.false_eq_true, ↓reduceIte]
  rw [run_bind_of_ok (readNumber_numeral (hfits.skip _) hat hR hn), Input.skip_append]
  rfl

/-- A text read as one value: the value, then nothing but blanks. -/
theorem parse_eq_ok_imp {v : String} {w : Value} (h : parse v = .ok w) :
    ∃ st', (do let x ← readValueAt (2 * v.toUTF8.toList.length + 2) 128; expectEnd; return x :
      Read Value).run ⟨v.toUTF8.toList, 0, v.toUTF8.toList.length⟩ = .ok (w, st') := by
  unfold parse parseBytes Read.run' at h
  dsimp only at h
  rcases hr : (do let x ← readValueAt (2 * v.toUTF8.toList.length + 2) 128; expectEnd; return x :
      Read Value).run ⟨v.toUTF8.toList, 0, v.toUTF8.toList.length⟩ with e | ⟨a, st'⟩
  · rw [hr] at h
    cases h
  · rw [hr] at h
    cases h
    exact ⟨st', rfl⟩

theorem expectEnd_comma {post t : List UInt8} {u : Unit} (hpost : Blanks post)
    (h : st.rest = post ++ 44 :: t) : expectEnd.run st ≠ .ok (u, st') := by
  unfold expectEnd
  rw [run_bind_of_ok (skipBlank_run_cons h hpost (by decide))]
  exact not_run_eq_ok_of_yields_false (Yields.failAhead _ _)

/-- A numeral with a comma after it is not one JSON value. -/
theorem parse_ne_ok_of_numeral_comma {v : String} {gap post t : List UInt8} {n : Nat}
    (hgap : Blanks gap) (hpost : Blanks post) (hn : n ≤ maxWord)
    (hv : v.toUTF8.toList = gap ++ numeral n ++ post ++ 44 :: t) (w : Value) : parse v ≠ .ok w := by
  intro h
  obtain ⟨st', hrun⟩ := parse_eq_ok_imp h
  obtain ⟨x, st₁, hval, hend⟩ := run_bind_eq_ok.1 hrun
  have hread : (readValueAt (2 * v.toUTF8.toList.length + 2) 128).run
      ⟨v.toUTF8.toList, 0, v.toUTF8.toList.length⟩ = .ok (.nat n, _) :=
    readValueAt_numeral (R := post ++ 44 :: t) (by omega) (le_refl _) hgap (by rw [hv]; simp)
      (NumberEnd.blanks_append hpost (numberEnd_cons (by simp) t)) hn
  rw [hread] at hval
  obtain ⟨rfl, rfl⟩ := Prod.mk.inj (Except.ok.inj hval)
  obtain ⟨u, st₂, hexp, -⟩ := run_bind_eq_ok.1 hend
  exact expectEnd_comma (t := t) hpost (Input.rest_skip_length (P := gap ++ numeral n)
    (by rw [hv]; simp)) hexp

end Json

namespace Snapshot

open Json

variable {s s' : Snapshot}

/-- When a snapshot's text with `v` in the place of its base reads as a snapshot, the base's
reader took blanks and the numeral of a word, and blanks and a comma came next. -/
theorem decode_textWithBase_base {v : String} (h : decode (s.textWithBase v) = .ok s') :
    ∃ gap n post R, Blanks gap ∧ Blanks post ∧ n ≤ maxWord ∧
      v.toUTF8.toList ++ s.tailBytes ++ [125] = gap ++ numeral n ++ post ++ 44 :: R := by
  obtain ⟨st', hrun⟩ := decode_eq_ok_iff.1 h
  obtain ⟨a, st₁, hsnap, -⟩ := run_bind_eq_ok.1 hrun
  set st₀ : Input := ⟨(s.textWithBase v).toUTF8.toList, 0, (s.textWithBase v).toUTF8.toList.length⟩
  have hfits : st₀.Fits := le_refl _
  have h0 : st₀.rest = 123 :: (keyColon "base" ++ (v.toUTF8.toList ++ s.tailBytes ++ [125])) := by
    rw [show st₀.rest = (s.textWithBase v).toUTF8.toList from rfl, textWithBase_bytes]
    simp
  have h1 : (st₀.skip 1).rest = [] ++ comma true ++ keyColon WordKey.base.name ++
      (v.toUTF8.toList ++ s.tailBytes ++ [125]) :=
    Input.rest_skip_length (P := [123]) h0
  -- the opening brace, then the fields, then the closing brace
  rw [readSnapshot_brace h0] at hsnap
  obtain ⟨r, st₂, hfields, hclose⟩ := run_bind_eq_ok.1 hsnap
  obtain ⟨e, st₃, -, hclosing⟩ := run_bind_eq_ok.1 hclose
  obtain rfl : r = .ok a := closing_yields r e _ _ _ hclosing
  -- the base, then a field after it
  rw [readSnapshotFields_word .base (hfits.skip 1) Blanks.nil rfl h1] at hfields
  obtain ⟨n, st₄, hword, hrest⟩ := run_bind_eq_ok.1 hfields
  obtain ⟨gap, hgap, hval, hn, -, -⟩ := (readWordField_eq_ok_iff _ ((hfits.skip 1).skip _)).1 hword
  obtain ⟨post, R, hpost, hcomma⟩ := readSnapshotFields_base_comma hrest
  refine ⟨gap, n, post, R, hgap, hpost, hn, ?_⟩
  rw [← Input.rest_skip_length h1, hval, hcomma, List.append_assoc _ post]

/-- In the place of a snapshot's base, a JSON value is taken exactly when it is the numeral of
a word, with blanks around it: no sign, fraction, exponent or other kind of value, and nothing
past the largest word. -/
theorem decode_textWithBase_eq_ok_iff (hs : s.Words) {v : String} {w : Value}
    (hv : parse v = .ok w) :
    decode (s.textWithBase v) = .ok s' ↔ ∃ gap n post, Blanks gap ∧ Blanks post ∧
      n ≤ maxWord ∧ v.toUTF8.toList = gap ++ numeral n ++ post ∧ s' = { s with base := n } := by
  constructor
  · intro h
    obtain ⟨gap, n, post, R, hgap, hpost, hn, heq⟩ := decode_textWithBase_base h
    obtain ⟨T, hT⟩ : ∃ T, s.tailBytes ++ [125] = 44 :: T := ⟨_, rfl⟩
    rw [List.append_assoc, hT] at heq
    -- no comma stands in the blanks and the numeral
    have hnot : (44 : UInt8) ∉ gap ++ numeral n ++ post := by
      simp only [List.mem_append, not_or]
      refine ⟨⟨fun hg => ?_, fun hd => ?_⟩, fun hp => ?_⟩
      · exact absurd (hgap 44 hg) (by decide)
      · exact absurd (mem_numeral hd).1 (by decide)
      · exact absurd (hpost 44 hp) (by decide)
    rcases eq_or_extends_of_append_cons heq hnot with hvb | ⟨t, hvb⟩
    · refine ⟨gap, n, post, hgap, hpost, hn, hvb, ?_⟩
      exact Except.ok.inj (h.symm.trans (decode_textWithBase_numeral hs hgap hpost hn hvb))
    · -- more than one value in the place of the base is not a JSON value
      exact absurd hv (parse_ne_ok_of_numeral_comma hgap hpost hn hvb w)
  · rintro ⟨gap, n, post, hgap, hpost, hn, hvb, rfl⟩
    exact decode_textWithBase_numeral hs hgap hpost hn hvb

/-- The laws of a snapshot's JSON text. -/
structure JsonLaws : Prop where
  /-- A snapshot is written as its fields in declaration order, the base as a plain numeral. -/
  encode_eq : ∀ s : Snapshot, s.encode = s.textWithBase (toString s.base)
  /-- A snapshot whose numbers are words is read back from its text. -/
  decode_encode : ∀ s : Snapshot, s.Words → decode s.encode = .ok s
  /-- Whatever a text reads as is read back from its own text. -/
  decode_encode_of_decode : ∀ (text : String) (s : Snapshot), decode text = .ok s →
    decode s.encode = .ok s
  /-- In the place of the base, a JSON value is taken exactly when it is the numeral of a word. -/
  base_numeral : ∀ (s s' : Snapshot) (v : String) (w : Value), s.Words → parse v = .ok w →
    (decode (s.textWithBase v) = .ok s' ↔ ∃ gap n post, Blanks gap ∧ Blanks post ∧
      n ≤ maxWord ∧ v.toUTF8.toList = gap ++ numeral n ++ post ∧ s' = { s with base := n })

theorem jsonLaws : JsonLaws where
  encode_eq := encode_eq
  decode_encode _ := decode_encode
  decode_encode_of_decode _ _ := decode_encode_of_decode
  base_numeral _ _ _ _ hs hv := decode_textWithBase_eq_ok_iff hs hv

end Snapshot

end ChunkRuntime
