import Mathlib
import ChunkRuntime.Proofs.JsonCodec

/-! A snapshot over any JSON codec that keeps its laws (`Json.Codec`). The snapshot's own part is
the derived one: `Snapshot.toValue` gives its fields in declaration order, and `Snapshot.ofValue`
takes an object of its fields in any order, unknown ones passed over, or an array of its four
values, each word field visited as its kind says. Over every such codec a snapshot is written as
its fields in declaration order with the base a plain numeral, read back from that text when its
numbers are words, and whatever a text reads as is read back from its own text; the base is
taken exactly when its text is the numeral of a word (`Snapshot.codecLaws`). `Codec.json` writes
a snapshot as `Snapshot.encode` does, and the one-pass reader `Snapshot.decode` keeps the same
laws (`Snapshot.jsonLaws`). -/

namespace ChunkRuntime

namespace Json

/-! ### The derived reader, on values -/

/-- What a typed read finds in a value. -/
def Value.found : Value → Found
  | .null => .null
  | .bool b => .bool b
  | .nat n => .unsigned n
  | .neg i => .signed i
  | .float x => .float x
  | .str s => .str s
  | .arr _ => .seq
  | .obj _ => .map

/-- A word field's value as its visitor takes it: a number as `WordKind.visit` takes it, and
no other kind of value. -/
def WordKind.visitValue (k : WordKind) : Value → Except Problem Nat
  | .nat n => k.visit (.nat n)
  | .neg i => k.visit (.neg i)
  | .float x => k.visit (.float x)
  | v => .error (.invalidType v.found k.expected)

/-- The blocks in use: an array of words. -/
def wordsOfValue : Value → Except Problem (List Nat)
  | .arr vs => vs.mapM WordKind.usize.visitValue
  | v => .error (.invalidType v.found "a sequence")

/-- The word field with this key. -/
def WordKey.named? (key : String) : Option WordKey :=
  [WordKey.base, .blockSize, .maxSize].find? (·.name == key)

/-- The fields of a snapshot given as an object, taken in order: each known field once, unknown
ones passed over. -/
def ofFields : List (String × Value) → SnapshotFields → Except Problem Snapshot
  | [], f => f.finish
  | (key, v) :: rest, f =>
    match WordKey.named? key with
    | some k =>
      if (k.get f).isSome then .error (.duplicateField key)
      else do ofFields rest (k.set f (← k.kind.visitValue v))
    | none =>
      if key == "allocated" then
        if f.allocated.isSome then .error (.duplicateField key)
        else do ofFields rest { f with allocated := some (← wordsOfValue v) }
      else ofFields rest f

/-- Element `i` of a snapshot given as an array, visited, or how many elements there were. -/
def element {α : Type} (vs : List Value) (i : Nat) (visit : Value → Except Problem α) :
    Except Problem α :=
  match vs[i]? with
  | some v => visit v
  | none => .error (.invalidLength i snapshotArity)

/-- A snapshot given as an array of its four values in order; more values are refused. -/
def ofItems (vs : List Value) : Except Problem Snapshot := do
  let b ← element vs 0 WordKind.address.visitValue
  let s ← element vs 1 WordKind.usize.visitValue
  let m ← element vs 2 WordKind.usize.visitValue
  let a ← element vs 3 wordsOfValue
  if vs.length = 4 then .ok ⟨b, s, m, a⟩
  else .error (.invalidLength vs.length "fewer elements in array")

theorem except_bind_eq_ok {ε α β : Type} {x : Except ε α} {f : α → Except ε β} {b : β} :
    x >>= f = .ok b ↔ ∃ a, x = .ok a ∧ f a = .ok b := by
  cases x <;> simp [bind, Except.bind]

/-- A word field takes a word and nothing else. -/
theorem WordKind.visitValue_eq_ok {k : WordKind} {v : Value} {n : Nat} :
    k.visitValue v = .ok n ↔ v = .nat n := by
  cases v <;> cases k <;> simp [WordKind.visitValue, WordKind.visit]

theorem mapM_visitValue_eq_ok {k : WordKind} {vs : List Value} {l : List Nat} :
    vs.mapM k.visitValue = .ok l ↔ vs = l.map .nat := by
  induction vs generalizing l with
  | nil =>
    cases l <;> simp [pure, Except.pure]
  | cons v vs ih =>
    rw [List.mapM_cons, except_bind_eq_ok]
    constructor
    · rintro ⟨n, hn, hrest⟩
      obtain ⟨ns, hns, hl⟩ := except_bind_eq_ok.1 hrest
      cases hl
      rw [WordKind.visitValue_eq_ok.1 hn, ih.1 hns]
      rfl
    · intro h
      cases l with
      | nil => cases h
      | cons n ns =>
        obtain ⟨rfl, rfl⟩ := List.cons.inj h
        exact ⟨n, WordKind.visitValue_eq_ok.2 rfl, except_bind_eq_ok.2 ⟨ns, ih.2 rfl, rfl⟩⟩

/-- The blocks in use are taken from an array of words and nothing else. -/
theorem wordsOfValue_eq_ok {v : Value} {l : List Nat} :
    wordsOfValue v = .ok l ↔ v = .arr (l.map .nat) := by
  cases v <;> simp [wordsOfValue, mapM_visitValue_eq_ok]

theorem element_eq_ok {α : Type} {vs : List Value} {i : Nat} {visit : Value → Except Problem α}
    {x : α} (h : element vs i visit = .ok x) : ∃ v ∈ vs, visit v = .ok x := by
  unfold element at h
  split at h
  · rename_i v hv
    exact ⟨v, List.mem_of_getElem? hv, h⟩
  · cases h

/-- Fields holding words give a snapshot holding words. -/
theorem ofFields_words {fs : List (String × Value)} {f : SnapshotFields} {s : Snapshot}
    (h : ofFields fs f = .ok s) (hf : f.Words) (hfs : ∀ kv ∈ fs, kv.2.Words) : s.Words := by
  induction fs generalizing f with
  | nil => exact hf.finish h
  | cons kv fs ih =>
    obtain ⟨key, v⟩ := kv
    have hrest : ∀ kv ∈ fs, kv.2.Words := fun kv hkv => hfs kv (List.mem_cons_of_mem _ hkv)
    have hv : v.Words := hfs (key, v) List.mem_cons_self
    rw [ofFields] at h
    split at h
    · -- a word field
      rename_i k _
      split at h
      · cases h
      · obtain ⟨n, hn, hnext⟩ := except_bind_eq_ok.1 h
        obtain rfl := WordKind.visitValue_eq_ok.1 hn
        exact ih hnext (hf.set k (by simpa using hv)) hrest
    · split at h
      · -- the blocks in use
        split at h
        · cases h
        · obtain ⟨l, hl, hnext⟩ := except_bind_eq_ok.1 h
          obtain rfl := wordsOfValue_eq_ok.1 hl
          exact ih hnext (hf.setAllocated (by simpa using hv)) hrest
      · exact ih h hf hrest

/-- Values holding words give a snapshot holding words. -/
theorem ofItems_words {vs : List Value} {s : Snapshot} (h : ofItems vs = .ok s)
    (hvs : ∀ v ∈ vs, v.Words) : s.Words := by
  unfold ofItems at h
  obtain ⟨b, hb, h⟩ := except_bind_eq_ok.1 h
  obtain ⟨bs, hbs, h⟩ := except_bind_eq_ok.1 h
  obtain ⟨ms, hms, h⟩ := except_bind_eq_ok.1 h
  obtain ⟨a, ha, h⟩ := except_bind_eq_ok.1 h
  split_ifs at h
  cases h
  obtain ⟨vb, hvb, hb⟩ := element_eq_ok hb
  obtain ⟨vbs, hvbs, hbs⟩ := element_eq_ok hbs
  obtain ⟨vms, hvms, hms⟩ := element_eq_ok hms
  obtain ⟨va, hva, ha⟩ := element_eq_ok ha
  obtain rfl := WordKind.visitValue_eq_ok.1 hb
  obtain rfl := WordKind.visitValue_eq_ok.1 hbs
  obtain rfl := WordKind.visitValue_eq_ok.1 hms
  obtain rfl := wordsOfValue_eq_ok.1 ha
  refine ⟨?_, ?_, ?_, ?_⟩
  · simpa using hvs _ hvb
  · simpa using hvs _ hvbs
  · simpa using hvs _ hvms
  · simpa using hvs _ hva

end Json

namespace Snapshot

open Json

/-- A snapshot as the derived reader takes it from a value. -/
def ofValue : Value → Except Problem Snapshot
  | .obj fs => ofFields fs {}
  | .arr vs => ofItems vs
  | v => .error (.invalidType v.found "struct DlcSnapshot")

/-- A snapshot written by a codec. -/
def encodeWith (C : Codec) (s : Snapshot) : String := C.write s.toValue

/-- A snapshot read by a codec: the text's value, then the snapshot in it. -/
def decodeWith (C : Codec) (text : String) : Except String Snapshot := do
  (ofValue (← C.read text)).mapError Problem.message

/-- The value of a snapshot with `w` in the place of its base. -/
def valueWithBase (s : Snapshot) (w : Value) : Value :=
  .obj [("base", w), ("block_size", .nat s.blockSize), ("max_size", .nat s.maxSize),
    ("allocated", .arr (s.allocated.map Value.nat))]

theorem encodeWith_json (s : Snapshot) : encodeWith Codec.json s = s.encode := rfl

theorem wordsOfValue_allocated (s : Snapshot) :
    wordsOfValue (.arr (s.allocated.map .nat)) = .ok s.allocated :=
  wordsOfValue_eq_ok.2 rfl

/-- The derived reader gives a snapshot back from its value. -/
theorem ofValue_toValue (s : Snapshot) : ofValue s.toValue = .ok s := by
  simp [ofValue, toValue, ofFields, WordKey.named?, WordKey.name, WordKey.get, WordKey.set,
    WordKind.visitValue, WordKind.visit, wordsOfValue_allocated, SnapshotFields.finish, bind,
    Except.bind]

/-- A snapshot read from a value holding words holds words. -/
theorem ofValue_words {v : Value} {s : Snapshot} (h : ofValue v = .ok s) (hv : v.Words) :
    s.Words := by
  cases v with
  | obj fs => exact ofFields_words h SnapshotFields.Words.empty (by simpa using hv)
  | arr vs => exact ofItems_words h (by simpa using hv)
  | _ => simp [ofValue] at h

/-- In the place of the base, the derived reader takes a word and nothing else. -/
theorem ofValue_valueWithBase {s s' : Snapshot} {w : Value} :
    ofValue (s.valueWithBase w) = .ok s' ↔ ∃ n, w = .nat n ∧ s' = { s with base := n } := by
  rcases hw : WordKind.address.visitValue w with e | n
  · have hne : ∀ n, w ≠ .nat n := fun n hn => by
      rw [hn] at hw
      simp [WordKind.visitValue, WordKind.visit] at hw
    simp [ofValue, valueWithBase, ofFields, WordKey.named?, WordKey.name, WordKey.get, WordKey.kind,
      hw, bind, Except.bind, hne]
  · obtain rfl := WordKind.visitValue_eq_ok.1 hw
    simp [ofValue, valueWithBase, ofFields, WordKey.named?, WordKey.name, WordKey.get,
      WordKey.set, WordKind.visitValue, WordKind.visit, wordsOfValue_allocated,
      SnapshotFields.finish, bind, Except.bind, eq_comm]

/-- A snapshot whose numbers are words is, as a value, a document of words. -/
theorem toValue_wordDoc {s : Snapshot} (hs : s.Words) : s.toValue.WordDoc := by
  obtain ⟨hb, hbs, hms, ha⟩ := hs
  simp only [Value.WordDoc, toValue, List.mem_cons, List.mem_nil_iff, or_false, forall_eq_or_imp,
    forall_eq, Value.WordField]
  refine ⟨⟨by simp [PlainKey], hb⟩, ⟨by simp [PlainKey], hbs⟩, ⟨by simp [PlainKey], hms⟩,
    by simp [PlainKey], s.allocated, rfl, ha⟩

/-! ### Over any codec -/

section Codec

variable (C : Codec)

/-- Over any codec, a snapshot is written as its fields in declaration order, each number as its
decimal numeral, the blocks in use as an array, and no blanks. -/
theorem encodeWith_eq (s : Snapshot) : encodeWith C s = s.textWithBase (toString s.base) := by
  have hplain : ∀ kv ∈ ([("base", Value.nat s.base), ("block_size", .nat s.blockSize),
      ("max_size", .nat s.maxSize), ("allocated", .arr (s.allocated.map Value.nat))] :
      List (String × Value)), PlainKey kv.1 := by
    simp [PlainKey]
  have hwords : (s.allocated.map Value.nat).map C.write = s.allocated.map toString := by
    simp [Function.comp_def, C.write_nat]
  rw [encodeWith, toValue, C.write_obj _ hplain, ← String.toList_inj]
  simp [C.write_nat, C.write_arr, hwords, textWithBase]

theorem decodeWith_eq_ok {text : String} {s : Snapshot} :
    decodeWith C text = .ok s ↔ ∃ v, C.read text = .ok v ∧ ofValue v = .ok s := by
  unfold decodeWith
  cases C.read text with
  | error e => simp [bind, Except.bind]
  | ok v =>
    cases h : ofValue v <;> simp [bind, Except.bind, Except.mapError, h]

/-- A snapshot whose numbers are words is read back from its text. -/
theorem decodeWith_encodeWith {s : Snapshot} (hs : s.Words) :
    decodeWith C (encodeWith C s) = .ok s :=
  (decodeWith_eq_ok C).2 ⟨_, C.read_write _ (toValue_wordDoc hs), ofValue_toValue s⟩

/-- Whatever a text reads as holds words. -/
theorem decodeWith_words {text : String} {s : Snapshot} (h : decodeWith C text = .ok s) :
    s.Words := by
  obtain ⟨v, hv, hs⟩ := (decodeWith_eq_ok C).1 h
  exact ofValue_words hs (C.read_words _ _ hv)

/-- In the place of the base, the value of a text is taken exactly when the text is the numeral
of a word with blanks around it. -/
theorem ofValue_valueWithBase_read {s s' : Snapshot} {v : String} {w : Value}
    (hw : C.read v = .ok w) :
    ofValue (s.valueWithBase w) = .ok s' ↔ ∃ gap n post, Blanks gap ∧ Blanks post ∧
      n ≤ maxWord ∧ v.toUTF8.toList = gap ++ numeral n ++ post ∧ s' = { s with base := n } := by
  rw [ofValue_valueWithBase]
  constructor
  · rintro ⟨n, rfl, rfl⟩
    obtain ⟨gap, post, hgap, hpost, hn, hv⟩ := (C.read_eq_nat v n).1 hw
    exact ⟨gap, n, post, hgap, hpost, hn, hv, rfl⟩
  · rintro ⟨gap, n, post, hgap, hpost, hn, hv, rfl⟩
    have hread : C.read v = .ok (.nat n) := (C.read_eq_nat v n).2 ⟨gap, post, hgap, hpost, hn, hv⟩
    exact ⟨n, Except.ok.inj (hw.symm.trans hread), rfl⟩

end Codec

/-- The laws of a snapshot's JSON text over a codec. -/
structure CodecLaws (C : Codec) : Prop where
  /-- A snapshot is written as its fields in declaration order, the base as a plain numeral. -/
  encode_eq : ∀ s : Snapshot, encodeWith C s = s.textWithBase (toString s.base)
  /-- A snapshot whose numbers are words is read back from its text. -/
  decode_encode : ∀ s : Snapshot, s.Words → decodeWith C (encodeWith C s) = .ok s
  /-- Whatever a text reads as is read back from its own text. -/
  decode_encode_of_decode : ∀ (text : String) (s : Snapshot), decodeWith C text = .ok s →
    decodeWith C (encodeWith C s) = .ok s
  /-- In the place of the base, the value of a text is taken exactly when the text is the
  numeral of a word: no sign, fraction, exponent or other kind of value, and nothing past the
  largest word. -/
  base_numeral : ∀ (s s' : Snapshot) (v : String) (w : Value), C.read v = .ok w →
    (ofValue (s.valueWithBase w) = .ok s' ↔ ∃ gap n post, Blanks gap ∧ Blanks post ∧
      n ≤ maxWord ∧ v.toUTF8.toList = gap ++ numeral n ++ post ∧ s' = { s with base := n })

theorem codecLaws (C : Codec) : CodecLaws C where
  encode_eq := encodeWith_eq C
  decode_encode _ := decodeWith_encodeWith C
  decode_encode_of_decode _ _ h := decodeWith_encodeWith C (decodeWith_words C h)
  base_numeral _ _ _ _ hw := ofValue_valueWithBase_read C hw

end Snapshot

end ChunkRuntime
