import Mathlib
import ChunkRuntime.Proofs.SnapshotJson

/-! JSON codecs and their laws. A `Codec` writes values as text and reads text as values; its
laws are what a snapshot's text relies on: words are written as their decimal numerals, arrays
and objects compactly and in the order given, and a document of words is read back as written;
a text reads as a word exactly when it is the word's numeral with blanks around it, and every
number read is a word. `Codec.json`, this library's writer and reader, keeps them. -/

namespace ChunkRuntime.Json

/-! ### Values made of words -/

mutual

/-- Every number in the value is a word. -/
def Value.Words : Value → Prop
  | .nat n => n ≤ maxWord
  | .arr vs => Value.ItemWords vs
  | .obj fs => Value.FieldWords fs
  | _ => True

/-- Every number in the items is a word. -/
def Value.ItemWords : List Value → Prop
  | [] => True
  | v :: vs => v.Words ∧ Value.ItemWords vs

/-- Every number in the fields' values is a word. -/
def Value.FieldWords : List (String × Value) → Prop
  | [] => True
  | kv :: fs => kv.2.Words ∧ Value.FieldWords fs

end

namespace Value

theorem itemWords_iff {vs : List Value} : ItemWords vs ↔ ∀ v ∈ vs, v.Words := by
  induction vs with
  | nil => simp [ItemWords]
  | cons v vs ih => simp [ItemWords, ih]

theorem fieldWords_iff {fs : List (String × Value)} : FieldWords fs ↔ ∀ kv ∈ fs, kv.2.Words := by
  induction fs with
  | nil => simp [FieldWords]
  | cons kv fs ih => simp [FieldWords, ih]

@[simp] theorem words_nat {n : Nat} : (Value.nat n).Words ↔ n ≤ maxWord := by
  rw [Words]

@[simp] theorem words_arr {vs : List Value} : (Value.arr vs).Words ↔ ∀ v ∈ vs, v.Words := by
  rw [Words, itemWords_iff]

@[simp] theorem words_obj {fs : List (String × Value)} :
    (Value.obj fs).Words ↔ ∀ kv ∈ fs, kv.2.Words := by
  rw [Words, fieldWords_iff]

/-- A field of a document of words: a word, or an array of words. -/
def WordField : Value → Prop
  | .nat n => n ≤ maxWord
  | .arr vs => ∃ ns : List Nat, vs = ns.map .nat ∧ ∀ n ∈ ns, n ≤ maxWord
  | _ => False

end Value

/-- A key that the writer leaves as it is and the reader takes byte for byte: printable ASCII
with no quote and no backslash. -/
def PlainKey (k : String) : Prop :=
  ∀ c ∈ k.toList, 32 ≤ c.toNat ∧ c.toNat < 128 ∧ c ≠ '"' ∧ c ≠ '\\'

instance : DecidablePred PlainKey := fun k =>
  inferInstanceAs (Decidable (∀ c ∈ k.toList, 32 ≤ c.toNat ∧ c.toNat < 128 ∧ c ≠ '"' ∧ c ≠ '\\'))

/-- A document of words: an object whose keys are plain and whose fields hold words or arrays of
words. -/
def Value.WordDoc : Value → Prop
  | .obj fs => ∀ kv ∈ fs, PlainKey kv.1 ∧ kv.2.WordField
  | _ => False

/-- A JSON codec that keeps the laws a snapshot's text relies on. -/
structure Codec where
  write : Value → String
  read : String → Except String Value
  /-- A word is written as its decimal numeral. -/
  write_nat : ∀ n, write (.nat n) = toString n
  /-- An array is written as its items, comma separated, in brackets. -/
  write_arr : ∀ vs, write (.arr vs) = "[" ++ ",".intercalate (vs.map write) ++ "]"
  /-- An object with plain keys is written as its fields in the order given, each its quoted
  key, a colon and its value, comma separated, in braces. -/
  write_obj : ∀ fs, (∀ kv ∈ fs, PlainKey kv.1) → write (.obj fs) =
    "\x7b" ++ ",".intercalate (fs.map fun kv => "\"" ++ kv.1 ++ "\":" ++ write kv.2) ++ "\x7d"
  /-- A document of words is read back from its text. -/
  read_write : ∀ v, v.WordDoc → read (write v) = .ok v
  /-- A text reads as a word exactly when it is the word's numeral with blanks around it. -/
  read_eq_nat : ∀ text n, read text = .ok (.nat n) ↔ ∃ gap post, Blanks gap ∧ Blanks post ∧
    n ≤ maxWord ∧ text.toUTF8.toList = gap ++ numeral n ++ post
  /-- Every number read is a word. -/
  read_words : ∀ text v, read text = .ok v → v.Words

/-! ### The writer -/

theorem escapeChar_eq_append (acc : String) (c : Char) :
    escapeChar acc c = acc ++ escapeChar "" c := by
  unfold escapeChar
  split <;> (try split) <;> (try split) <;> (try split) <;> simp [String.append_assoc]

theorem foldl_escapeChar (acc : String) (cs : List Char) :
    cs.foldl escapeChar acc = acc ++ cs.foldl escapeChar "" := by
  induction cs generalizing acc with
  | nil => simp
  | cons c cs ih =>
    rw [List.foldl_cons, List.foldl_cons, ih, ih (escapeChar "" c), escapeChar_eq_append,
      String.append_assoc]

theorem writeString_eq_append (acc s : String) : writeString acc s = acc ++ writeString "" s := by
  rw [writeString, writeString, String.foldl_eq_foldl_toList, String.foldl_eq_foldl_toList,
    foldl_escapeChar, foldl_escapeChar ("".push '"')]
  simp [String.push_eq_append, String.append_assoc]

/-- A plain character stands for itself in a written string. -/
theorem escapeChar_plain {c : Char} (hc : 32 ≤ c.toNat ∧ c.toNat < 128 ∧ c ≠ '"' ∧ c ≠ '\\')
    (acc : String) : escapeChar acc c = acc.push c := by
  obtain ⟨h32, -, hq, hb⟩ := hc
  unfold escapeChar
  split
  · exact absurd rfl hq
  · exact absurd rfl hb
  · exact absurd h32 (by decide)
  · exact absurd h32 (by decide)
  · exact absurd h32 (by decide)
  · rw [if_neg (by simp; omega), if_neg (by simp; omega), if_neg (by omega)]

/-- A plain key is written between quotes as it is. -/
theorem writeString_plain {k : String} (hk : PlainKey k) (acc : String) :
    writeString acc k = acc ++ "\"" ++ k ++ "\"" := by
  have hfold : ∀ (cs : List Char) (a : String), (∀ c ∈ cs, 32 ≤ c.toNat ∧ c.toNat < 128 ∧
      c ≠ '"' ∧ c ≠ '\\') → cs.foldl escapeChar a = a ++ String.ofList cs := by
    intro cs
    induction cs with
    | nil => simp
    | cons c cs ih =>
      intro a hcs
      rw [List.foldl_cons, escapeChar_plain (hcs c List.mem_cons_self),
        ih _ fun d hd => hcs d (List.mem_cons_of_mem c hd), String.ofList_cons,
        String.push_eq_append, String.append_assoc]
  rw [writeString, String.foldl_eq_foldl_toList, hfold _ _ hk, String.ofList_toList,
    ← String.toList_inj]
  simp

mutual

/-- The writer appends a value's text to what it was given. -/
theorem writeTo_eq_append (acc : String) : (v : Value) → Value.writeTo acc v = acc ++ v.render
  | .null => by simp [Value.render, Value.writeTo]
  | .bool b => by simp [Value.render, Value.writeTo]
  | .nat n => by simp [Value.render, Value.writeTo]
  | .neg i => by simp [Value.render, Value.writeTo]
  | .float x => by simp [Value.render, Value.writeTo]
  | .str s => by rw [Value.render, Value.writeTo, Value.writeTo, writeString_eq_append]
  | .arr items => by
    rw [Value.render, Value.writeTo, Value.writeTo, writeItems_eq_append _ true items,
      writeItems_eq_append ("".push '[') true items]
    simp [String.push_eq_append, String.append_assoc]
  | .obj fields => by
    rw [Value.render, Value.writeTo, Value.writeTo, writeFields_eq_append _ true fields,
      writeFields_eq_append ("".push '\x7b') true fields]
    simp [String.push_eq_append, String.append_assoc]

theorem writeItems_eq_append (acc : String) (first : Bool) :
    (vs : List Value) → Value.writeItems acc first vs = acc ++ Value.writeItems "" first vs
  | [] => by simp [Value.writeItems]
  | v :: rest => by
    rw [Value.writeItems, Value.writeItems, writeItems_eq_append _ false rest,
      writeItems_eq_append (Value.writeTo _ v) false rest, writeTo_eq_append _ v,
      writeTo_eq_append (if first then "" else "".push ',') v]
    cases first <;> simp [String.push_eq_append, String.append_assoc]

theorem writeFields_eq_append (acc : String) (first : Bool) :
    (fs : List (String × Value)) → Value.writeFields acc first fs = acc ++ Value.writeFields "" first fs
  | [] => by simp [Value.writeFields]
  | (k, v) :: rest => by
    simp only [Value.writeFields]
    rw [writeFields_eq_append _ false rest, writeFields_eq_append (Value.writeTo _ v) false rest,
      writeTo_eq_append _ v,
      writeTo_eq_append ((writeString (if first then "" else "".push ',') k).push ':') v,
      writeString_eq_append, writeString_eq_append (if first then "" else _)]
    cases first <;> simp [String.push_eq_append, String.append_assoc]

end

theorem render_nat (n : Nat) : (Value.nat n).render = toString n := by
  simp [Value.render, Value.writeTo]

theorem writeItems_rest (acc : String) (vs : List Value) :
    Value.writeItems acc false vs = acc ++ String.join (vs.map fun v => "," ++ v.render) := by
  induction vs generalizing acc with
  | nil => simp [Value.writeItems]
  | cons v vs ih =>
    rw [Value.writeItems, ih, writeTo_eq_append]
    simp [String.push_eq_append, String.append_assoc]

theorem render_arr (vs : List Value) :
    (Value.arr vs).render = "[" ++ ",".intercalate (vs.map Value.render) ++ "]" := by
  rw [Value.render, Value.writeTo]
  cases vs with
  | nil => simp [Value.writeItems, String.push_eq_append]
  | cons v vs =>
    rw [Value.writeItems, writeItems_rest, writeTo_eq_append, List.map_cons, intercalate_cons_eq,
      List.map_map]
    simp [String.push_eq_append, String.append_assoc, Function.comp_def]

/-- A field as the writer writes it: its quoted key, a colon and its value. -/
def fieldText (kv : String × Value) : String := "\"" ++ kv.1 ++ "\":" ++ kv.2.render

theorem writeFields_rest (acc : String) {fs : List (String × Value)}
    (hfs : ∀ kv ∈ fs, PlainKey kv.1) :
    Value.writeFields acc false fs = acc ++ String.join (fs.map fun kv => "," ++ fieldText kv) := by
  induction fs generalizing acc with
  | nil => simp [Value.writeFields]
  | cons kv fs ih =>
    obtain ⟨k, v⟩ := kv
    simp only [Value.writeFields]
    rw [ih _ fun kv hkv => hfs kv (List.mem_cons_of_mem _ hkv), writeTo_eq_append,
      writeString_plain (hfs (k, v) List.mem_cons_self)]
    rw [← String.toList_inj]
    simp [fieldText]

theorem render_obj {fs : List (String × Value)} (hfs : ∀ kv ∈ fs, PlainKey kv.1) :
    (Value.obj fs).render = "\x7b" ++ ",".intercalate (fs.map fieldText) ++ "\x7d" := by
  rw [Value.render, Value.writeTo]
  cases fs with
  | nil => simp [Value.writeFields, String.push_eq_append]
  | cons kv fs =>
    obtain ⟨k, v⟩ := kv
    simp only [Value.writeFields]
    rw [writeFields_rest _ fun kv hkv => hfs kv (List.mem_cons_of_mem _ hkv), writeTo_eq_append,
      writeString_plain (hfs (k, v) List.mem_cons_self), List.map_cons, intercalate_cons_eq,
      List.map_map]
    rw [← String.toList_inj]
    simp [fieldText, Function.comp_def]

/-! ### The bytes of a document of words -/

variable {st st' : Input}

/-- A plain key's bytes are plain. -/
theorem PlainKey.plain {k : String} (hk : PlainKey k) : Plain k.toUTF8.toList := by
  rw [← String.ofList_toList (s := k), toUTF8_ofList_of_ascii fun c hc => (hk c hc).2.1]
  intro b hb
  obtain ⟨c, hc, rfl⟩ := List.mem_map.1 hb
  obtain ⟨h32, h128, hq, hs⟩ := hk c (by simpa using hc)
  have hnat : c.toUInt8.toNat = c.toNat := by
    simp only [Char.toUInt8, UInt32.toNat_toUInt8, Char.toNat] at *
    omega
  have hq' : c.toNat ≠ 34 := fun h => hq (Char.ext (UInt32.toNat_inj.1 h))
  have hs' : c.toNat ≠ 92 := fun h => hs (Char.ext (UInt32.toNat_inj.1 h))
  refine ⟨fun h => hq' ?_, fun h => hs' ?_, fun h => ?_⟩
  · rw [← hnat, h]; rfl
  · rw [← hnat, h]; rfl
  · have : c.toUInt8.toNat < 32 := h
    omega

theorem quote_bytes : "\"".toUTF8.toList = [34] := by
  rw [toUTF8_toList]
  decide

theorem singleton_bytes_colon : (String.singleton ':').toUTF8.toList = [58] := by
  rw [toUTF8_toList]
  decide

/-- The bytes of fields as written after the opening brace. -/
def fieldBytes (first : Bool) : List (String × Value) → List UInt8
  | [] => []
  | kv :: fs => comma first ++ keyColon kv.1 ++ kv.2.render.toUTF8.toList ++ fieldBytes false fs

theorem writeFields_bytes (acc : String) (first : Bool) {fs : List (String × Value)}
    (hfs : ∀ kv ∈ fs, PlainKey kv.1) :
    (Value.writeFields acc first fs).toUTF8.toList = acc.toUTF8.toList ++ fieldBytes first fs := by
  induction fs generalizing acc first with
  | nil => simp [Value.writeFields, fieldBytes]
  | cons kv fs ih =>
    obtain ⟨k, v⟩ := kv
    have hcomma : (if first then acc else acc.push ',').toUTF8.toList =
        acc.toUTF8.toList ++ comma first := by
      cases first
      · have h44 : (String.singleton ',').toUTF8.toList = [44] := by
          rw [toUTF8_toList]
          decide
        rw [if_neg Bool.false_ne_true, String.push_eq_append, toUTF8_toList_append, h44]
        rfl
      · simp [comma]
    simp only [Value.writeFields]
    rw [ih _ _ fun kv hkv => hfs kv (List.mem_cons_of_mem _ hkv), writeTo_eq_append,
      writeString_plain (hfs (k, v) List.mem_cons_self), String.push_eq_append]
    simp only [toUTF8_toList_append, hcomma, quote_bytes, singleton_bytes_colon, fieldBytes,
      keyColon, List.append_assoc, List.cons_append, List.nil_append]

theorem render_obj_bytes {fs : List (String × Value)} (hfs : ∀ kv ∈ fs, PlainKey kv.1) :
    (Value.obj fs).render.toUTF8.toList = 123 :: fieldBytes true fs ++ [125] := by
  rw [Value.render, Value.writeTo, String.push_eq_append, toUTF8_toList_append,
    writeFields_bytes _ _ hfs, String.push_eq_append, toUTF8_toList_append]
  have h1 : ("".toUTF8.toList ++ (String.singleton '\x7b').toUTF8.toList) = [123] := by
    rw [toUTF8_toList, toUTF8_toList]
    decide
  have h2 : (String.singleton '\x7d').toUTF8.toList = [125] := by
    rw [toUTF8_toList]
    decide
  rw [h1, h2]
  rfl

theorem render_nat_bytes (n : Nat) : (Value.nat n).render.toUTF8.toList = numeral n := by
  rw [render_nat, toString_toUTF8]

theorem render_words_bytes (ns : List Nat) :
    (Value.arr (ns.map .nat)).render.toUTF8.toList = 91 :: itemBytes true ns ++ [93] := by
  rw [Value.render, Value.writeTo, writeItems_nat, String.push_eq_append, toUTF8_toList_append,
    toUTF8_toList_append, intercalate_toUTF8]
  have h1 : ("".push '[').toUTF8.toList = [91] := by
    rw [toUTF8_toList]
    decide
  have h2 : (String.singleton ']').toUTF8.toList = [93] := by
    rw [toUTF8_toList]
    decide
  rw [h1, h2]
  rfl

/-! ### Reading a document of words back -/

/-- The numerals of an array's items, read as words up to its closing bracket. -/
theorem readItems_itemBytes {first : Bool} {ns : List Nat} {acc : List Value} {r : List UInt8}
    {fuel depth : Nat} (hfits : st.Fits) (hns : ∀ n ∈ ns, n ≤ maxWord)
    (hfuel : (itemBytes first ns).length < fuel) (h : st.rest = itemBytes first ns ++ 93 :: r) :
    (readItems fuel depth first acc).run st =
      .ok ((ns.map .nat).reverse ++ acc, st.skip (itemBytes first ns).length) := by
  induction ns generalizing first acc fuel st with
  | nil =>
    obtain ⟨f, rfl⟩ : ∃ f, fuel = f + 1 := ⟨fuel - 1, by omega⟩
    rw [readItems, run_bind_of_ok (skipBlank_run_cons (h.trans (List.nil_append _).symm) Blanks.nil
      (by decide))]
    rfl
  | cons n ns ih =>
    obtain ⟨b, ds, d, hnum, hb⟩ := numeral_eq_cons n
    have hlen : 0 < (numeral n).length := List.length_pos_of_ne_nil (numeral_ne_nil n)
    obtain ⟨f, rfl⟩ : ∃ f, fuel = f + 1 := ⟨fuel - 1, by omega⟩
    have hbytes : itemBytes first (n :: ns) = comma first ++ numeral n ++ itemBytes false ns := rfl
    rw [hbytes, List.length_append, List.length_append] at hfuel
    have hnum_at : (st.skip (comma first).length).rest = [] ++ numeral n ++ (itemBytes false ns ++ 93 :: r) :=
      Input.rest_skip_length (by rw [h, hbytes]; simp)
    have hread : (readValueAt f depth).run (st.skip (comma first).length) =
        .ok (.nat n, (st.skip (comma first).length).skip ([] ++ numeral n).length) :=
      readValueAt_numeral (by omega) (hfits.skip _) Blanks.nil hnum_at
        (numberEnd_itemBytes ns r) (hns n List.mem_cons_self)
    have hnext := @ih _ false (.nat n :: acc) f ((hfits.skip _).skip _)
      (fun m hm => hns m (List.mem_cons_of_mem n hm)) (by omega) (Input.rest_skip_length hnum_at)
    have hend : ((ns.map Value.nat).reverse ++ Value.nat n :: acc) = ((n :: ns).map .nat).reverse ++ acc := by
      simp
    rw [hend] at hnext
    have h93 : b ≠ 93 := ne_of_digitValue hb rfl
    rw [readItems]
    cases first with
    | true =>
      have hat : st.rest = [] ++ b :: (ds ++ itemBytes false ns ++ 93 :: r) := by
        rw [h, hbytes, hnum]; rfl
      rw [run_bind_of_ok (skipBlank_run_cons hat Blanks.nil (isJsonBlank_of_digitValue hb))]
      split
      · rename_i heq
        exact absurd (Option.some.inj heq) h93
      · rename_i heq
        cases heq
      · simp only [Bool.not_true, Bool.and_false, Bool.false_eq_true, if_false, if_true]
        rw [show st.skip [].length = st.skip (comma true).length from rfl, run_bind_of_ok hread,
          hnext]
        simp [Input.skip_skip, hbytes, comma]
    | false =>
      have hat : st.rest = [] ++ 44 :: b :: (ds ++ itemBytes false ns ++ 93 :: r) := by
        rw [h, hbytes, hnum]; rfl
      rw [run_bind_of_ok (skipBlank_run_cons hat Blanks.nil (by decide))]
      simp +decide only [if_true]
      rw [run_bind_of_ok (bump_run (Input.rest_skip_length hat)),
        run_bind_of_ok (skipBlank_after_comma hat (isJsonBlank_of_digitValue hb)),
        show (st.skip [].length).skip 1 = st.skip (comma false).length by rw [Input.skip_skip]; rfl]
      split
      · rename_i heq
        exact absurd (Option.some.inj heq) h93
      · rw [run_bind_of_ok hread, hnext]
        simp only [Input.skip_skip, hbytes, comma, List.length_append, List.nil_append]
      · rename_i heq
        cases heq

/-- A word or an array of words, where a number cannot go on after it, read whole. -/
theorem readValueAt_wordField {v : Value} {R : List UInt8} {fuel depth : Nat} (hv : v.WordField)
    (hfits : st.Fits) (hdepth : 1 < depth) (hfuel : v.render.toUTF8.toList.length < fuel)
    (h : st.rest = v.render.toUTF8.toList ++ R) (hR : NumberEnd R) :
    (readValueAt fuel depth).run st = .ok (v, st.skip v.render.toUTF8.toList.length) := by
  match v, hv with
  | .nat n, hn =>
    rw [render_nat_bytes] at h hfuel ⊢
    exact readValueAt_numeral (by omega) hfits Blanks.nil (by simpa using h) hR hn
  | .arr _, ⟨ns, rfl, hns⟩ =>
    rw [render_words_bytes] at h hfuel ⊢
    obtain ⟨f, rfl⟩ : ∃ f, fuel = f + 1 := ⟨fuel - 1, by omega⟩
    have hitems : (st.skip 1).rest = itemBytes true ns ++ 93 :: R :=
      Input.rest_skip_length (P := [91]) (by rw [h]; simp)
    have hclose : ((st.skip 1).skip (itemBytes true ns).length).rest = 93 :: R :=
      Input.rest_skip_length hitems
    have hat : st.rest = [] ++ 91 :: (itemBytes true ns ++ [93] ++ R) := by
      rw [h]; rfl
    rw [readValueAt, run_bind_of_ok (skipBlank_run_cons hat Blanks.nil (by decide))]
    simp +decide only [↓reduceIte, if_neg (show ¬depth ≤ 1 by omega)]
    rw [List.length_nil, Input.skip_zero, run_bind_of_ok (bump_run (by rw [h]; rfl)),
      run_bind_of_ok (readItems_itemBytes (hfits.skip 1) hns (by simp at hfuel; omega) hitems),
      run_bind_of_ok (bump_run hclose)]
    simp [Input.skip_skip, Nat.add_comm]
    rfl

theorem numberEnd_fieldBytes (fs : List (String × Value)) (r : List UInt8) :
    NumberEnd (fieldBytes false fs ++ 125 :: r) := by
  cases fs with
  | nil => exact numberEnd_cons (by simp) r
  | cons kv fs => exact numberEnd_cons (by simp) _

/-- The fields of a document of words, read up to the closing brace. -/
theorem readFields_fieldBytes {first : Bool} {fs acc : List (String × Value)} {r : List UInt8}
    {fuel depth : Nat} (hfits : st.Fits) (hdepth : 1 < depth)
    (hfs : ∀ kv ∈ fs, PlainKey kv.1 ∧ kv.2.WordField) (hfuel : (fieldBytes first fs).length < fuel)
    (h : st.rest = fieldBytes first fs ++ 125 :: r) :
    (readFields fuel depth first acc).run st =
      .ok (fs.reverse ++ acc, st.skip (fieldBytes first fs).length) := by
  induction fs generalizing first acc fuel st with
  | nil =>
    obtain ⟨f, rfl⟩ : ∃ f, fuel = f + 1 := ⟨fuel - 1, by omega⟩
    rw [readFields, run_bind_of_ok (skipBlank_run_cons (h.trans (List.nil_append _).symm)
      Blanks.nil (by decide))]
    rfl
  | cons kv fs ih =>
    obtain ⟨k, v⟩ := kv
    obtain ⟨hk, hv⟩ := hfs (k, v) List.mem_cons_self
    obtain ⟨f, rfl⟩ : ∃ f, fuel = f + 1 := ⟨fuel - 1, by omega⟩
    set vb := v.render.toUTF8.toList
    set R := fieldBytes false fs ++ 125 :: r
    have hbytes : fieldBytes first ((k, v) :: fs) = comma first ++ keyColon k ++ vb ++
      fieldBytes false fs := rfl
    have hkey : keyColon k = 34 :: k.toUTF8.toList ++ [34, 58] := rfl
    rw [hbytes] at hfuel h
    simp only [List.length_append, hkey, List.length_cons] at hfuel
    -- from the key's opening quote on, the field is read the same way first or not
    have htail : ∀ sq : Input, sq.Fits → sq.rest = keyColon k ++ vb ++ R →
        (do
          bump
          let key ← readString
          expectColon
          let v ← readValueAt f depth
          readFields f depth false ((key, v) :: acc) : Read (List (String × Value))).run sq =
          .ok (((k, v) :: fs).reverse ++ acc, sq.skip (keyColon k ++ vb ++ fieldBytes false fs).length) := by
      intro sq hsq hq
      have hs1 : (sq.skip 1).rest = k.toUTF8.toList ++ 34 :: (58 :: (vb ++ R)) :=
        Input.rest_skip_length (P := [34]) (by rw [hq, hkey]; simp)
      have hs2 : ((sq.skip 1).skip (k.toUTF8.toList.length + 1)).rest = [] ++ 58 :: (vb ++ R) := by
        rw [show k.toUTF8.toList.length + 1 = (k.toUTF8.toList ++ [34]).length by simp]
        exact Input.rest_skip_length (by rw [hs1]; simp)
      have hs3 : (((sq.skip 1).skip (k.toUTF8.toList.length + 1)).skip ([].length + 1)).rest =
          vb ++ R :=
        Input.rest_skip_length (P := [58]) (R := vb ++ R) (by rw [hs2]; simp)
      have hval := readValueAt_wordField hv (((hsq.skip 1).skip _).skip _) hdepth
        (show vb.length < f by omega) hs3 (numberEnd_fieldBytes fs r)
      have hnext := @ih _ false ((k, v) :: acc) f ((((hsq.skip 1).skip _).skip _).skip _)
        (fun kv hkv => hfs kv (List.mem_cons_of_mem _ hkv)) (by omega)
        (Input.rest_skip_length hs3)
      rw [run_bind_of_ok (bump_run (show sq.rest = 34 :: (k.toUTF8.toList ++ 34 :: 58 :: (vb ++ R))
          by rw [hq, hkey]; simp)),
        run_bind_of_ok (readString_plain (by rw [hs1]) hk.plain (hsq.skip 1)),
        run_bind_of_ok (expectColon_run Blanks.nil hs2), run_bind_of_ok hval, hnext]
      simp only [Input.skip_skip, hkey, List.length_append, List.length_cons, List.length_nil,
        List.reverse_cons, List.append_assoc, List.cons_append, List.nil_append]
      congr 3
      omega
    cases first with
    | true =>
      have hq : st.rest = keyColon k ++ vb ++ R := by simpa [comma, R] using h
      have hat : st.rest = [] ++ 34 :: (k.toUTF8.toList ++ 34 :: 58 :: (vb ++ R)) := by
        rw [hq, hkey]; simp
      rw [readFields, run_bind_of_ok (skipBlank_run_cons hat Blanks.nil (by decide))]
      simp +decide only [↓reduceIte, pure_bind]
      rw [List.length_nil, Input.skip_zero, htail _ hfits hq]
      rfl
    | false =>
      have hat : st.rest = [] ++ 44 :: 34 :: (k.toUTF8.toList ++ 34 :: 58 :: (vb ++ R)) := by
        rw [h, hkey]
        simp [comma, R]
      rw [readFields, run_bind_of_ok (skipBlank_run_cons hat Blanks.nil (by decide))]
      simp +decide only [↓reduceIte]
      rw [run_bind_of_ok (bump_run (Input.rest_skip_length hat)),
        run_bind_of_ok (skipBlank_after_comma hat (by decide))]
      simp +decide only
      rw [htail _ ((hfits.skip _).skip 1) (Input.rest_skip_length (P := [44])
        (by rw [Input.rest_skip_length hat]; simp [hkey, R]))]
      simp [Input.skip_skip, hbytes, comma, Nat.add_comm]

/-- A text read whole as one value, from the reader's run over its bytes. -/
theorem parse_eq_ok_of_run {text : String} {v : Value} {st' : Input}
    (h : (do let x ← readValueAt (2 * text.toUTF8.toList.length + 2) 128; expectEnd; return x :
      Read Value).run ⟨text.toUTF8.toList, 0, text.toUTF8.toList.length⟩ = .ok (v, st')) :
    parse text = .ok v := by
  unfold parse parseBytes Read.run'
  dsimp only
  rw [h]
  rfl

/-- A document of words is read back from its text. -/
theorem parse_render_wordDoc {v : Value} (hv : v.WordDoc) : parse v.render = .ok v := by
  match v, hv with
  | .obj fs, hfs =>
    have hbytes := render_obj_bytes fun kv h => (hfs kv h).1
    set B := (Value.obj fs).render.toUTF8.toList
    set st₀ : Input := ⟨B, 0, B.length⟩
    have hfits : st₀.Fits := le_refl _
    have h₀ : st₀.rest = [] ++ 123 :: (fieldBytes true fs ++ [125]) := by
      rw [show st₀.rest = B from rfl, hbytes]
      rfl
    have h₁ : (st₀.skip 1).rest = fieldBytes true fs ++ 125 :: [] :=
      Input.rest_skip_length (P := [123]) (by rw [h₀]; rfl)
    have h₂ : ((st₀.skip 1).skip (fieldBytes true fs).length).rest = 125 :: [] :=
      Input.rest_skip_length h₁
    have hfuel : (fieldBytes true fs).length < 2 * B.length + 1 := by
      have : B.length = (fieldBytes true fs).length + 2 := by rw [hbytes]; simp
      omega
    have hfields : (readFields (2 * B.length + 1) 127 true []).run (st₀.skip 1) =
        .ok (fs.reverse ++ [], (st₀.skip 1).skip (fieldBytes true fs).length) :=
      readFields_fieldBytes (hfits.skip 1) (by decide) (fun kv h => hfs kv h) hfuel h₁
    have hval : (readValueAt (2 * B.length + 2) 128).run st₀ =
        .ok (.obj fs, ((st₀.skip 1).skip (fieldBytes true fs).length).skip 1) := by
      rw [readValueAt, run_bind_of_ok (skipBlank_run_cons h₀ Blanks.nil (by decide))]
      simp +decide only [↓reduceIte]
      rw [List.length_nil, Input.skip_zero, run_bind_of_ok (bump_run (by rw [h₀]; rfl)),
        run_bind_of_ok hfields, run_bind_of_ok (bump_run h₂)]
      simp
      rfl
    have h₃ : (((st₀.skip 1).skip (fieldBytes true fs).length).skip 1).rest = [] :=
      Input.rest_skip_length (P := [125]) h₂
    apply parse_eq_ok_of_run
    rw [run_bind_of_ok hval, run_bind_of_ok (expectEnd_run Blanks.nil h₃)]
    rfl

/-! ### A text that reads as a word -/

/-- Where the end is expected, nothing but blanks is left. -/
theorem expectEnd_blanks {u : Unit} (h : expectEnd.run st = .ok (u, st')) : Blanks st.rest := by
  unfold expectEnd at h
  rw [run_bind_of_ok (skipBlank_run st)] at h
  split at h
  · exact absurd h (not_run_eq_ok_of_yields_false (Yields.failAhead _ _))
  · rename_i hnone
    intro b hb
    exact List.dropWhile_eq_nil_iff.1 (List.head?_eq_none_iff.1 hnone) b hb

theorem Yields.ite {α : Type} {c : Prop} [Decidable c] {a b : Read α} {P : α → Prop}
    (ha : c → Yields a P) (hb : ¬c → Yields b P) : Yields (if c then a else b) P := by
  by_cases hc : c
  · rw [if_pos hc]
    exact ha hc
  · rw [if_neg hc]
    exact hb hc

/-- Two steps and then a value made from what the second read: the value meets `P` whatever was
read, as for the literals and strings of the reader. -/
theorem Yields.bind_bind_pure {α β γ : Type} {x : Read α} {y : Read β} {f : β → γ}
    {P : γ → Prop} (h : ∀ b, P (f b)) : Yields (x >>= fun _ => y >>= fun b => Pure.pure (f b)) P :=
  Yields.bind_of_forall fun _ => Yields.bind_of_forall fun b => Yields.pure (h b)

/-- A reader whose every value is other than a word never reads a word. -/
theorem not_nat_of_yields {r : Read Value} (hr : Yields r fun v => ∀ m, v ≠ .nat m) {n : Nat}
    (h : r.run st = .ok (.nat n, st')) : False :=
  hr _ _ _ h n rfl

theorem Number.toValue_eq_nat {x : Number} {n : Nat} (h : x.toValue = .nat n) : x = .nat n := by
  cases x <;> simp_all [Number.toValue]

/-- A value read as a word is the word's numeral after blanks. -/
theorem readValueAt_eq_nat {fuel depth n : Nat} (hfits : st.Fits)
    (h : (readValueAt fuel depth).run st = .ok (.nat n, st')) :
    ∃ gap, Blanks gap ∧ st.rest = gap ++ numeral n ++ st'.rest ∧ n ≤ maxWord := by
  cases fuel with
  | zero =>
    rw [readValueAt] at h
    exact absurd h (not_run_eq_ok_of_yields_false (Yields.failAhead _ _))
  | succ f =>
    rw [readValueAt] at h
    obtain ⟨o, st₁, hskip, hrest⟩ := run_bind_eq_ok.1 h
    rw [skipBlank_run] at hskip
    obtain ⟨rfl, rfl⟩ := Prod.mk.inj (Except.ok.inj hskip)
    set gap := st.rest.takeWhile isJsonBlank
    have hgap : Blanks gap := fun b hb => List.mem_takeWhile_imp hb
    have hsplit : st.rest = gap ++ (st.skip gap.length).rest := by
      rw [Input.skip_rest, drop_length_takeWhile, List.takeWhile_append_dropWhile]
    have hfits₁ : (st.skip gap.length).Fits := hfits.skip _
    split at hrest
    · exact absurd hrest (not_run_eq_ok_of_yields_false (Yields.failAhead _ _))
    rename_i b hb
    have hat : ∃ r, (st.skip gap.length).rest = b :: r := by
      rw [Input.skip_rest, drop_length_takeWhile]
      exact List.head?_eq_some_iff.1 hb
    -- the first byte picks the branch; only a number can give a word
    by_cases h110 : (b == 110) = true
    · rw [if_pos h110] at hrest
      exact (not_nat_of_yields (Yields.bind_bind_pure fun _ => by simp) hrest).elim
    rw [if_neg h110] at hrest
    by_cases h116 : (b == 116) = true
    · rw [if_pos h116] at hrest
      exact (not_nat_of_yields (Yields.bind_bind_pure fun _ => by simp) hrest).elim
    rw [if_neg h116] at hrest
    by_cases h102 : (b == 102) = true
    · rw [if_pos h102] at hrest
      exact (not_nat_of_yields (Yields.bind_bind_pure fun _ => by simp) hrest).elim
    rw [if_neg h102] at hrest
    by_cases h45 : (b == 45) = true
    · -- after a minus sign: a negative number is never a word
      rw [if_pos h45] at hrest
      obtain ⟨r, hr⟩ := hat
      rw [run_bind_of_ok (bump_run hr)] at hrest
      obtain ⟨x, hx, hxv⟩ := run_bind_pure_eq_ok.1 hrest
      exact absurd (readNumber_eq_nat (hfits₁.skip 1) (Number.toValue_eq_nat hxv ▸ hx)).1
        (by decide)
    rw [if_neg h45] at hrest
    by_cases hdigit : (digitValue b).isSome = true
    · -- a digit: the numeral of a word
      rw [if_pos hdigit] at hrest
      obtain ⟨x, hx, hxv⟩ := run_bind_pure_eq_ok.1 hrest
      obtain ⟨-, hnum, hn, -, -⟩ := readNumber_eq_nat hfits₁ (Number.toValue_eq_nat hxv ▸ hx)
      exact ⟨gap, hgap, by rw [hsplit, hnum, List.append_assoc], hn⟩
    rw [if_neg hdigit] at hrest
    by_cases h34 : (b == 34) = true
    · rw [if_pos h34] at hrest
      exact (not_nat_of_yields (Yields.bind_bind_pure fun _ => by simp) hrest).elim
    rw [if_neg h34] at hrest
    -- an array or an object, refused when nested too deep
    by_cases h91 : (b == 91) = true
    · rw [if_pos h91] at hrest
      split at hrest
      · exact absurd hrest (not_run_eq_ok_of_yields_false (Yields.failAhead _ _))
      · exact (not_nat_of_yields (Yields.bind_of_forall fun _ => Yields.bind_of_forall fun _ =>
          Yields.bind_of_forall fun _ => Yields.pure (by simp)) hrest).elim
    rw [if_neg h91] at hrest
    by_cases h123 : (b == 123) = true
    · rw [if_pos h123] at hrest
      split at hrest
      · exact absurd hrest (not_run_eq_ok_of_yields_false (Yields.failAhead _ _))
      · exact (not_nat_of_yields (Yields.bind_of_forall fun _ => Yields.bind_of_forall fun _ =>
          Yields.bind_of_forall fun _ => Yields.pure (by simp)) hrest).elim
    rw [if_neg h123] at hrest
    exact absurd hrest (not_run_eq_ok_of_yields_false (Yields.failAhead _ _))

/-- A text reads as a word exactly when it is the word's numeral with blanks around it. -/
theorem parse_eq_nat_iff {text : String} {n : Nat} :
    parse text = .ok (.nat n) ↔ ∃ gap post, Blanks gap ∧ Blanks post ∧ n ≤ maxWord ∧
      text.toUTF8.toList = gap ++ numeral n ++ post := by
  constructor
  · intro h
    obtain ⟨st', hrun⟩ := parse_eq_ok_imp h
    obtain ⟨x, st₁, hval, hend⟩ := run_bind_eq_ok.1 hrun
    obtain ⟨u, st₂, hexp, hpure⟩ := run_bind_eq_ok.1 hend
    obtain ⟨rfl, -⟩ := run_pure_eq_ok.1 hpure
    obtain ⟨gap, hgap, hsplit, hn⟩ := readValueAt_eq_nat (le_refl _) hval
    exact ⟨gap, st₁.rest, hgap, expectEnd_blanks hexp, hn, hsplit⟩
  · rintro ⟨gap, post, hgap, hpost, hn, hbytes⟩
    set st₀ : Input := ⟨text.toUTF8.toList, 0, text.toUTF8.toList.length⟩
    have hnil : NumberEnd [] := by simp [NumberEnd]
    have hend : NumberEnd post := by simpa using NumberEnd.blanks_append hpost hnil
    have hval : (readValueAt (2 * text.toUTF8.toList.length + 2) 128).run st₀ =
        .ok (.nat n, st₀.skip (gap ++ numeral n).length) :=
      readValueAt_numeral (by omega) (le_refl _) hgap hbytes hend hn
    apply parse_eq_ok_of_run
    rw [run_bind_of_ok hval, run_bind_of_ok (expectEnd_run hpost (Input.rest_skip_length hbytes))]
    rfl

/-! ### Every number read is a word -/

theorem Number.toValue_words {x : Number} (h : ∀ n, x = .nat n → n ≤ maxWord) : x.toValue.Words := by
  cases x <;> simp_all [Number.toValue, Value.Words]

/-- The reader of values, of array items and of object fields takes only words for numbers; by
induction on the fuel, which each of them hands down to the others. -/
theorem readValueAt_words (fuel : Nat) :
    (∀ depth, Yields (readValueAt fuel depth) Value.Words) ∧
    (∀ depth first (acc : List Value), (∀ v ∈ acc, v.Words) →
      Yields (readItems fuel depth first acc) fun vs => ∀ v ∈ vs, v.Words) ∧
    (∀ depth first (acc : List (String × Value)), (∀ kv ∈ acc, kv.2.Words) →
      Yields (readFields fuel depth first acc) fun fs => ∀ kv ∈ fs, kv.2.Words) := by
  induction fuel with
  | zero =>
    refine ⟨fun depth => ?_, fun depth first acc hacc => ?_, fun depth first acc hacc => ?_⟩
    · rw [readValueAt]
      exact Yields.failAhead _ _
    · rw [readItems]
      exact Yields.pure hacc
    · rw [readFields]
      exact Yields.pure hacc
  | succ f ih =>
    obtain ⟨hval, hitems, hfields⟩ := ih
    refine ⟨fun depth => ?_, fun depth first acc hacc => ?_, fun depth first acc hacc => ?_⟩
    · rw [readValueAt]
      refine Yields.bind_of_forall fun o => ?_
      split
      · exact Yields.failAhead _ _
      -- the first byte picks the branch
      refine Yields.ite (fun _ => Yields.bind_bind_pure fun _ => by simp [Value.Words]) fun _ => ?_
      refine Yields.ite (fun _ => Yields.bind_bind_pure fun _ => by simp [Value.Words]) fun _ => ?_
      refine Yields.ite (fun _ => Yields.bind_bind_pure fun _ => by simp [Value.Words]) fun _ => ?_
      refine Yields.ite (fun _ => Yields.bind_of_forall fun _ =>
        (readNumber_le true).bind fun x hx => Yields.pure (Number.toValue_words hx)) fun _ => ?_
      refine Yields.ite (fun _ =>
        (readNumber_le false).bind fun x hx => Yields.pure (Number.toValue_words hx)) fun _ => ?_
      refine Yields.ite (fun _ => Yields.bind_bind_pure fun _ => by simp [Value.Words]) fun _ => ?_
      -- arrays and objects, refused when nested too deep
      refine Yields.ite (fun _ => Yields.ite (fun _ => Yields.failAhead _ _) fun _ =>
        Yields.bind_of_forall fun _ => (hitems _ true [] (by simp)).bind fun items h =>
          Yields.bind_of_forall fun _ => Yields.pure (by simpa using h)) fun _ => ?_
      refine Yields.ite (fun _ => Yields.ite (fun _ => Yields.failAhead _ _) fun _ =>
        Yields.bind_of_forall fun _ => (hfields _ true [] (by simp)).bind fun fs h =>
          Yields.bind_of_forall fun _ => Yields.pure (by simpa using h)) fun _ => ?_
      exact Yields.failAhead _ _
    · rw [readItems]
      refine Yields.bind_of_forall fun o => ?_
      split
      · exact Yields.pure hacc
      · exact Yields.failAhead _ _
      split_ifs
      · -- after a comma
        refine Yields.bind_of_forall fun _ => Yields.bind_of_forall fun o => ?_
        split
        · exact Yields.failAhead _ _
        · exact (hval depth).bind fun v hv =>
            hitems depth false (v :: acc) (List.forall_mem_cons.2 ⟨hv, hacc⟩)
        · exact Yields.failAhead _ _
      · exact (hval depth).bind fun v hv =>
          hitems depth false (v :: acc) (List.forall_mem_cons.2 ⟨hv, hacc⟩)
      · exact Yields.failAhead _ _
    · rw [readFields]
      refine Yields.bind_of_forall fun o => ?_
      split
      · exact Yields.pure hacc
      · exact Yields.failAhead _ _
      -- a field from its key's opening quote on, after a comma or first
      have hfield : Yields (do
          bump
          let key ← readString
          expectColon
          let v ← readValueAt f depth
          readFields f depth false ((key, v) :: acc) : Read (List (String × Value)))
          fun fs => ∀ kv ∈ fs, kv.2.Words :=
        Yields.bind_of_forall fun _ => Yields.bind_of_forall fun key =>
          Yields.bind_of_forall fun _ => (hval depth).bind fun v hv =>
            hfields depth false ((key, v) :: acc) (List.forall_mem_cons.2 ⟨hv, hacc⟩)
      dsimp only
      split_ifs
      · refine Yields.bind_of_forall fun _ => Yields.bind_of_forall fun key? => ?_
        split
        · exact hfield
        all_goals exact Yields.failAhead _ _
      · refine Yields.bind_of_forall fun key? => ?_
        split
        · exact hfield
        all_goals exact Yields.failAhead _ _
      · exact Yields.failAhead _ _

/-- Every number in a text read whole is a word. -/
theorem parse_words {text : String} {v : Value} (h : parse text = .ok v) : v.Words := by
  obtain ⟨st', hrun⟩ := parse_eq_ok_imp h
  obtain ⟨x, st₁, hval, hend⟩ := run_bind_eq_ok.1 hrun
  obtain ⟨u, st₂, -, hpure⟩ := run_bind_eq_ok.1 hend
  obtain ⟨rfl, -⟩ := run_pure_eq_ok.1 hpure
  exact (readValueAt_words _).1 _ _ _ _ hval

/-! ### This library's codec -/

/-- This library's writer and reader of JSON text, as a codec. -/
def Codec.json : Codec where
  write := Value.render
  read := parse
  write_nat := render_nat
  write_arr := render_arr
  write_obj _ hfs := render_obj hfs
  read_write _ hv := parse_render_wordDoc hv
  read_eq_nat _ _ := parse_eq_nat_iff
  read_words _ _ := parse_words

end ChunkRuntime.Json
