import Mathlib
import ChunkRuntime.Proofs.Bitmap

/-! The block map read as the list of its blocks' flags, `true` for a free block. A fresh map of
`len` blocks reads as `len` free flags, and marking or clearing a block sets its flag. On a
well-formed map every query answers what the list answers (`Wf.reads`): a block's state is its
flag, the first free block is the first `true`, the counts are the numbers of `true` and `false`
flags, the used list is the positions of the `false` ones in order, and the picture draws one
character a flag. Whatever blocks are marked and cleared after `new`, in any order and with any
index, the map stays well formed and reads as the list the same calls leave
(`Call.run_reads`); a call past the end faults and leaves the map as it was. -/

namespace ChunkRuntime.Bitmap

/-- The blocks of a map in order, `true` for a free one. -/
def flags (m : Bitmap) : List Bool := (List.range m.len).map m.bit

/-- How a block is drawn: `.` free, `#` in use. -/
def glyph (free : Bool) : Char := if free then '.' else '#'

@[simp] theorem length_flags (m : Bitmap) : m.flags.length = m.len := by simp [flags]

theorem getElem_flags (m : Bitmap) {i : Nat} (hi : i < m.flags.length) : m.flags[i] = m.bit i := by
  simp [flags]

theorem getElem?_flags (m : Bitmap) {i : Nat} (hi : i < m.len) : m.flags[i]? = some (m.bit i) := by
  simp [flags, hi]

theorem flags_new (len : Nat) : (new len).flags = List.replicate len true := by
  apply List.ext_getElem (by simp)
  intro i h1 h2
  simp only [getElem_flags, bit_new, List.getElem_replicate]
  simpa using h1

theorem flags_mark {m : Bitmap} (h : m.Wf) {i : Nat} (hi : i < m.len) :
    (m.mark i).flags = m.flags.set i true := by
  apply List.ext_getElem (by simp)
  intro j h1 h2
  rw [getElem_flags, bit_mark m (h.lt_size hi), List.getElem_set]
  by_cases hij : i = j
  · simp [hij]
  · simp [hij, getElem_flags]

theorem flags_clear (m : Bitmap) (i : Nat) : (m.clear i).flags = m.flags.set i false := by
  apply List.ext_getElem (by simp)
  intro j h1 h2
  rw [getElem_flags, bit_clear, List.getElem_set]
  by_cases hij : i = j
  · simp [hij]
  · simp [hij, getElem_flags]

/-- Pushing one character for each of `l` onto a text appends their characters. -/
theorem foldl_push_toList (g : Nat → Char) (l : List Nat) (s : String) :
    (l.foldl (fun s i => s.push (g i)) s).toList = s.toList ++ l.map g := by
  induction l generalizing s with
  | nil => simp
  | cons i l ih => simp [ih]

theorem picture_eq (m : Bitmap) :
    m.picture = "BlockBitmap[" ++ String.ofList (m.flags.map glyph) ++ "]" := by
  apply String.toList_inj.1
  simp only [picture, String.toList_push, foldl_push_toList, String.toList_append,
    String.toList_ofList, flags, List.map_map]
  simp [Function.comp_def, glyph]

/-! ### Queries of a well-formed map -/

variable {m : Bitmap}

theorem Wf.firstFree_flags (h : m.Wf) : m.firstFree = m.flags.findIdx? id := by
  cases hf : m.firstFree with
  | none =>
    symm
    rw [List.findIdx?_eq_none_iff]
    intro x hx
    obtain ⟨i, -, rfl⟩ := List.mem_map.1 hx
    simpa using (firstFree_eq_none_iff m).1 hf i
  | some i =>
    obtain ⟨hset, hlow⟩ := bit_firstFree hf
    -- the lowest set bit is below the length, because the tail bits are clear
    have hi : i < m.len := by
      by_contra hge
      rw [h.bit_of_le i (by omega)] at hset
      cases hset
    symm
    rw [List.findIdx?_eq_some_iff_getElem]
    refine ⟨by simpa using hi, by simpa [getElem_flags] using hset, fun j hj => ?_⟩
    simp [getElem_flags, hlow j hj]

theorem Wf.countFree_flags (h : m.Wf) : m.countFree = m.flags.count true := by
  rw [h.countFree_eq, flags]
  simp [List.count_eq_countP, List.countP_map, Function.comp_def]

/-- The free count never passes the length, so the used count is the rest exactly. -/
theorem Wf.countUsed_flags (h : m.Wf) :
    m.countUsed = m.flags.count false ∧ m.countUsed + m.countFree = m.len := by
  have hsum := List.count_true_add_count_false m.flags
  rw [length_flags, ← h.countFree_flags] at hsum
  constructor <;> simp only [countUsed] <;> omega

theorem Wf.used_flags (h : m.Wf) :
    m.used = (List.range m.flags.length).filter fun i => m.flags[i]? == some false := by
  rw [h.used_eq, length_flags]
  apply List.filter_congr
  intro i hi
  rw [getElem?_flags m (List.mem_range.1 hi)]
  cases m.bit i <;> rfl

/-- What a map answers, read off the list `M` of its blocks' flags: a block's state, and a
fault past the end; marking and clearing, which set one flag, and the same fault past the end;
the first `true`; the numbers of `true` and `false`, which add up to the length; the positions
of the `false` flags in order; and the flags drawn between `BlockBitmap[` and `]`. -/
structure Reads (m : Bitmap) (M : List Bool) : Prop where
  len_eq : m.len = M.length
  isFree : ∀ i, m.isFree i = if h : i < M.length then .ok M[i] else .error (.blockOutOfRange i)
  setHigh : ∀ i, (m.setHigh i).map flags =
    if i < M.length then .ok (M.set i true) else .error (.blockOutOfRange i)
  setLow : ∀ i, (m.setLow i).map flags =
    if i < M.length then .ok (M.set i false) else .error (.blockOutOfRange i)
  firstFree : m.firstFree = M.findIdx? id
  countFree : m.countFree = M.count true
  countUsed : m.countUsed = M.count false
  countFree_le : m.countFree ≤ m.len
  used_add_free : m.countUsed + m.countFree = m.len
  used : m.used = (List.range M.length).filter fun i => M[i]? == some false
  picture : m.picture = "BlockBitmap[" ++ String.ofList (M.map glyph) ++ "]"

theorem Wf.reads (h : m.Wf) : m.Reads m.flags where
  len_eq := (length_flags m).symm
  isFree i := by
    rw [isFree_eq]
    by_cases hi : i < m.len
    · simp [hi, getElem_flags]
    · simp [hi]
  setHigh i := by
    rw [setHigh_eq, length_flags]
    by_cases hi : i < m.len
    · rw [if_pos hi, if_pos hi, ← flags_mark h hi]
      rfl
    · rw [if_neg hi, if_neg hi]
      rfl
  setLow i := by
    rw [setLow_eq, length_flags]
    by_cases hi : i < m.len
    · rw [if_pos hi, if_pos hi, ← flags_clear]
      rfl
    · rw [if_neg hi, if_neg hi]
      rfl
  firstFree := h.firstFree_flags
  countFree := h.countFree_flags
  countUsed := h.countUsed_flags.1
  countFree_le := by have := h.countUsed_flags.2; omega
  used_add_free := h.countUsed_flags.2
  used := h.used_flags
  picture := picture_eq m

/-! ### Runs of marks and clears -/

/-- A call that changes a map: mark a block free, or mark it in use. -/
inductive Call where
  | setHigh (i : Nat)
  | setLow (i : Nat)

/-- A call on a map. -/
def Call.onMap : Call → Bitmap → Except Fault Bitmap
  | .setHigh i, m => m.setHigh i
  | .setLow i, m => m.setLow i

/-- The same call on the list of flags; past the end it changes nothing. -/
def Call.onFlags : Call → List Bool → List Bool
  | .setHigh i, M => M.set i true
  | .setLow i, M => M.set i false

/-- A call on a map; one that faults leaves the map as it was. -/
def Call.apply (call : Call) (m : Bitmap) : Bitmap :=
  match call.onMap m with
  | .ok m' => m'
  | .error _ => m

/-- Calls in order, each on the map the one before left. -/
def Call.run (calls : List Call) (m : Bitmap) : Bitmap := calls.foldl (fun m c => c.apply m) m

/-- One call keeps the map well formed and sets the flag it names, if the block exists. -/
theorem Wf.apply (h : m.Wf) (call : Call) :
    (call.apply m).Wf ∧ (call.apply m).flags = call.onFlags m.flags := by
  cases call with
  | setHigh i =>
    by_cases hi : i < m.len
    · have happ : (Call.setHigh i).apply m = m.mark i := by
        simp [Call.apply, Call.onMap, setHigh_eq, hi]
      rw [happ]
      exact ⟨h.mark hi, flags_mark h hi⟩
    · have happ : (Call.setHigh i).apply m = m := by simp [Call.apply, Call.onMap, setHigh_eq, hi]
      rw [happ, Call.onFlags, List.set_eq_of_length_le (by simpa using hi)]
      exact ⟨h, rfl⟩
  | setLow i =>
    by_cases hi : i < m.len
    · have happ : (Call.setLow i).apply m = m.clear i := by
        simp [Call.apply, Call.onMap, setLow_eq, hi]
      rw [happ]
      exact ⟨h.clear i, flags_clear m i⟩
    · have happ : (Call.setLow i).apply m = m := by simp [Call.apply, Call.onMap, setLow_eq, hi]
      rw [happ, Call.onFlags, List.set_eq_of_length_le (by simpa using hi)]
      exact ⟨h, rfl⟩

/-- A run of calls keeps the map well formed and leaves the flags the same calls leave. -/
theorem Wf.run (h : m.Wf) (calls : List Call) :
    (Call.run calls m).Wf ∧ (Call.run calls m).flags = calls.foldl (fun M c => c.onFlags M) m.flags := by
  induction calls generalizing m with
  | nil => exact ⟨h, rfl⟩
  | cons call calls ih =>
    obtain ⟨hwf, hflags⟩ := h.apply call
    simp only [Call.run, List.foldl_cons, ← hflags]
    exact ih hwf

/-- Whatever blocks are marked free and in use after `new len`, in any order and with any
index, the map keeps one word for each started run of sixty-four blocks and no set bit at or
past `len`, and every query answers what the list of `len` free flags answers after the same
calls, each call past the end faulting and changing nothing. -/
theorem Call.run_reads (len : Nat) (calls : List Call) :
    (Call.run calls (new len)).Wf ∧
      (Call.run calls (new len)).Reads
        (calls.foldl (fun M c => c.onFlags M) (List.replicate len true)) := by
  obtain ⟨hwf, hflags⟩ := (wf_new len).run calls
  rw [flags_new] at hflags
  exact ⟨hwf, hflags ▸ hwf.reads⟩

end ChunkRuntime.Bitmap
