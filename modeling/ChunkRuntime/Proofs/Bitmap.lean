import Mathlib
import ChunkRuntime.Pool.Bitmap

/-! The block map read one bit at a time. `Bitmap.bit` is the stored bit of a block, and every
operation is stated through it: marking and clearing change exactly one bit, a fresh map has
the bits below its length set, the first free block is the lowest set bit, the free count is
the number of set bits and the used list is the clear bits in ascending order.

The map is well formed (`Bitmap.Wf`) when it has one word for each started run of sixty-four
blocks and no bit at or past its length is set; a fresh map is, and marking or clearing a block
of the map keeps it so. Under it the queries speak of the first `len` bits only. -/

namespace ChunkRuntime.Bitmap

/-! ### Bits of a word -/

private theorem toUInt64_toNat_mod {b : Nat} (hb : b < 64) : b.toUInt64.toNat % 64 = b := by
  simp; omega

theorem wordBit_eq_testBit (w : UInt64) {b : Nat} (hb : b < 64) :
    wordBit w b = w.toNat.testBit b := by
  have h : ((w >>> b.toUInt64) &&& 1).toNat = w.toNat / 2 ^ b % 2 := by
    simp only [UInt64.toNat_and, UInt64.toNat_shiftRight, toUInt64_toNat_mod hb,
      UInt64.toNat_one, Nat.and_one_is_mod, Nat.shiftRight_eq_div_pow]
  rw [wordBit, Nat.testBit_eq_decide_div_mod_eq, ← h, Bool.eq_iff_iff, bne_iff_ne, ne_eq,
    ← UInt64.toNat_inj]
  have := Nat.mod_two_eq_zero_or_one (w.toNat / 2 ^ b)
  simp only [UInt64.toNat_zero, decide_eq_true_eq, h]
  omega

theorem testBit_or_single (w : UInt64) {b : Nat} (hb : b < 64) {c : Nat} (hc : c < 64) :
    (w ||| (1 : UInt64) <<< b.toUInt64).toNat.testBit c = (w.toNat.testBit c || decide (b = c)) := by
  simp only [UInt64.toNat_or, UInt64.toNat_shiftLeft, toUInt64_toNat_mod hb, Nat.testBit_or,
    UInt64.toNat_one]
  rw [Nat.testBit_mod_two_pow, Nat.one_shiftLeft, Nat.testBit_two_pow]
  simp [hc]

theorem testBit_and_not_single (w : UInt64) {b : Nat} (hb : b < 64) {c : Nat} (hc : c < 64) :
    (w &&& ~~~((1 : UInt64) <<< b.toUInt64)).toNat.testBit c =
      (w.toNat.testBit c && !decide (b = c)) := by
  rw [← UInt64.toNat_toBitVec, BitVec.testBit_toNat, ← UInt64.toNat_toBitVec, BitVec.testBit_toNat]
  simp only [UInt64.toBitVec_and, UInt64.toBitVec_not, UInt64.toBitVec_shiftLeft,
    BitVec.getLsbD_and, BitVec.getLsbD_not, BitVec.getLsbD_shiftLeft']
  simp only [hc, decide_true, Bool.true_and, UInt64.toBitVec_one]
  congr 1
  by_cases h : b = c <;> simp [h] <;> omega

theorem testBit_of_le (w : UInt64) {c : Nat} (hc : 64 ≤ c) : w.toNat.testBit c = false :=
  Nat.testBit_lt_two_pow (lt_of_lt_of_le w.toNat_lt (Nat.pow_le_pow_right (by omega) hc))

theorem ne_zero_iff_testBit (w : UInt64) : w ≠ 0 ↔ ∃ b < 64, w.toNat.testBit b := by
  constructor
  · intro hw
    obtain ⟨b, hb⟩ := Nat.exists_testBit_of_ne_zero (by simpa [← UInt64.toNat_inj] using hw)
    by_cases hlt : b < 64
    · exact ⟨b, hlt, hb⟩
    · rw [testBit_of_le w (by omega)] at hb
      contradiction
  · rintro ⟨b, -, hb⟩ rfl
    simp at hb

/-- The low bit of a word, and its bits after a shift by one. -/
theorem and_one_ne_zero (w : UInt64) : (w &&& 1 != 0) = w.toNat.testBit 0 := by
  have := wordBit_eq_testBit w (b := 0) (by omega)
  simpa [wordBit] using this

theorem testBit_shiftRight_one (w : UInt64) (b : Nat) :
    (w >>> (1 : UInt64)).toNat.testBit b = w.toNat.testBit (b + 1) := by
  simp [Nat.testBit_shiftRight, Nat.add_comm]

theorem testBit_lowMask {n : Nat} (hn : n < 64) (b : Nat) :
    (lowMask n).toNat.testBit b = decide (b < n) := by
  have hpow : ((1 : UInt64) <<< n.toUInt64).toNat = 2 ^ n := by
    rw [UInt64.toNat_shiftLeft, toUInt64_toNat_mod hn, UInt64.toNat_one, Nat.one_shiftLeft,
      Nat.mod_eq_of_lt (Nat.pow_lt_pow_right (by omega) hn)]
  have h : (lowMask n).toNat = 2 ^ n - 1 := by
    rw [lowMask, UInt64.toNat_sub_of_le _ _ (by rw [UInt64.le_iff_toNat_le, hpow]; exact Nat.one_le_two_pow),
      hpow, UInt64.toNat_one]
  rw [h, Nat.testBit_two_pow_sub_one]

theorem testBit_allOnes {b : Nat} (hb : b < 64) : (0 - 1 : UInt64).toNat.testBit b = true := by
  have h : (0 - 1 : UInt64).toNat = 2 ^ 64 - 1 := by decide
  rw [h, Nat.testBit_two_pow_sub_one]
  simpa using hb

/-! ### Bits of a run of words -/

/-- Bit `i` of a run of words, sixty-four to a word and low bits first; past the run every bit
is clear. -/
def wordsBit : List UInt64 → Nat → Bool
  | [], _ => false
  | w :: ws, i => if i < 64 then w.toNat.testBit i else wordsBit ws (i - 64)

@[simp] theorem wordsBit_nil (i : Nat) : wordsBit [] i = false := rfl

theorem wordsBit_cons_add (w : UInt64) (ws : List UInt64) (i : Nat) :
    wordsBit (w :: ws) (64 + i) = wordsBit ws i := by
  simp [wordsBit]

theorem wordsBit_eq_getD (ws : List UInt64) (i : Nat) :
    ((ws[i / 64]?).getD 0).toNat.testBit (i % 64) = wordsBit ws i := by
  induction ws generalizing i with
  | nil => simp [wordsBit]
  | cons w ws ih =>
    by_cases hi : i < 64
    · simp [wordsBit, hi, Nat.div_eq_of_lt hi, Nat.mod_eq_of_lt hi]
    · have hdiv : i / 64 = (i - 64) / 64 + 1 := by omega
      have hmod : i % 64 = (i - 64) % 64 := by omega
      rw [hdiv, hmod, List.getElem?_cons_succ, ih]
      simp [wordsBit, hi]

/-- The runs of words past the end of a run. -/
theorem wordsBit_of_le (ws : List UInt64) {i : Nat} (hi : 64 * ws.length ≤ i) :
    wordsBit ws i = false := by
  rw [← wordsBit_eq_getD, List.getElem?_eq_none (by omega)]
  simp

theorem wordsBit_replicate_append (k : Nat) (w : UInt64) (ws : List UInt64) (i : Nat) :
    wordsBit (List.replicate k w ++ ws) i =
      if i < 64 * k then w.toNat.testBit (i % 64) else wordsBit ws (i - 64 * k) := by
  induction k generalizing i with
  | zero => simp
  | succ k ih =>
    rw [List.replicate_succ, List.cons_append]
    by_cases hi : i < 64
    · simp [wordsBit, hi, Nat.mod_eq_of_lt hi, show i < 64 * (k + 1) by omega]
    · simp only [wordsBit, hi, ↓reduceIte, ih]
      have hmod : (i - 64) % 64 = i % 64 := by omega
      by_cases hk : i - 64 < 64 * k
      · simp [hk, show i < 64 * (k + 1) by omega, hmod]
      · simp [hk, show ¬ i < 64 * (k + 1) by omega, show i - 64 - 64 * k = i - 64 * (k + 1) by omega]

/-! ### The stored bit of a block -/

theorem bit_eq_wordsBit (m : Bitmap) (i : Nat) : m.bit i = wordsBit m.chunks.toList i := by
  rw [bit, chunkBits, wordBit_eq_testBit _ (Nat.mod_lt _ (by decide)), ← wordsBit_eq_getD]
  simp

theorem bit_of_le_size (m : Bitmap) {i : Nat} (hi : 64 * m.chunks.size ≤ i) : m.bit i = false := by
  rw [bit_eq_wordsBit, wordsBit_of_le _ (by simpa using hi)]

private theorem mod_lt_64 (i : Nat) : i % 64 < 64 := Nat.mod_lt _ (by decide)

theorem bit_mark (m : Bitmap) {i : Nat} (hi : i < 64 * m.chunks.size) (j : Nat) :
    (m.mark i).bit j = (m.bit j || decide (i = j)) := by
  simp only [bit, mark, chunkBits, Array.getD_eq_getD_getElem?, Array.getElem?_modify]
  by_cases hk : i / 64 = j / 64
  · have hlt : j / 64 < m.chunks.size := by omega
    rw [if_pos hk, Array.getElem?_eq_getElem hlt, Option.map_some, Option.getD_some,
      Option.getD_some, wordBit_eq_testBit _ (mod_lt_64 j), wordBit_eq_testBit _ (mod_lt_64 j),
      testBit_or_single _ (mod_lt_64 i) (mod_lt_64 j)]
    congr 1
    simp only [decide_eq_decide]
    omega
  · have hij : i ≠ j := fun h => hk (h ▸ rfl)
    simp [hk, hij]

theorem bit_clear (m : Bitmap) (i j : Nat) : (m.clear i).bit j = (m.bit j && !decide (i = j)) := by
  simp only [bit, clear, chunkBits, Array.getD_eq_getD_getElem?, Array.getElem?_modify]
  by_cases hk : i / 64 = j / 64
  · rw [if_pos hk]
    cases hw : m.chunks[j / 64]? with
    | none => simp [wordBit]
    | some w =>
      rw [Option.map_some, Option.getD_some, Option.getD_some, wordBit_eq_testBit _ (mod_lt_64 j),
        wordBit_eq_testBit _ (mod_lt_64 j), testBit_and_not_single _ (mod_lt_64 i) (mod_lt_64 j)]
      congr 2
      simp only [decide_eq_decide]
      omega
  · have hij : i ≠ j := fun h => hk (h ▸ rfl)
    simp [hk, hij]

@[simp] theorem mark_len (m : Bitmap) (i : Nat) : (m.mark i).len = m.len := rfl

@[simp] theorem clear_len (m : Bitmap) (i : Nat) : (m.clear i).len = m.len := rfl

@[simp] theorem mark_size (m : Bitmap) (i : Nat) : (m.mark i).chunks.size = m.chunks.size := by
  simp [mark]

@[simp] theorem clear_size (m : Bitmap) (i : Nat) : (m.clear i).chunks.size = m.chunks.size := by
  simp [clear]

/-- The fresh map has exactly the blocks below its length free. -/
theorem bit_new (len i : Nat) : (new len).bit i = decide (i < len) := by
  rw [bit_eq_wordsBit]
  simp only [new]
  by_cases hrem : len % chunkBits = 0
  · rw [if_pos hrem, Array.toList_replicate, ← List.append_nil (List.replicate _ _),
      wordsBit_replicate_append]
    simp only [chunkBits] at hrem ⊢
    by_cases hi : i < 64 * (len / 64)
    · simp only [hi, ↓reduceIte, testBit_allOnes (mod_lt_64 i)]
      simp; omega
    · simp only [hi, ↓reduceIte]
      simp; omega
  · rw [if_neg hrem, Array.toList_push, Array.toList_replicate, wordsBit_replicate_append]
    simp only [chunkBits] at hrem ⊢
    by_cases hi : i < 64 * (len / 64)
    · simp only [hi, ↓reduceIte, testBit_allOnes (mod_lt_64 i)]
      simp; omega
    · simp only [hi, ↓reduceIte]
      by_cases hj : i - 64 * (len / 64) < 64
      · simp only [wordsBit, hj, if_true, testBit_lowMask (mod_lt_64 len), decide_eq_decide]
        omega
      · simp [wordsBit, hj]; omega

@[simp] theorem new_len (len : Nat) : (new len).len = len := rfl

theorem new_size (len : Nat) : (new len).chunks.size = (len + 63) / 64 := by
  simp only [new]
  by_cases hrem : len % chunkBits = 0
  · rw [if_pos hrem, Array.size_replicate]
    simp only [chunkBits] at hrem ⊢
    omega
  · rw [if_neg hrem, Array.size_push, Array.size_replicate]
    simp only [chunkBits] at hrem ⊢
    omega

/-- The map holds one word for each started run of sixty-four blocks, and no bit at or past
`len` is set. -/
structure Wf (m : Bitmap) : Prop where
  size_eq : m.chunks.size = (m.len + 63) / 64
  bit_of_le : ∀ i, m.len ≤ i → m.bit i = false

variable {m : Bitmap}

theorem Wf.lt_size (h : m.Wf) {i : Nat} (hi : i < m.len) : i < 64 * m.chunks.size := by
  rw [h.size_eq]
  omega

theorem Wf.len_le (h : m.Wf) : m.len ≤ 64 * m.chunks.size := by
  rw [h.size_eq]
  omega

theorem wf_new (len : Nat) : (new len).Wf :=
  ⟨new_size len, fun i hi => by rw [bit_new]; simpa using hi⟩

theorem Wf.mark (h : m.Wf) {i : Nat} (hi : i < m.len) : (m.mark i).Wf where
  size_eq := by simpa using h.size_eq
  bit_of_le j hj := by
    rw [bit_mark m (h.lt_size hi), h.bit_of_le j (by simpa using hj)]
    simp only [mark_len] at hj
    simp only [Bool.false_or, decide_eq_false_iff_not]
    omega

theorem Wf.clear (h : m.Wf) (i : Nat) : (m.clear i).Wf where
  size_eq := by simpa using h.size_eq
  bit_of_le j hj := by
    rw [bit_clear, h.bit_of_le j (by simpa using hj), Bool.false_and]

/-! ### Checked operations -/

theorem isFree_eq (m : Bitmap) (i : Nat) :
    m.isFree i = if i < m.len then .ok (m.bit i) else .error (.blockOutOfRange i) := by
  unfold isFree check
  split <;> rfl

theorem setHigh_eq (m : Bitmap) (i : Nat) :
    m.setHigh i = if i < m.len then .ok (m.mark i) else .error (.blockOutOfRange i) := by
  unfold setHigh check
  split <;> rfl

theorem setLow_eq (m : Bitmap) (i : Nat) :
    m.setLow i = if i < m.len then .ok (m.clear i) else .error (.blockOutOfRange i) := by
  unfold setLow check
  split <;> rfl

/-! ### The first free block -/

/-- Counting trailing zeros finds the lowest set bit among the first `n`. -/
theorem trailingZeros_spec : ∀ (n : Nat) (w : UInt64), (∃ b < n, w.toNat.testBit b) →
    trailingZeros n w < n ∧ w.toNat.testBit (trailingZeros n w) ∧
      ∀ b < trailingZeros n w, w.toNat.testBit b = false
  | 0, _, ⟨_, hb, _⟩ => absurd hb (Nat.not_lt_zero _)
  | n + 1, w, ⟨b, hb, hw⟩ => by
    by_cases h0 : w.toNat.testBit 0
    · simp only [trailingZeros, and_one_ne_zero, h0, ↓reduceIte]
      exact ⟨by omega, trivial, fun _ h => absurd h (Nat.not_lt_zero _)⟩
    · have hb0 : b ≠ 0 := by rintro rfl; exact h0 hw
      have hshift : ∃ c < n, (w >>> (1 : UInt64)).toNat.testBit c := ⟨b - 1, by omega, by
        rw [testBit_shiftRight_one, Nat.sub_add_cancel (by omega)]; exact hw⟩
      obtain ⟨ht, hset, hlow⟩ := trailingZeros_spec n (w >>> (1 : UInt64)) hshift
      simp only [trailingZeros, and_one_ne_zero, h0, Bool.false_eq_true, ↓reduceIte]
      refine ⟨by omega, by rwa [← testBit_shiftRight_one], fun c hc => ?_⟩
      rcases c with _ | c
      · simpa using h0
      · rw [← testBit_shiftRight_one]
        exact hlow c (by omega)

/-- The lowest set bit of a run of words. -/
def firstSet : List UInt64 → Option Nat
  | [] => none
  | w :: ws => if w != 0 then some (trailingZeros 64 w) else (firstSet ws).map (64 + ·)

private theorem firstSet_zero_cons (ws : List UInt64) :
    firstSet (0 :: ws) = (firstSet ws).map (64 + ·) := by
  simp [firstSet]

private theorem wordsBit_zero_cons (ws : List UInt64) (i : Nat) :
    wordsBit (0 :: ws) i = if i < 64 then false else wordsBit ws (i - 64) := by
  simp [wordsBit]

theorem firstSet_eq_none_iff (ws : List UInt64) : firstSet ws = none ↔ ∀ i, wordsBit ws i = false := by
  induction ws with
  | nil => simp [firstSet]
  | cons w ws ih =>
    by_cases hw : w = 0
    · subst hw
      rw [firstSet_zero_cons, Option.map_eq_none_iff, ih]
      constructor
      · intro h i
        rw [wordsBit_zero_cons]
        split
        · rfl
        · exact h _
      · intro h i
        simpa [wordsBit_cons_add] using h (64 + i)
    · obtain ⟨b, hb, hset⟩ := (ne_zero_iff_testBit w).1 hw
      simp only [firstSet, bne_iff_ne, ne_eq, hw, not_false_eq_true, ↓reduceIte, reduceCtorEq,
        false_iff, not_forall]
      exact ⟨b, by simp [wordsBit, hb, hset]⟩

theorem wordsBit_firstSet {ws : List UInt64} {i : Nat} (h : firstSet ws = some i) :
    wordsBit ws i = true ∧ ∀ j < i, wordsBit ws j = false := by
  induction ws generalizing i with
  | nil => simp [firstSet] at h
  | cons w ws ih =>
    by_cases hw : w = 0
    · subst hw
      rw [firstSet_zero_cons, Option.map_eq_some_iff] at h
      obtain ⟨k, hk, rfl⟩ := h
      obtain ⟨hset, hlow⟩ := ih hk
      refine ⟨by rwa [wordsBit_cons_add], fun j hj => ?_⟩
      rw [wordsBit_zero_cons]
      split
      · rfl
      · exact hlow _ (by omega)
    · obtain ⟨ht, hset, hlow⟩ := trailingZeros_spec 64 w ((ne_zero_iff_testBit w).1 hw)
      simp only [firstSet, bne_iff_ne, ne_eq, hw, not_false_eq_true, ↓reduceIte,
        Option.some.injEq] at h
      subst h
      exact ⟨by simp [wordsBit, ht, hset], fun j hj => by simp [wordsBit, show j < 64 by omega, hlow j hj]⟩

private theorem find_zipIdx (ws : List UInt64) (k : Nat) :
    ((ws.zipIdx k).find? (·.1 != 0)).map (fun (w, j) => j * chunkBits + trailingZeros 64 w) =
      (firstSet ws).map (64 * k + ·) := by
  induction ws generalizing k with
  | nil => rfl
  | cons w ws ih =>
    by_cases hw : w = 0
    · subst hw
      simp only [List.zipIdx_cons, List.find?_cons, bne_self_eq_false, firstSet_zero_cons,
        Option.map_map, ih (k + 1)]
      congr 1
      funext x
      simp only [Function.comp]
      omega
    · simp [firstSet, hw, chunkBits, Nat.mul_comm]

theorem firstFree_eq (m : Bitmap) : m.firstFree = firstSet m.chunks.toList := by
  have h := find_zipIdx m.chunks.toList 0
  simp only [Nat.mul_zero, Nat.zero_add, Option.map_id'] at h
  exact h

theorem firstFree_eq_none_iff (m : Bitmap) : m.firstFree = none ↔ ∀ i, m.bit i = false := by
  simp only [firstFree_eq, firstSet_eq_none_iff, bit_eq_wordsBit]

theorem bit_firstFree {m : Bitmap} {i : Nat} (h : m.firstFree = some i) :
    m.bit i = true ∧ ∀ j < i, m.bit j = false := by
  simp only [bit_eq_wordsBit]
  exact wordsBit_firstSet (by rwa [← firstFree_eq])

/-! ### Counting free blocks -/

private theorem popCount_eq (w : UInt64) :
    popCount w = (List.range 64).countP (fun b => w.toNat.testBit b) :=
  List.countP_congr fun b hb => by rw [wordBit_eq_testBit _ (List.mem_range.1 hb)]

private theorem foldl_popCount (ws : List UInt64) (a : Nat) :
    ws.foldl (fun n w => n + popCount w) a = a + (ws.map popCount).sum := by
  induction ws generalizing a with
  | nil => simp
  | cons w ws ih => simp [ih, Nat.add_assoc]

private theorem sum_popCount (ws : List UInt64) :
    (ws.map popCount).sum = (List.range (64 * ws.length)).countP (wordsBit ws) := by
  induction ws with
  | nil => simp
  | cons w ws ih =>
    rw [List.map_cons, List.sum_cons, ih, List.length_cons,
      show 64 * (ws.length + 1) = 64 + 64 * ws.length by omega, List.range_add,
      List.countP_append, List.countP_map, popCount_eq]
    congr 1
    exact List.countP_congr fun b hb => by simp [wordsBit]

/-- The free count is the number of set bits of the words. -/
theorem countFree_eq (m : Bitmap) : m.countFree = (List.range (64 * m.chunks.size)).countP m.bit := by
  rw [countFree, ← Array.foldl_toList, foldl_popCount, Nat.zero_add, sum_popCount,
    Array.length_toList]
  exact List.countP_congr fun i _ => by rw [bit_eq_wordsBit]

/-- Counting over a longer range adds nothing when the bits past `n` are clear. -/
private theorem countP_range_of_le {f : Nat → Bool} {n N : Nat} (hn : n ≤ N)
    (hf : ∀ i, n ≤ i → f i = false) : (List.range N).countP f = (List.range n).countP f := by
  obtain ⟨k, rfl⟩ := Nat.exists_eq_add_of_le hn
  rw [List.range_add, List.countP_append, List.countP_map, Nat.add_eq_left, List.countP_eq_zero]
  intro i _
  simp [Function.comp, hf (n + i) (by omega)]

variable {m : Bitmap}

theorem Wf.countFree_eq (h : m.Wf) : m.countFree = (List.range m.len).countP m.bit := by
  rw [Bitmap.countFree_eq, countP_range_of_le h.len_le h.bit_of_le]

/-! ### The used list -/

private theorem filterMap_ite {α β : Type} (p : α → Bool) (f : α → β) (l : List α) :
    l.filterMap (fun a => if p a then some (f a) else none) = (l.filter p).map f := by
  induction l with
  | nil => rfl
  | cons a l ih => by_cases h : p a <;> simp [h, ih]

private theorem usedIn_eq (m : Bitmap) (w : UInt64) (k : Nat) :
    m.usedIn w k = ((List.range 64).filter
      (fun b => decide (64 * k + b < m.len) && !w.toNat.testBit b)).map (64 * k + ·) := by
  unfold usedIn
  split
  · next hw =>
    subst hw
    rw [List.filter_eq_nil_iff.2 (fun b hb => by rw [testBit_allOnes (List.mem_range.1 hb)]; simp)]
    rfl
  · rw [filterMap_ite]
    have hk : ∀ b, k * chunkBits + b = 64 * k + b := fun b => by rw [chunkBits, Nat.mul_comm]
    congr 1
    · funext b
      exact hk b
    · apply List.filter_congr
      intro b hb
      rw [wordBit_eq_testBit _ (List.mem_range.1 hb), hk b]

/-- The used blocks of the words from word `k` on, each block counted from the start of the map. -/
private theorem flatMap_usedIn (m : Bitmap) (ws : List UInt64) (k : Nat) :
    (ws.zipIdx k).flatMap (fun (w, j) => m.usedIn w j) =
      ((List.range (64 * ws.length)).filter
        (fun i => decide (64 * k + i < m.len) && !wordsBit ws i)).map (64 * k + ·) := by
  induction ws generalizing k with
  | nil => simp
  | cons w ws ih =>
    rw [List.zipIdx_cons, List.flatMap_cons, ih (k + 1)]
    dsimp only
    rw [usedIn_eq, List.length_cons,
      show 64 * (ws.length + 1) = 64 + 64 * ws.length by omega, List.range_add, List.filter_append,
      List.map_append, List.filter_map, List.map_map]
    -- the first word agrees as it stands; the rest is the same filter, one word further on
    congr 1
    congr 1
    · funext i
      simp only [Function.comp]
      omega
    · apply List.filter_congr
      intro i _
      simp only [Function.comp, wordsBit_cons_add]
      rw [show 64 * k + (64 + i) = 64 * (k + 1) + i by omega]

/-- The used list is the clear bits below the length, ascending. -/
theorem Wf.used_eq (h : m.Wf) : m.used = (List.range m.len).filter (fun i => !m.bit i) := by
  have hflat := flatMap_usedIn m m.chunks.toList 0
  simp only [Nat.mul_zero, Nat.zero_add, Array.length_toList] at hflat
  rw [used, hflat, List.map_id'' (fun _ => rfl)]
  obtain ⟨k, hk⟩ := Nat.exists_eq_add_of_le h.len_le
  have hpast : ((List.range k).map (m.len + ·)).filter
      (fun i => decide (i < m.len) && !wordsBit m.chunks.toList i) = [] :=
    List.filter_eq_nil_iff.2 fun i hi => by
      obtain ⟨j, -, rfl⟩ := List.mem_map.1 hi
      simp
  rw [hk, List.range_add, List.filter_append, hpast, List.append_nil]
  apply List.filter_congr
  intro i hi
  simp [List.mem_range.1 hi, bit_eq_wordsBit]

end ChunkRuntime.Bitmap
