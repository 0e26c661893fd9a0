import ChunkRuntime.Proofs.Bitmap
import ChunkRuntime.Pool.Blocks

/-! What each operation of a block pool does, once and for all, over any memory calls. A pool
made by `init` keeps `Pool.Inv`: a well-formed map, blocks of whole pages, a region exactly as
long as its blocks and within the word. Under it every block's range passes the region's
check, so handing out the first free block commits exactly that block's bytes and clears its
bit, and giving back a block in use decommits exactly its bytes and sets its bit again. The
remaining outcomes are the ones the pool's interface names: no block for a wrong size or a full
map, a fault for an address outside the blocks or for a block already free. -/

namespace ChunkRuntime.Pool

variable {μ : Type} (mem : MemoryOps μ) (m : μ)

/-- What a pool made by `init` keeps. -/
structure Inv (p : Pool) : Prop where
  wf : p.bitmap.Wf
  blockSize_pos : 0 < p.blockSize
  page_dvd : pageSize ∣ p.blockSize
  region_size : p.region.size = p.capacity * p.blockSize
  region_lt : p.region.size < wordLimit

/-- The address of a block, from the region's start. -/
theorem addressOf_eq (p : Pool) (i : Nat) : p.addressOf i = p.region.base + i * p.blockSize := rfl

/-! ### Building a pool -/

theorem roundUp_eq {n k : Nat} (hk : 0 < k) :
    roundUp n k = if n + k < wordLimit then .ok (k * ((n + k - 1) / k)) else .error .addOverflow := by
  unfold roundUp addWord subWord divWord
  by_cases h : n + k < wordLimit
  · simp [h, show 1 ≤ n + k by omega, show k ≠ 0 by omega, bind, Except.bind, pure, Except.pure]
  · simp [h, bind, Except.bind]

/-- Rounding a multiple up leaves it as it is, when the sum it computes fits the word. -/
theorem roundUp_of_dvd {n k : Nat} (hk : 0 < k) (hdvd : k ∣ n) :
    roundUp n k = if n + k < wordLimit then .ok n else .error .addOverflow := by
  obtain ⟨q, rfl⟩ := hdvd
  have hq : (k * q + k - 1) / k = q := by
    rw [Nat.div_eq_iff hk]
    constructor
    · rw [Nat.mul_comm]
      omega
    · rw [Nat.mul_comm]
  rw [roundUp_eq hk, hq]

/-- A pool is made exactly for the geometries that validate, whose size rounds to pages within
the word and whose region the system maps, with every block free. -/
theorem init_eq_ok {map : Nat → Except Nat Nat} {g : Geometry} {p : Pool} (h : Pool.init map g = .ok p) :
    ∃ base, map g.maxSize = .ok base ∧ p.region = ⟨base, g.maxSize⟩ ∧
      p.bitmap = Bitmap.new (g.maxSize / g.blockSize) ∧ p.blockSize = g.blockSize ∧
      pageSize ∣ g.blockSize ∧ 0 < g.blockSize ∧ g.blockSize ∣ g.maxSize ∧
      g.maxSize + pageSize < wordLimit := by
  unfold Pool.init Geometry.validate Halt.ofError at h
  by_cases hv : (isMultipleOf g.blockSize pageSize && isMultipleOf g.maxSize g.blockSize) = true
  · rw [Bool.and_eq_true, isMultipleOf_iff, isMultipleOf_iff] at hv
    obtain ⟨⟨hpage, hbs, hpdvd⟩, ⟨-, hmax, hbdvd⟩⟩ := hv
    simp only [Bool.and_eq_true, isMultipleOf_iff, hpage, hbs, hpdvd, ne_eq, not_false_eq_true,
      hmax, hbdvd, and_self, ↓reduceIte] at h
    unfold Region.reserve at h
    rw [roundUp_of_dvd (by decide) (Nat.dvd_trans hpdvd hbdvd)] at h
    -- the size is rounded to itself unless the rounding overflows, and then the system maps it
    by_cases hw : g.maxSize + pageSize < wordLimit
    · cases hmap : map g.maxSize with
      | error e => simp [hmax, hw, hmap, Halt.ofFault, bind, Except.bind, throw, throwThe,
          MonadExceptOf.throw] at h
      | ok base =>
        simp [hmax, hw, hmap, Halt.ofFault, bind, Except.bind, pure, Except.pure] at h
        subst h
        exact ⟨base, rfl, rfl, rfl, rfl, hpdvd, Nat.pos_of_ne_zero hbs, hbdvd, hw⟩
    · simp [hmax, hw, Halt.ofFault, bind, Except.bind] at h
  · simp only [hv, Bool.false_eq_true, ↓reduceIte] at h
    cases h

theorem inv_of_init {map : Nat → Except Nat Nat} {g : Geometry} {p : Pool} (h : Pool.init map g = .ok p) :
    p.Inv := by
  obtain ⟨base, -, hr, hb, hbs, hpage, hpos, hdvd, hw⟩ := init_eq_ok h
  have hcap : p.capacity = g.maxSize / g.blockSize := by simp [capacity, hb]
  refine ⟨hb ▸ Bitmap.wf_new _, hbs ▸ hpos, hbs ▸ hpage, ?_, ?_⟩
  · rw [hr, hcap, hbs, Nat.div_mul_cancel hdvd]
  · rw [hr]
    simp only
    omega

/-! ### Ranges of blocks -/

variable {p : Pool}

theorem Inv.lt_capacity_of_bit (hp : p.Inv) {i : Nat} (h : p.bitmap.bit i = true) : i < p.capacity := by
  by_contra hge
  rw [hp.wf.bit_of_le i (by simpa [capacity] using hge)] at h
  contradiction

/-- Every block's range is page aligned and inside the region. -/
theorem Inv.checkRange_block (hp : p.Inv) {i : Nat} (hi : i < p.capacity) :
    p.region.checkRange (i * p.blockSize) p.blockSize = .ok () := by
  have hend : i * p.blockSize + p.blockSize ≤ p.region.size := by
    have := Nat.mul_le_mul_right p.blockSize hi
    rw [Nat.succ_mul] at this
    rw [hp.region_size]
    exact this
  have halign : i * p.blockSize % pageSize = 0 ∧ p.blockSize % pageSize = 0 :=
    ⟨Nat.mod_eq_zero_of_dvd (Nat.dvd_trans hp.page_dvd (Nat.dvd_mul_left _ _)), Nat.mod_eq_zero_of_dvd hp.page_dvd⟩
  have hword := hp.region_lt
  unfold Region.checkRange
  rw [if_neg (by omega), if_pos (by omega)]

/-- An address falls in a block exactly when it lies in the blocks' span, and then in the
block its offset gives. -/
theorem blockIndex_eq (p : Pool) (addr : Nat) :
    p.blockIndex addr = if p.region.base ≤ addr ∧ addr < p.region.base + p.capacity * p.blockSize
      then some ((addr - p.region.base) / p.blockSize) else none := by
  unfold blockIndex base
  by_cases hlo : addr < p.region.base
  · rw [if_pos hlo, if_neg (by omega)]
  · by_cases hhi : p.capacity * p.blockSize ≤ addr - p.region.base
    · rw [if_neg hlo, if_pos hhi, if_neg (by omega)]
    · rw [if_neg hlo, if_neg hhi, if_pos (by omega)]

theorem Inv.lt_capacity_of_blockIndex (hp : p.Inv) {addr i : Nat} (h : p.blockIndex addr = some i) :
    i < p.capacity := by
  rw [blockIndex_eq] at h
  split at h
  · next hin =>
    cases h
    exact (Nat.div_lt_iff_lt_mul hp.blockSize_pos).2 (by omega)
  · cases h

/-- A block's start falls in that block. -/
theorem Inv.blockIndex_addressOf (hp : p.Inv) {i : Nat} (hi : i < p.capacity) :
    p.blockIndex (p.addressOf i) = some i := by
  have hlt : i * p.blockSize < p.capacity * p.blockSize := Nat.mul_lt_mul_of_pos_right hi hp.blockSize_pos
  rw [blockIndex_eq, addressOf_eq, if_pos (by omega), Nat.add_sub_cancel_left,
    Nat.mul_div_cancel _ hp.blockSize_pos]

theorem Inv.addressOf_inj (hp : p.Inv) {i j : Nat} : p.addressOf i = p.addressOf j ↔ i = j := by
  rw [addressOf_eq, addressOf_eq, Nat.add_left_cancel_iff]
  exact Nat.mul_left_inj hp.blockSize_pos.ne'

theorem Inv.addressOf_lt (hp : p.Inv) {i : Nat} (hi : i < p.capacity) :
    p.addressOf i < p.region.base + p.region.size := by
  have hlt : i * p.blockSize < p.capacity * p.blockSize := Nat.mul_lt_mul_of_pos_right hi hp.blockSize_pos
  rw [addressOf_eq, hp.region_size]
  omega

/-- An address at or past the region's end falls in no block. -/
theorem Inv.blockIndex_of_le (hp : p.Inv) {addr : Nat} (h : p.region.base + p.region.size ≤ addr) :
    p.blockIndex addr = none := by
  rw [blockIndex_eq, if_neg]
  rw [hp.region_size] at h
  omega

/-- An address is a block in use when it falls in a block whose bit is clear. -/
theorem isAllocated_iff {addr : Nat} :
    p.isAllocated addr = true ↔ ∃ i, p.blockIndex addr = some i ∧ p.bitmap.bit i = false := by
  unfold isAllocated
  split <;> simp_all

/-- An address falls in a block exactly when it lies between the block's start and its end. -/
theorem Inv.blockIndex_eq_some_iff (hp : p.Inv) {i : Nat} (hi : i < p.capacity) (x : Nat) :
    p.blockIndex x = some i ↔ p.addressOf i ≤ x ∧ x < p.addressOf i + p.blockSize := by
  have hpos := hp.blockSize_pos
  have hle : (i + 1) * p.blockSize ≤ p.capacity * p.blockSize := Nat.mul_le_mul_right _ hi
  rw [Nat.succ_mul] at hle
  rw [blockIndex_eq, addressOf_eq]
  split
  · next hin =>
    rw [Option.some.injEq]
    constructor
    · rintro rfl
      have h1 := Nat.div_mul_le_self (x - p.region.base) p.blockSize
      have h2 := Nat.lt_div_mul_add (a := x - p.region.base) hpos
      omega
    · rintro ⟨h1, h2⟩
      apply Nat.div_eq_of_lt_le
      · omega
      · rw [Nat.succ_mul]
        omega
  · next hout =>
    simp only [reduceCtorEq, false_iff]
    omega

theorem le_of_blockIndex {x i : Nat} (h : p.blockIndex x = some i) : p.region.base ≤ x := by
  rw [blockIndex_eq] at h
  split at h
  · next hin => exact hin.1
  · cases h

theorem Inv.lt_of_blockIndex (hp : p.Inv) {x i : Nat} (h : p.blockIndex x = some i) :
    x < p.region.base + p.region.size := by
  rw [blockIndex_eq] at h
  split at h
  · next hin => rw [hp.region_size]; omega
  · cases h

/-! ### Handing out and giving back -/

theorem commitIn_of_checkRange {r : Region} {o l : Nat} (h : r.checkRange o l = .ok ()) :
    r.commitIn mem o l m = .ok (mem.protect m (r.base + o) l true) := by
  unfold Region.commitIn
  rw [h]
  rfl

theorem decommitIn_of_checkRange {r : Region} {o l : Nat} (h : r.checkRange o l = .ok ()) :
    r.decommitIn mem o l m =
      .ok (mem.protect (mem.discard m (r.base + o) l) (r.base + o) l false) := by
  unfold Region.decommitIn
  rw [h]
  rfl

theorem allocIn_of_ne {size : Nat} (h : size ≠ p.blockSize) : p.allocIn mem size m = .ok (none, p, m) := by
  unfold allocIn
  rw [if_pos h]

theorem allocIn_of_full {size : Nat} (h : p.bitmap.firstFree = none) :
    p.allocIn mem size m = .ok (none, p, m) := by
  unfold allocIn
  split
  · rfl
  · rw [h]

/-- Handing out the first free block commits exactly its bytes and marks it in use. -/
theorem allocIn_of_firstFree (hp : p.Inv) {i : Nat} (h : p.bitmap.firstFree = some i) :
    p.allocIn mem p.blockSize m = .ok (some (p.addressOf i), { p with bitmap := p.bitmap.clear i },
      mem.protect m (p.addressOf i) p.blockSize true) := by
  have hi : i < p.capacity := hp.lt_capacity_of_bit (Bitmap.bit_firstFree h).1
  unfold allocIn
  rw [if_neg (fun h => h rfl), h]
  dsimp only
  rw [commitIn_of_checkRange mem m (hp.checkRange_block hi), Bitmap.setLow_eq,
    if_pos (by simpa [capacity] using hi)]
  rfl

theorem freeIn_of_blockIndex_none {addr : Nat} (h : p.blockIndex addr = none) :
    p.freeIn mem addr m = .error .foreignFree := by
  unfold freeIn
  rw [h]

/-- Giving back a block that is already free faults. -/
theorem freeIn_of_free (hp : p.Inv) {addr i : Nat} (h : p.blockIndex addr = some i)
    (hb : p.bitmap.bit i = true) : p.freeIn mem addr m = .error (.doubleFree i) := by
  have hi : i < p.bitmap.len := hp.lt_capacity_of_blockIndex h
  unfold freeIn
  rw [h]
  dsimp only
  rw [Bitmap.isFree_eq, if_pos hi, hb]
  rfl

/-- Giving back a block in use decommits exactly its bytes and marks it free. -/
theorem freeIn_of_used (hp : p.Inv) {addr i : Nat} (h : p.blockIndex addr = some i)
    (hb : p.bitmap.bit i = false) :
    p.freeIn mem addr m = .ok ({ p with bitmap := p.bitmap.mark i },
      mem.protect (mem.discard m (p.addressOf i) p.blockSize) (p.addressOf i) p.blockSize false) := by
  have hi : i < p.capacity := hp.lt_capacity_of_blockIndex h
  have hlen : i < p.bitmap.len := hi
  unfold freeIn
  rw [h]
  dsimp only
  rw [Bitmap.isFree_eq, if_pos hlen, hb]
  simp only [bind, Except.bind, pure, Except.pure, Bool.false_eq_true, ↓reduceIte]
  rw [decommitIn_of_checkRange mem m (hp.checkRange_block hi), Bitmap.setHigh_eq, if_pos hlen]
  rfl

/-- A request answers with no block and changes nothing, or hands out the first free block. -/
theorem Inv.allocIn_cases (hp : p.Inv) (size : Nat) :
    p.allocIn mem size m = .ok (none, p, m) ∨
      ∃ i, p.bitmap.firstFree = some i ∧ size = p.blockSize ∧
        p.allocIn mem size m = .ok (some (p.addressOf i), { p with bitmap := p.bitmap.clear i },
          mem.protect m (p.addressOf i) p.blockSize true) := by
  by_cases hs : size = p.blockSize
  · cases hf : p.bitmap.firstFree with
    | none => exact .inl (allocIn_of_full mem m hf)
    | some i =>
      subst hs
      exact .inr ⟨i, rfl, rfl, allocIn_of_firstFree mem m hp hf⟩
  · exact .inl (allocIn_of_ne mem m hs)

/-- Giving back succeeds only for a block in use, which it decommits and marks free. -/
theorem Inv.freeIn_eq_ok (hp : p.Inv) {addr : Nat} {q : Pool} {m' : μ}
    (h : p.freeIn mem addr m = .ok (q, m')) :
    ∃ i, p.blockIndex addr = some i ∧ p.bitmap.bit i = false ∧
      q = { p with bitmap := p.bitmap.mark i } ∧
      m' = mem.protect (mem.discard m (p.addressOf i) p.blockSize) (p.addressOf i) p.blockSize false := by
  cases hi : p.blockIndex addr with
  | none => rw [freeIn_of_blockIndex_none mem m hi] at h; cases h
  | some i =>
    cases hb : p.bitmap.bit i with
    | true => rw [freeIn_of_free mem m hp hi hb] at h; cases h
    | false =>
      rw [freeIn_of_used mem m hp hi hb] at h
      cases h
      exact ⟨i, rfl, hb, rfl, rfl⟩

/-! ### The same without recorded memory -/

theorem alloc_of_ne {size : Nat} (h : size ≠ p.blockSize) : p.alloc size = .ok (none, p) := by
  rw [alloc, allocIn_of_ne _ _ h]
  rfl

theorem alloc_of_full {size : Nat} (h : p.bitmap.firstFree = none) : p.alloc size = .ok (none, p) := by
  rw [alloc, allocIn_of_full _ _ h]
  rfl

theorem alloc_of_firstFree (hp : p.Inv) {i : Nat} (h : p.bitmap.firstFree = some i) :
    p.alloc p.blockSize = .ok (some (p.addressOf i), { p with bitmap := p.bitmap.clear i }) := by
  rw [alloc, allocIn_of_firstFree _ _ hp h]
  rfl

theorem free_of_blockIndex_none {addr : Nat} (h : p.blockIndex addr = none) :
    p.free addr = .error .foreignFree := by
  rw [free, freeIn_of_blockIndex_none _ _ h]
  rfl

theorem free_of_free (hp : p.Inv) {addr i : Nat} (h : p.blockIndex addr = some i)
    (hb : p.bitmap.bit i = true) : p.free addr = .error (.doubleFree i) := by
  rw [free, freeIn_of_free _ _ hp h hb]
  rfl

theorem free_of_used (hp : p.Inv) {addr i : Nat} (h : p.blockIndex addr = some i)
    (hb : p.bitmap.bit i = false) : p.free addr = .ok { p with bitmap := p.bitmap.mark i } := by
  rw [free, freeIn_of_used _ _ hp h hb]
  rfl

/-! ### The invariant after a step -/

@[simp] theorem blockIndex_clear (p : Pool) (i addr : Nat) :
    { p with bitmap := p.bitmap.clear i }.blockIndex addr = p.blockIndex addr := rfl

@[simp] theorem blockIndex_mark (p : Pool) (i addr : Nat) :
    { p with bitmap := p.bitmap.mark i }.blockIndex addr = p.blockIndex addr := rfl


theorem Inv.clear (hp : p.Inv) (i : Nat) : { p with bitmap := p.bitmap.clear i }.Inv where
  wf := hp.wf.clear i
  blockSize_pos := hp.blockSize_pos
  page_dvd := hp.page_dvd
  region_size := hp.region_size
  region_lt := hp.region_lt

theorem Inv.mark (hp : p.Inv) {i : Nat} (hi : i < p.capacity) : { p with bitmap := p.bitmap.mark i }.Inv where
  wf := hp.wf.mark hi
  blockSize_pos := hp.blockSize_pos
  page_dvd := hp.page_dvd
  region_size := hp.region_size
  region_lt := hp.region_lt

end ChunkRuntime.Pool
