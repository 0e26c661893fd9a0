import ChunkRuntime.Proofs.Pages

/-! Resizing through the front door's default path moves a block out of the pool for good. A
block in use never grows in place: the heap is asked for the new size, the block's first bytes,
up to the smaller of the two sizes, are copied there and the block is given back; when the heap
cannot serve the size nothing changes at all, neither the map nor a byte. Null or a pointer
outside the blocks is resized by the heap alone, and the heap serves nothing in the region
(`SystemOps.Avoids`), so no resize, and no chain of resizes, brings a pointer back into the pool
(`Mapped.Reachable.migrates`).

The copy is the system's: `MemoryOps.Copies` says that a copy between ranges that do not overlap
writes each destination byte with the source byte at the same offset. -/

namespace ChunkRuntime

variable {σ μ : Type}

/-- A copy between ranges that do not overlap writes each byte of the destination with the byte
at the same offset of the source. -/
def MemoryOps.Copies (mem : MemoryOps μ) (o : Observed μ) : Prop :=
  ∀ m src dst len, (src + len ≤ dst ∨ dst + len ≤ src) →
    ∀ k < len, o.byte (mem.copy m src dst len) (dst + k) = o.byte m (src + k)

theorem Pages.copies : Pages.ops.Copies Pages.observed := by
  intro m src dst len _ k hk
  show (if dst ≤ dst + k ∧ dst + k < dst + len then m.byte (src + (dst + k - dst))
    else m.byte (dst + k)) = m.byte (src + k)
  rw [if_pos ⟨Nat.le_add_right _ _, by omega⟩, Nat.add_sub_cancel_left]

/-- Resize a pointer over and over, each time the pointer the last resize answered; answers the
last one. -/
def FrontDoor.reallocChain (S : SystemOps σ) (mem : MemoryOps μ) : FrontDoor σ → Option Nat → μ →
    List Nat → Except Fault (Option Nat × FrontDoor σ × μ)
  | d, ptr, m, [] => .ok (ptr, d, m)
  | d, ptr, m, size :: sizes => do
    let (r, d, m) ← d.defaultReallocIn S mem ptr size m
    reallocChain S mem d r m sizes

/-- What resizing does at a door whose pool is `p`, over memory `m`. -/
structure Migrates (S : SystemOps σ) (mem : MemoryOps μ) (o : Observed μ) (p : Pool) (d : FrontDoor σ)
    (m : μ) : Prop where
  /-- A block in use stays as it was, map and bytes, exactly when the heap cannot serve the
  size; otherwise it moves to the heap's answer, which is no block, its first bytes copied
  there, and the block is given back. -/
  block : ∀ i ∈ p.view.used, ∀ size, ∃ r d' m',
    d.defaultReallocIn S mem (some (p.addressOf i)) size m = .ok (r, d', m') ∧
    ((r = none ∧ (S.malloc d.sys size).1 = none ∧ d'.pool = some p ∧ m' = m) ∨
     (∃ q, r = some q ∧ (S.malloc d.sys size).1 = some q ∧ d'.isAllocated q = false ∧
       (∀ k < min p.blockSize size, o.byte m' (q + k) = o.byte m (p.addressOf i + k)) ∧
       ∃ p', d'.pool = some p' ∧ p'.view.used = p.view.used.erase i ∧
         p'.stats.allocated + 1 = p.stats.allocated))
  /-- Null or a pointer outside the blocks is resized by the heap alone, into null or a pointer
  outside the blocks. -/
  heap : ∀ ptr, (∀ a ∈ ptr, p.blockIndex a = none) → ∀ size, ∃ r d',
    d.defaultReallocIn S mem ptr size m = .ok (r, d', m) ∧ d'.pool = some p ∧
      ∀ q ∈ r, p.blockIndex q = none ∧ d'.isAllocated q = false
  /-- So does every chain of resizes from such a pointer. -/
  chain : ∀ ptr, (∀ a ∈ ptr, p.blockIndex a = none) → ∀ sizes, ∃ r d',
    d.reallocChain S mem ptr m sizes = .ok (r, d', m) ∧ d'.pool = some p ∧
      ∀ q ∈ r, p.blockIndex q = none ∧ d'.isAllocated q = false

namespace Tracks

variable {S : SystemOps σ} {mem : MemoryOps μ} {o : Observed μ} {p : Pool} {m : μ} {d : FrontDoor σ}

/-- An address apart from the region is in no block of the pool. -/
theorem blockIndex_apart (ht : Tracks o p m) {x n : Nat} (hx : p.region.Apart x n) :
    p.blockIndex x = none := by
  rcases hx with hx | ⟨-, hx⟩
  · exact ht.inv.blockIndex_of_le hx
  · rw [Pool.blockIndex_eq, if_neg (by omega)]

/-- A block ends inside the region. -/
theorem block_end_le (ht : Tracks o p m) {i : Nat} (hi : i < p.capacity) :
    p.addressOf i + p.blockSize ≤ p.region.base + p.region.size := by
  have hend : i * p.blockSize + p.blockSize ≤ p.capacity * p.blockSize := by
    rw [← Nat.succ_mul]
    exact Nat.mul_le_mul_right _ hi
  rw [ht.inv.region_size, Pool.addressOf_eq]
  omega

/-- A door over the pool's map holds no address outside the blocks as a block. -/
theorem isAllocated_out {d : FrontDoor σ} {q : Pool} (hd : d.pool = some q)
    (hq : ∀ x, q.blockIndex x = p.blockIndex x) {x : Nat} (hx : p.blockIndex x = none) :
    d.isAllocated x = false := by
  simp [FrontDoor.isAllocated, hd, Pool.isAllocated, hq, hx]

/-- No page of a block reaches an address outside the region. -/
theorem pageMeets_out (ht : Tracks o p m) {i x : Nat} (hi : i < p.capacity)
    (hx : x < p.region.base ∨ p.region.base + p.region.size ≤ x) :
    pageMeets (p.addressOf i) p.blockSize x = false := by
  have hdvd : pageSize ∣ p.addressOf i :=
    Nat.dvd_add ht.base_dvd (Nat.dvd_trans ht.inv.page_dvd (Nat.dvd_mul_left _ _))
  have hend := ht.block_end_le hi
  have hstart : p.region.base ≤ p.addressOf i := by rw [Pool.addressOf_eq]; omega
  rw [Bool.eq_false_iff, ne_eq, pageMeets_iff hdvd ht.inv.page_dvd]
  omega

/-- Giving a block back after its bytes went to the heap keeps the bytes copied there. -/
theorem byte_moved (hl : mem.Lawful o) (hc : mem.Copies o) (ht : Tracks o p m) {i b : Nat}
    (hi : i < p.capacity) {size : Nat} (hb : p.region.Apart b size) {k : Nat}
    (hk : k < min p.blockSize size) :
    o.byte (mem.protect (mem.discard (mem.copy m (p.addressOf i) b (min p.blockSize size))
        (p.addressOf i) p.blockSize) (p.addressOf i) p.blockSize false) (b + k) =
      o.byte m (p.addressOf i + k) := by
  have hend := ht.block_end_le hi
  have hstart : p.region.base ≤ p.addressOf i := by rw [Pool.addressOf_eq]; omega
  -- the heap's bytes lie past the region or before it, and so do not overlap the block
  have hsep : p.addressOf i + min p.blockSize size ≤ b ∨ b + min p.blockSize size ≤ p.addressOf i := by
    unfold Region.Apart at hb
    omega
  have hout : b + k < p.region.base ∨ p.region.base + p.region.size ≤ b + k := by
    unfold Region.Apart at hb
    omega
  rw [hl.byte_protect, hl.byte_discard, ht.pageMeets_out hi hout, if_neg Bool.false_ne_true,
    hc m _ _ _ hsep k hk]

/-- Resizing a block in use: it stays when the heap cannot serve the size, and else moves. -/
theorem realloc_block (hl : mem.Lawful o) (hc : mem.Copies o) (ht : Tracks o p m) (hS : S.Avoids p.region)
    (hd : d.pool = some p) {i : Nat} (hi : i ∈ p.view.used) (size : Nat) : ∃ r d' m',
    d.defaultReallocIn S mem (some (p.addressOf i)) size m = .ok (r, d', m') ∧
    ((r = none ∧ (S.malloc d.sys size).1 = none ∧ d'.pool = some p ∧ m' = m) ∨
     (∃ q, r = some q ∧ (S.malloc d.sys size).1 = some q ∧ d'.isAllocated q = false ∧
       (∀ k < min p.blockSize size, o.byte m' (q + k) = o.byte m (p.addressOf i + k)) ∧
       ∃ p', d'.pool = some p' ∧ p'.view.used = p.view.used.erase i ∧
         p'.stats.allocated + 1 = p.stats.allocated)) := by
  obtain ⟨hcap, hbit⟩ := Pool.mem_view_used.1 hi
  have hidx : p.blockIndex (p.addressOf i) = some i := ht.inv.blockIndex_addressOf hcap
  rcases FrontDoor.defaultReallocIn_cases S mem m hd ht.inv (some (p.addressOf i)) size with
    ⟨a, j, b, s', ha, hj, -, hm, hre⟩ | ⟨a, s', -, -, hm, hre⟩ | ⟨hfree, -⟩
  · -- the heap served the size: the block's bytes moved there and the block was given back
    obtain rfl := Option.some.inj ha
    rw [hidx, Option.some.injEq] at hj
    subst hj
    have hb : p.region.Apart b size := hS.malloc _ _ _ (by rw [hm])
    have hsize : i < 64 * p.bitmap.chunks.size := ht.inv.wf.lt_size hcap
    have hview : { p with bitmap := p.bitmap.mark i }.view.used = p.view.used.erase i := by
      rw [Pool.view_mark hsize]
    have hstats : { p with bitmap := p.bitmap.mark i }.stats.allocated + 1 = p.stats.allocated := by
      rw [(ht.inv.mark hcap).stats_eq, ht.inv.stats_eq]
      dsimp only
      rw [hview, Finset.card_erase_add_one hi]
    refine ⟨_, _, _, hre, .inr ⟨b, rfl, by rw [hm], ?_, fun k hk => ht.byte_moved hl hc hcap hb hk,
      _, rfl, hview, hstats⟩⟩
    exact isAllocated_out rfl (Pool.blockIndex_mark p i) (ht.blockIndex_apart hb)
  · -- the heap could not serve it: nothing changed
    exact ⟨_, _, _, hre, .inl ⟨rfl, by rw [hm], hd, rfl⟩⟩
  · have hused : p.isAllocated (p.addressOf i) = true := Pool.isAllocated_iff.2 ⟨i, hidx, hbit⟩
    rw [hfree _ rfl] at hused
    cases hused

/-- Resizing null or a pointer outside the blocks leaves the pool alone and answers null or a
pointer outside the blocks. -/
theorem realloc_heap (ht : Tracks o p m) (hS : S.Avoids p.region) (hd : d.pool = some p)
    {ptr : Option Nat} (hptr : ∀ a ∈ ptr, p.blockIndex a = none) (size : Nat) : ∃ r d',
    d.defaultReallocIn S mem ptr size m = .ok (r, d', m) ∧ d'.pool = some p ∧
      ∀ q ∈ r, p.blockIndex q = none ∧ d'.isAllocated q = false := by
  have hfree : ∀ q a, d.pool = some q → ptr = some a → q.isAllocated a = false := by
    intro q a hq ha
    rw [hd, Option.some.injEq] at hq
    subst hq
    simp [Pool.isAllocated, hptr a ha]
  refine ⟨_, _, FrontDoor.defaultReallocIn_of_heap S mem m size hfree, hd, fun q hq => ?_⟩
  have hout : p.blockIndex q = none := ht.blockIndex_apart (hS.realloc _ _ _ _ hq)
  exact ⟨hout, isAllocated_out hd (fun _ => rfl) hout⟩

/-- Every chain of resizes from null or a pointer outside the blocks stays out of the pool. -/
theorem reallocChain_heap (ht : Tracks o p m) (hS : S.Avoids p.region) :
    ∀ {d : FrontDoor σ} (sizes : List Nat) {ptr : Option Nat},
    d.pool = some p → (∀ a ∈ ptr, p.blockIndex a = none) → ∃ r d',
      d.reallocChain S mem ptr m sizes = .ok (r, d', m) ∧ d'.pool = some p ∧
        ∀ q ∈ r, p.blockIndex q = none ∧ d'.isAllocated q = false
  | d, [], ptr, hd, hptr =>
    ⟨ptr, d, rfl, hd, fun q hq => ⟨hptr q hq, isAllocated_out hd (fun _ => rfl) (hptr q hq)⟩⟩
  | d, size :: sizes, _, hd, hptr => by
    obtain ⟨r, d₁, hre, hd₁, hr⟩ := ht.realloc_heap hS hd hptr size
    obtain ⟨r', d', hchain, hd', hr'⟩ := reallocChain_heap ht hS sizes hd₁ fun q hq => (hr q hq).1
    refine ⟨r', d', ?_, hd', hr'⟩
    simp only [FrontDoor.reallocChain, bind, Except.bind]
    rw [hre]
    exact hchain

theorem realloc_migrates (hl : mem.Lawful o) (hc : mem.Copies o) (ht : Tracks o p m)
    (hS : S.Avoids p.region) (hd : d.pool = some p) : Migrates S mem o p d m where
  block _ hi size := ht.realloc_block hl hc hS hd hi size
  heap _ hptr size := ht.realloc_heap hS hd hptr size
  chain _ hptr sizes := ht.reallocChain_heap hS sizes hd hptr

end Tracks

variable {S : SystemOps σ} {mem : MemoryOps μ} {o : Observed μ} {s : Mapped σ μ}

/-- In every state reached from a freshly mapped pool, resizing a block in use either leaves it
in place, map and bytes, exactly when the heap cannot serve the size, or moves its first bytes
to the heap's answer, which is no block, and gives the block back; null and pointers outside the
blocks are resized by the heap alone, and no chain of resizes brings a pointer back into the
pool. -/
theorem Mapped.Reachable.migrates (hl : mem.Lawful o) (hc : mem.Copies o) (h : s.Reachable S mem o) :
    ∃ p, s.door.pool = some p ∧ Migrates S mem o p s.door s.mem := by
  obtain ⟨p, hd, ht, hS⟩ := Reachable.tracks hl h
  exact ⟨p, hd, ht.realloc_migrates hl hc hS hd⟩

/-- One fresh page, mapped closed and zero where the machine maps regions. -/
theorem Mapped.migrates_fresh_page :
    let s : Mapped Heap Pages :=
      ⟨{ pool := some ⟨⟨regionBase, pageSize⟩, Bitmap.new 1, pageSize⟩, sys := {} },
        ⟨fun _ => false, fun _ => 0⟩⟩
    Pages.ops.Lawful Pages.observed ∧ Pages.ops.Copies Pages.observed ∧
      s.Reachable Heap.system Pages.ops Pages.observed ∧
      ∃ p, s.door.pool = some p ∧ Migrates Heap.system Pages.ops Pages.observed p s.door s.mem := by
  intro s
  have h : s.Reachable Heap.system Pages.ops Pages.observed :=
    .init (show Pool.init machineMap ⟨pageSize, pageSize⟩ = _ from rfl) (by decide)
      (Heap.system_avoids (by decide)) rfl fun _ _ _ => ⟨rfl, rfl⟩
  exact ⟨Pages.lawful, Pages.copies, h, Mapped.Reachable.migrates Pages.lawful Pages.copies h⟩

end ChunkRuntime
