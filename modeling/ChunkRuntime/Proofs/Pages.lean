import ChunkRuntime.Proofs.Door

/-! The memory of a pool's region, under the system's documented memory calls. `MemoryOps.Lawful`
says what the allocator relies on: opening or closing a range sets the access of every page the
range meets and keeps the bytes, throwing a range away zeroes every page it meets, a copy changes
only its destination and a store only its own byte; `Pages` is such a memory, a page at a time.
A fresh mapping is closed and zero.

`Tracks` is the invariant: an address of the region may be used exactly when its block is in
use, and a free block reads as zeros. The system maps the region on a page boundary, so blocks
are whole pages at page-aligned addresses and committing or decommitting a block touches its own
pages and no others (`Tracks.meets_eq`); and its heap serves nothing in the region
(`SystemOps.Avoids`), so a resize copies into memory apart from it. Every request, store into a
block in use and resize keeps the invariant, so in every reachable state a block handed out may
be used throughout and reads as zeros, whatever was stored in it before
(`Mapped.Reachable.pages`). -/

namespace ChunkRuntime

/-! ### The system's memory -/

/-- The page of `x` meets the `len` bytes from `a`. -/
def pageMeets (a len x : Nat) : Bool :=
  decide (x / pageSize * pageSize < a + len) && decide (a < x / pageSize * pageSize + pageSize)

/-- For a page-aligned range, the pages it meets hold exactly its own bytes. -/
theorem pageMeets_iff {a len : Nat} (ha : pageSize ∣ a) (hl : pageSize ∣ len) (x : Nat) :
    pageMeets a len x = true ↔ a ≤ x ∧ x < a + len := by
  obtain ⟨A, rfl⟩ := ha
  obtain ⟨L, rfl⟩ := hl
  simp only [pageMeets, Bool.and_eq_true, decide_eq_true_eq]
  unfold pageSize
  omega

/-- What can be observed of memory states `μ`: whether an address may be read and written, the
byte it holds, and a store of one byte. -/
structure Observed (μ : Type) where
  access : μ → Nat → Bool
  byte : μ → Nat → Nat
  write : μ → Nat → Nat → μ

variable {μ : Type}

/-- The memory calls behave as the system documents them: opening or closing a range sets the
access of every page it meets and keeps the bytes, throwing a range away zeroes every page it
meets and keeps the access, a copy changes only bytes of its destination, and a store only its
own byte. -/
structure MemoryOps.Lawful (mem : MemoryOps μ) (o : Observed μ) : Prop where
  access_protect : ∀ m a len on x,
    o.access (mem.protect m a len on) x = if pageMeets a len x then on else o.access m x
  byte_protect : ∀ m a len on x, o.byte (mem.protect m a len on) x = o.byte m x
  access_discard : ∀ m a len x, o.access (mem.discard m a len) x = o.access m x
  byte_discard : ∀ m a len x,
    o.byte (mem.discard m a len) x = if pageMeets a len x then 0 else o.byte m x
  access_copy : ∀ m src dst len x, o.access (mem.copy m src dst len) x = o.access m x
  byte_copy : ∀ m src dst len x, (x < dst ∨ dst + len ≤ x) →
    o.byte (mem.copy m src dst len) x = o.byte m x
  access_write : ∀ m y v x, o.access (o.write m y v) x = o.access m x
  byte_write : ∀ m y v x, o.byte (o.write m y v) x = if x = y then v else o.byte m x

/-- Memory as the addresses that may be used and the bytes they hold. -/
structure Pages where
  access : Nat → Bool
  byte : Nat → Nat

namespace Pages

/-- The calls as the system makes them, a whole page at a time. -/
def ops : MemoryOps Pages where
  protect m a len on := { m with access := fun x => if pageMeets a len x then on else m.access x }
  discard m a len := { m with byte := fun x => if pageMeets a len x then 0 else m.byte x }
  copy m src dst len :=
    { m with byte := fun x => if dst ≤ x ∧ x < dst + len then m.byte (src + (x - dst)) else m.byte x }

/-- Reading pages off directly, and a store of one byte. -/
def observed : Observed Pages :=
  ⟨access, byte, fun m y v => { m with byte := fun x => if x = y then v else m.byte x }⟩

theorem lawful : ops.Lawful observed where
  access_protect _ _ _ _ _ := rfl
  byte_protect _ _ _ _ _ := rfl
  access_discard _ _ _ _ := rfl
  byte_discard _ _ _ _ := rfl
  access_copy _ _ _ _ _ := rfl
  byte_copy _ _ dst len x hx := if_neg (by omega)
  access_write _ _ _ _ := rfl
  byte_write _ _ _ _ := rfl

end Pages

/-! ### The heap apart from the region -/

/-- The `n` bytes from `b`, and `b` itself, lie outside the region: past its end, or before its
start. -/
def Region.Apart (r : Region) (b n : Nat) : Prop :=
  r.base + r.size ≤ b ∨ b + n ≤ r.base ∧ b < r.base

/-- The heap serves nothing in region `r`: whatever it answers, in any state, lies apart from the
region with the bytes it serves there. -/
structure SystemOps.Avoids {σ : Type} (S : SystemOps σ) (r : Region) : Prop where
  malloc : ∀ s n b, (S.malloc s n).1 = some b → r.Apart b n
  realloc : ∀ s ptr n b, (S.realloc s ptr n).1 = some b → r.Apart b n

/-! ### A region that follows its map -/

variable {mem : MemoryOps μ} {o : Observed μ} {p : Pool} {m : μ}

/-- The region's memory as the pool's map says: an address of a block in use may be used and
one of a free block may not, and a free block reads as zeros. -/
structure Tracks (o : Observed μ) (p : Pool) (m : μ) : Prop where
  inv : p.Inv
  base_dvd : pageSize ∣ p.region.base
  access_eq : ∀ x i, p.blockIndex x = some i → o.access m x = !p.bitmap.bit i
  byte_eq : ∀ x i, p.blockIndex x = some i → p.bitmap.bit i = true → o.byte m x = 0

namespace Tracks

/-- A block's pages are the pages of its own addresses. -/
theorem meets_eq (ht : Tracks o p m) {i : Nat} (hi : i < p.capacity) {x j : Nat}
    (hx : p.blockIndex x = some j) : pageMeets (p.addressOf i) p.blockSize x = decide (j = i) := by
  have hdvd : pageSize ∣ p.addressOf i :=
    Nat.dvd_add ht.base_dvd (Nat.dvd_trans ht.inv.page_dvd (Nat.dvd_mul_left _ _))
  rw [Bool.eq_iff_iff, decide_eq_true_iff, pageMeets_iff hdvd ht.inv.page_dvd,
    ← ht.inv.blockIndex_eq_some_iff hi, hx, Option.some.injEq]

/-- A fresh pool's region, mapped on a page boundary, is closed and zero, as the system maps
it. -/
theorem init {map : Nat → Except Nat Nat} {g : Geometry} (h : Pool.init map g = .ok p)
    (hbase : pageSize ∣ p.region.base)
    (hm : ∀ x, p.region.base ≤ x → x < p.region.base + p.region.size →
      o.access m x = false ∧ o.byte m x = 0) : Tracks o p m := by
  obtain ⟨_, -, -, hbm, -⟩ := Pool.init_eq_ok h
  have hp := Pool.inv_of_init h
  have hnew : ∀ i, i < p.capacity → p.bitmap.bit i = true := by
    intro i hi
    have hlen : i < (Bitmap.new (g.maxSize / g.blockSize)).len := by rwa [← hbm]
    rw [hbm, Bitmap.bit_new, decide_eq_true_eq]
    exact hlen
  refine ⟨hp, hbase, fun x i hx => ?_, fun x i hx _ => ?_⟩
  · rw [(hm x (Pool.le_of_blockIndex hx) (hp.lt_of_blockIndex hx)).1,
      hnew i (hp.lt_capacity_of_blockIndex hx)]
    rfl
  · exact (hm x (Pool.le_of_blockIndex hx) (hp.lt_of_blockIndex hx)).2

variable (hl : mem.Lawful o)
include hl

/-- Handing out the first free block opens exactly its pages. -/
theorem commit (ht : Tracks o p m) {i : Nat} (hf : p.bitmap.firstFree = some i) :
    Tracks o { p with bitmap := p.bitmap.clear i } (mem.protect m (p.addressOf i) p.blockSize true) := by
  have hi : i < p.capacity := ht.inv.lt_capacity_of_bit (Bitmap.bit_firstFree hf).1
  refine ⟨ht.inv.clear i, ht.base_dvd, fun x j hx => ?_, fun x j hx hb => ?_⟩
  · rw [Pool.blockIndex_clear] at hx
    rw [hl.access_protect, Bitmap.bit_clear, ht.meets_eq hi hx]
    by_cases hji : j = i
    · simp [hji]
    · simp [hji, ht.access_eq x j hx, Ne.symm hji]
  · rw [Pool.blockIndex_clear] at hx
    rw [hl.byte_protect]
    simp only [Bitmap.bit_clear, Bool.and_eq_true, Bool.not_eq_true', decide_eq_false_iff_not] at hb
    exact ht.byte_eq x j hx hb.1

/-- Giving back a block in use zeroes and closes exactly its pages. -/
theorem release (ht : Tracks o p m) {a i : Nat} (hi : p.blockIndex a = some i) :
    Tracks o { p with bitmap := p.bitmap.mark i }
      (mem.protect (mem.discard m (p.addressOf i) p.blockSize) (p.addressOf i) p.blockSize false) := by
  have hcap : i < p.capacity := ht.inv.lt_capacity_of_blockIndex hi
  have hsize : i < 64 * p.bitmap.chunks.size := ht.inv.wf.lt_size hcap
  refine ⟨ht.inv.mark hcap, ht.base_dvd, fun x j hx => ?_, fun x j hx hb => ?_⟩
  · rw [Pool.blockIndex_mark] at hx
    rw [hl.access_protect, hl.access_discard, Bitmap.bit_mark _ hsize, ht.meets_eq hcap hx]
    by_cases hji : j = i
    · simp [hji]
    · simp [hji, ht.access_eq x j hx, Ne.symm hji]
  · rw [Pool.blockIndex_mark] at hx
    rw [hl.byte_protect, hl.byte_discard, ht.meets_eq hcap hx]
    by_cases hji : j = i
    · simp [hji]
    · simp only [Bitmap.bit_mark _ hsize, Bool.or_eq_true, decide_eq_true_eq] at hb
      simp only [hji, decide_false, Bool.false_eq_true, ↓reduceIte]
      exact ht.byte_eq x j hx (hb.resolve_right (Ne.symm hji))

/-- A store into a block in use changes no free block. -/
theorem write (ht : Tracks o p m) {y : Nat} (hy : p.isAllocated y = true) (v : Nat) :
    Tracks o p (o.write m y v) := by
  obtain ⟨k, hk, hbk⟩ := Pool.isAllocated_iff.1 hy
  refine ⟨ht.inv, ht.base_dvd, fun x j hx => ?_, fun x j hx hb => ?_⟩
  · rw [hl.access_write]
    exact ht.access_eq x j hx
  · rw [hl.byte_write]
    by_cases hxy : x = y
    · subst hxy
      rw [hx, Option.some.injEq] at hk
      subst hk
      rw [hbk] at hb
      cases hb
    · rw [if_neg hxy]
      exact ht.byte_eq x j hx hb

/-- A copy into memory apart from the region changes nothing in it. -/
theorem copy_apart (ht : Tracks o p m) {src dst len : Nat} (hd : p.region.Apart dst len) :
    Tracks o p (mem.copy m src dst len) := by
  refine ⟨ht.inv, ht.base_dvd, fun x j hx => ?_, fun x j hx hb => ?_⟩
  · rw [hl.access_copy]
    exact ht.access_eq x j hx
  · have hlt := ht.inv.lt_of_blockIndex hx
    have hge := Pool.le_of_blockIndex hx
    rw [hl.byte_copy _ _ _ _ _ (by unfold Region.Apart at hd; omega)]
    exact ht.byte_eq x j hx hb

/-- A block handed out may be used throughout and reads as zeros. -/
theorem allocIn_fresh (ht : Tracks o p m) {size a : Nat} {q : Pool} {m' : μ}
    (h : p.allocIn mem size m = .ok (some a, q, m')) {x : Nat} (hx₁ : a ≤ x) (hx₂ : x < a + p.blockSize) :
    o.access m' x = true ∧ o.byte m' x = 0 := by
  rcases ht.inv.allocIn_cases mem m size with hnone | ⟨i, hf, -, hsome⟩
  · rw [hnone] at h
    cases h
  · rw [hsome] at h
    cases h
    have hi : i < p.capacity := ht.inv.lt_capacity_of_bit (Bitmap.bit_firstFree hf).1
    have hx : p.blockIndex x = some i := (ht.inv.blockIndex_eq_some_iff hi x).2 ⟨hx₁, hx₂⟩
    rw [hl.access_protect, hl.byte_protect, ht.meets_eq hi hx]
    exact ⟨by simp, ht.byte_eq x i hx (Bitmap.bit_firstFree hf).1⟩

end Tracks

/-- The region's memory follows the pool's used set: an address of the region may be used
exactly when its block is in use, a free block reads as zeros, and a block handed out may be
used throughout and reads as zeros. -/
structure RegionFollows (mem : MemoryOps μ) (o : Observed μ) (p : Pool) (m : μ) : Prop where
  access_iff : ∀ x i, p.blockIndex x = some i → (o.access m x = true ↔ i ∈ p.view.used)
  zero_of_free : ∀ x i, p.blockIndex x = some i → i ∉ p.view.used → o.byte m x = 0
  alloc_fresh : ∀ size a q m', p.allocIn mem size m = .ok (some a, q, m') →
    ∀ x, a ≤ x → x < a + p.blockSize → o.access m' x = true ∧ o.byte m' x = 0

/-! ### Runs over the region -/

/-- Something that happens to a pool's region: a request to the pool, a store by whoever holds a
block, or a resize through the front door. -/
inductive RegionEvent where
  | alloc (size : Nat)
  | free (addr : Nat)
  | write (addr value : Nat)
  | realloc (ptr : Option Nat) (size : Nat)

/-- The front door together with the memory its calls act on. -/
structure Mapped (σ μ : Type) where
  door : FrontDoor σ
  mem : μ

namespace Mapped

variable {σ : Type} (S : SystemOps σ) (mem : MemoryOps μ) (o : Observed μ)

/-- One event. The pool's requests and the resize make their memory calls through `mem`, and the
resize its heap calls through `S`. -/
def step (s : Mapped σ μ) : RegionEvent → Except Fault (Mapped σ μ)
  | .alloc size =>
    match s.door.pool with
    | some p => do
      let (_, q, m) ← p.allocIn mem size s.mem
      return ⟨{ s.door with pool := some q }, m⟩
    | none => .ok s
  | .free addr =>
    match s.door.pool with
    | some p => do
      let (q, m) ← p.freeIn mem addr s.mem
      return ⟨{ s.door with pool := some q }, m⟩
    | none => .ok s
  | .write addr value => .ok ⟨s.door, o.write s.mem addr value⟩
  | .realloc ptr size => do
    let (_, d, m) ← s.door.defaultReallocIn S mem ptr size s.mem
    return ⟨d, m⟩

/-- A store goes to a block in use. -/
def Admits (s : Mapped σ μ) : RegionEvent → Prop
  | .write addr _ => s.door.isAllocated addr = true
  | _ => True

/-- The states reached from a fresh pool, made with any mapping, whose region the system mapped
closed and zero on a page boundary and whose heap serves nothing in it. -/
inductive Reachable : Mapped σ μ → Prop
  | init {d : FrontDoor σ} {map : Nat → Except Nat Nat} {g : Geometry} {p : Pool} {m : μ} :
      Pool.init map g = .ok p → pageSize ∣ p.region.base → S.Avoids p.region → d.pool = some p →
      (∀ x, p.region.base ≤ x → x < p.region.base + p.region.size →
        o.access m x = false ∧ o.byte m x = 0) →
      Reachable ⟨d, m⟩
  | step {s s' : Mapped σ μ} {e : RegionEvent} :
      Reachable s → s.Admits e → s.step S mem o e = .ok s' → Reachable s'

variable {S mem o} {s s' : Mapped σ μ} {p : Pool}

theorem step_alloc (hs : s.door.pool = some p) {size : Nat} {r : Option Nat} {q : Pool} {m : μ}
    (h : p.allocIn mem size s.mem = .ok (r, q, m)) :
    s.step S mem o (.alloc size) = .ok ⟨{ s.door with pool := some q }, m⟩ := by
  simp only [step, hs, h, bind, Except.bind, pure, Except.pure]

theorem step_free (hs : s.door.pool = some p) {addr : Nat} {q : Pool} {m : μ}
    (h : p.freeIn mem addr s.mem = .ok (q, m)) :
    s.step S mem o (.free addr) = .ok ⟨{ s.door with pool := some q }, m⟩ := by
  simp only [step, hs, h, bind, Except.bind, pure, Except.pure]

theorem step_realloc {ptr : Option Nat} {size : Nat} {r : Option Nat} {d : FrontDoor σ} {m : μ}
    (h : s.door.defaultReallocIn S mem ptr size s.mem = .ok (r, d, m)) :
    s.step S mem o (.realloc ptr size) = .ok ⟨d, m⟩ := by
  simp only [step, h, bind, Except.bind, pure, Except.pure]

/-- What the heap answers lies apart from the region with every prefix of what it serves. -/
theorem Avoids.apart_min {r : Region} {b n : Nat} (h : r.Apart b n) (k : Nat) : r.Apart b (min k n) := by
  unfold Region.Apart at h ⊢
  omega

variable (hl : mem.Lawful o)
include hl

/-- Every event keeps the region following the pool's map, and the pool's region. -/
theorem step_tracks (hs : s.door.pool = some p) (ht : Tracks o p s.mem) (hS : S.Avoids p.region)
    {e : RegionEvent} (ha : s.Admits e) (h : s.step S mem o e = .ok s') :
    ∃ q, s'.door.pool = some q ∧ Tracks o q s'.mem ∧ q.region = p.region := by
  cases e with
  | alloc size =>
    rcases ht.inv.allocIn_cases mem s.mem size with hnone | ⟨i, hf, -, hsome⟩
    · rw [step_alloc hs hnone] at h
      cases h
      exact ⟨p, rfl, ht, rfl⟩
    · rw [step_alloc hs hsome] at h
      cases h
      exact ⟨_, rfl, ht.commit hl hf, rfl⟩
  | free addr =>
    cases hfree : p.freeIn mem addr s.mem with
    | error f => simp [step, hs, hfree, bind, Except.bind] at h
    | ok r =>
      obtain ⟨i, hi, -, hq, hm⟩ := ht.inv.freeIn_eq_ok mem s.mem hfree
      rw [step_free hs hfree] at h
      cases h
      rw [hq, hm]
      exact ⟨_, rfl, ht.release hl hi, rfl⟩
  | write addr value =>
    have hy : p.isAllocated addr = true := by
      simpa [Admits, FrontDoor.isAllocated, hs] using ha
    simp only [step, Except.ok.injEq] at h
    subst h
    exact ⟨p, hs, ht.write hl hy value, rfl⟩
  | realloc ptr size =>
    rcases FrontDoor.defaultReallocIn_cases S mem s.mem hs ht.inv ptr size with
      ⟨a, i, b, s₁, -, hi, -, hm, hre⟩ | ⟨_, _, -, -, -, hre⟩ | ⟨-, hre⟩
    · -- the block's bytes go to the heap, apart from the region, then the block is given back
      have hb : p.region.Apart b (min p.blockSize size) :=
        Avoids.apart_min (hS.malloc _ _ _ (by rw [hm])) _
      rw [step_realloc hre] at h
      cases h
      exact ⟨_, rfl, (ht.copy_apart hl hb).release hl hi, rfl⟩
    · rw [step_realloc hre] at h
      cases h
      exact ⟨p, hs, ht, rfl⟩
    · rw [step_realloc hre] at h
      cases h
      exact ⟨p, hs, ht, rfl⟩

theorem Reachable.tracks (h : s.Reachable S mem o) :
    ∃ p, s.door.pool = some p ∧ Tracks o p s.mem ∧ S.Avoids p.region := by
  induction h with
  | init hp hbase hS hd hm => exact ⟨_, hd, Tracks.init hp hbase hm, hS⟩
  | step _ ha hs ih =>
    obtain ⟨p, hd, ht, hS⟩ := ih
    obtain ⟨q, hq, htq, hr⟩ := step_tracks hl hd ht hS ha hs
    exact ⟨q, hq, htq, hr ▸ hS⟩

/-- After any run of requests, stores into blocks in use and resizes from a freshly mapped
region, wherever the system mapped it, the region follows the pool's used set. -/
theorem Reachable.pages (h : s.Reachable S mem o) :
    ∃ p, s.door.pool = some p ∧ RegionFollows mem o p s.mem := by
  obtain ⟨p, hd, ht, -⟩ := Reachable.tracks hl h
  refine ⟨p, hd, fun x i hx => ?_, fun x i hx hfree => ?_, fun _ _ _ _ ha _ hx₁ hx₂ => ht.allocIn_fresh hl ha hx₁ hx₂⟩
  · rw [ht.access_eq x i hx, Pool.mem_view_used]
    simp [ht.inv.lt_capacity_of_blockIndex hx]
  · rw [Pool.mem_view_used] at hfree
    exact ht.byte_eq x i hx (by simpa [ht.inv.lt_capacity_of_blockIndex hx] using hfree)

end Mapped

/-- The runnable system's heap serves nothing below `heapBase`, where the machine maps regions. -/
theorem Heap.system_avoids {r : Region} (hr : r.base + r.size ≤ heapBase) : Heap.system.Avoids r := by
  have hge : ∀ h n b, (Heap.malloc h n).1 = some b → heapBase ≤ b := by
    intro h n b hb
    unfold Heap.malloc at hb
    split at hb
    · obtain rfl := Option.some.inj hb
      exact Nat.le_add_right _ _
    · cases hb
  refine ⟨fun h n b hb => .inl (Nat.le_trans hr (hge h n b hb)), fun h ptr n b hb => ?_⟩
  refine .inl (Nat.le_trans hr ?_)
  cases ptr with
  | none => exact hge h n b hb
  | some a =>
    simp only [Heap.system, Heap.realloc] at hb
    split at hb
    · cases hb
    · exact hge h n b hb

/-- One fresh page, mapped closed and zero where the machine maps regions. -/
theorem Mapped.pages_fresh_page :
    let s : Mapped Heap Pages :=
      ⟨{ pool := some ⟨⟨regionBase, pageSize⟩, Bitmap.new 1, pageSize⟩, sys := {} },
        ⟨fun _ => false, fun _ => 0⟩⟩
    Pages.ops.Lawful Pages.observed ∧ s.Reachable Heap.system Pages.ops Pages.observed ∧
      ∃ p, s.door.pool = some p ∧ RegionFollows Pages.ops Pages.observed p s.mem := by
  intro s
  have h : s.Reachable Heap.system Pages.ops Pages.observed :=
    .init (show Pool.init machineMap ⟨pageSize, pageSize⟩ = _ from rfl) (by decide)
      (Heap.system_avoids (by decide)) rfl fun _ _ _ => ⟨rfl, rfl⟩
  exact ⟨Pages.lawful, h, Mapped.Reachable.pages Pages.lawful h⟩

end ChunkRuntime
