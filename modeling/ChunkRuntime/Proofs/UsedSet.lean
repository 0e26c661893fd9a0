import Mathlib.Data.Fintype.EquivFin
import ChunkRuntime.Proofs.Pool

/-! A block pool is a set of used block indices. `UsedSet` is that set together with the
pool's geometry, and `UsedSet.step` says what each request does to it: a request of exactly the
block size takes the least index not in use while one below the capacity is free; an address
names the block its offset falls in, when it lies in the blocks' span; giving back an address
outside the span, or a block not in use, faults and changes nothing.

`Pool.view` reads the set off the block map. Every request commutes with it, so serving any
list of requests to a fresh pool, faults included, answers exactly what serving them to the
empty set does (`pool_serve_eq_usedSet_serve`). -/

namespace ChunkRuntime

/-- A request to a block pool. -/
inductive PoolOp where
  | alloc (size : Nat)
  | free (addr : Nat)
  | isAllocated (addr : Nat)
  | blockIndex (addr : Nat)
  | stats
  | snapshot
  deriving DecidableEq, Repr

/-- The answer to a request. -/
inductive PoolReply where
  | block (addr : Option Nat)
  | freed
  | allocated (b : Bool)
  | index (i : Option Nat)
  | stats (s : PoolStats)
  | snapshot (s : Snapshot)
  deriving DecidableEq, Repr

/-- Serve requests one after another; a request that faults answers its fault and leaves the
state as it was. -/
def serve {σ : Type} (step : σ → PoolOp → Except Fault (PoolReply × σ)) :
    σ → List PoolOp → List (Except Fault PoolReply)
  | _, [] => []
  | s, op :: ops =>
    match step s op with
    | .ok (r, s') => .ok r :: serve step s' ops
    | .error f => .error f :: serve step s ops

/-- One request to a pool. -/
def Pool.step (p : Pool) : PoolOp → Except Fault (PoolReply × Pool)
  | .alloc size => (p.alloc size).map fun (a, q) => (.block a, q)
  | .free addr => (p.free addr).map fun q => (.freed, q)
  | .isAllocated addr => .ok (.allocated (p.isAllocated addr), p)
  | .blockIndex addr => .ok (.index (p.blockIndex addr), p)
  | .stats => .ok (.stats p.stats, p)
  | .snapshot => .ok (.snapshot p.snapshot, p)

/-- A pool as a set of used blocks: where the blocks start, their size, how many there are, the
size of the region, and the indices handed out. -/
structure UsedSet where
  base : Nat
  blockSize : Nat
  capacity : Nat
  regionSize : Nat
  used : Finset Nat

namespace UsedSet

/-- No block in use, for the geometry `g` at `base`. -/
def init (base : Nat) (g : Geometry) : UsedSet :=
  ⟨base, g.blockSize, g.maxSize / g.blockSize, g.maxSize, ∅⟩

/-- The block of an address in the blocks' span. -/
def blockIndex (u : UsedSet) (addr : Nat) : Option Nat :=
  if u.base ≤ addr ∧ addr < u.base + u.capacity * u.blockSize then
    some ((addr - u.base) / u.blockSize)
  else none

/-- The least index not in use. -/
def lowestFree (u : UsedSet) : Nat := Nat.find (Infinite.exists_notMem_finset u.used)

/-- One request to the set. -/
def step (u : UsedSet) : PoolOp → Except Fault (PoolReply × UsedSet)
  | .alloc size =>
    if size = u.blockSize ∧ u.used.card < u.capacity then
      .ok (.block (some (u.base + u.lowestFree * u.blockSize)),
        { u with used := insert u.lowestFree u.used })
    else .ok (.block none, u)
  | .free addr =>
    match u.blockIndex addr with
    | none => .error .foreignFree
    | some i => if i ∈ u.used then .ok (.freed, { u with used := u.used.erase i })
      else .error (.doubleFree i)
  | .isAllocated addr =>
    .ok (.allocated (match u.blockIndex addr with
      | some i => decide (i ∈ u.used)
      | none => false), u)
  | .blockIndex addr => .ok (.index (u.blockIndex addr), u)
  | .stats => .ok (.stats ⟨u.used.card, u.capacity - u.used.card⟩, u)
  | .snapshot =>
    .ok (.snapshot ⟨u.base, u.blockSize, u.regionSize,
      (List.range u.capacity).filter fun i => decide (i ∈ u.used)⟩, u)

end UsedSet

namespace Pool

/-- The used set a pool's map describes. -/
def view (p : Pool) : UsedSet :=
  ⟨p.region.base, p.blockSize, p.capacity, p.region.size,
    (Finset.range p.capacity).filter fun i => p.bitmap.bit i = false⟩

variable {p : Pool}

@[simp] theorem view_base : p.view.base = p.region.base := rfl
@[simp] theorem view_blockSize : p.view.blockSize = p.blockSize := rfl
@[simp] theorem view_capacity : p.view.capacity = p.capacity := rfl
@[simp] theorem view_regionSize : p.view.regionSize = p.region.size := rfl

theorem mem_view_used {i : Nat} : i ∈ p.view.used ↔ i < p.capacity ∧ p.bitmap.bit i = false := by
  simp [view]

theorem view_clear {i : Nat} (hi : i < p.capacity) :
    { p with bitmap := p.bitmap.clear i }.view = { p.view with used := insert i p.view.used } := by
  simp only [view, capacity, Bitmap.clear_len, UsedSet.mk.injEq, true_and]
  ext j
  simp only [Finset.mem_filter, Finset.mem_range, Finset.mem_insert, Bitmap.bit_clear,
    Bool.and_eq_false_iff, Bool.not_eq_false', decide_eq_true_eq]
  constructor
  · rintro ⟨hj, hb | rfl⟩
    · exact .inr ⟨hj, hb⟩
    · exact .inl rfl
  · rintro (rfl | ⟨hj, hb⟩)
    · exact ⟨hi, .inr rfl⟩
    · exact ⟨hj, .inl hb⟩

theorem view_mark {i : Nat} (hi : i < 64 * p.bitmap.chunks.size) :
    { p with bitmap := p.bitmap.mark i }.view = { p.view with used := p.view.used.erase i } := by
  simp only [view, capacity, Bitmap.mark_len, UsedSet.mk.injEq, true_and]
  ext j
  simp only [Finset.mem_filter, Finset.mem_range, Finset.mem_erase, Bitmap.bit_mark p.bitmap hi,
    Bool.or_eq_false_iff, decide_eq_false_iff_not]
  constructor
  · rintro ⟨hj, hb, hij⟩
    exact ⟨Ne.symm hij, hj, hb⟩
  · rintro ⟨hij, hj, hb⟩
    exact ⟨hj, hb, Ne.symm hij⟩

theorem blockIndex_view (p : Pool) (addr : Nat) : p.view.blockIndex addr = p.blockIndex addr := by
  rw [blockIndex_eq]
  rfl

/-- The clear bits below `n`, counted as a set. -/
private theorem card_filter_range (n : Nat) (f : Nat → Bool) :
    ((Finset.range n).filter fun i => f i = false).card = n - (List.range n).countP f := by
  have hsplit := List.length_eq_countP_add_countP f (l := List.range n)
  rw [List.length_range] at hsplit
  have hcount : (List.range n).countP (fun i => decide (f i = false)) =
      (List.range n).countP (fun i => decide ¬f i = true) :=
    List.countP_congr fun i _ => by simp
  rw [Finset.card_def, Finset.filter_val, Finset.range_val, Multiset.range, Multiset.filter_coe,
    Multiset.coe_card, ← List.countP_eq_length_filter, hcount]
  omega

theorem Inv.stats_eq (hp : p.Inv) : p.stats = ⟨p.view.used.card, p.view.capacity - p.view.used.card⟩ := by
  have hcard : p.view.used.card = p.bitmap.countUsed := by
    rw [Bitmap.countUsed, hp.wf.countFree_eq]
    exact card_filter_range _ _
  rw [hcard]
  rfl

theorem Inv.snapshot_eq (hp : p.Inv) :
    p.snapshot = ⟨p.view.base, p.view.blockSize, p.view.regionSize,
      (List.range p.view.capacity).filter fun i => decide (i ∈ p.view.used)⟩ := by
  have hused : p.bitmap.used = (List.range p.view.capacity).filter fun i => decide (i ∈ p.view.used) := by
    rw [hp.wf.used_eq]
    apply List.filter_congr
    intro i hi
    simp [mem_view_used, List.mem_range.1 hi, capacity]
  rw [snapshot, hused]
  rfl

/-- The first set bit of the map is the least index not in use, and then the set is not full. -/
theorem Inv.lowestFree_of_firstFree (hp : p.Inv) {i : Nat} (h : p.bitmap.firstFree = some i) :
    p.view.lowestFree = i ∧ p.view.used.card < p.view.capacity := by
  obtain ⟨hset, hlow⟩ := Bitmap.bit_firstFree h
  have hi : i < p.capacity := hp.lt_capacity_of_bit hset
  have hfree : i ∉ p.view.used := by simp [mem_view_used, hset]
  constructor
  · rw [UsedSet.lowestFree, Nat.find_eq_iff]
    refine ⟨hfree, fun j hj => ?_⟩
    simp only [not_not, mem_view_used]
    exact ⟨by omega, hlow j hj⟩
  · have hsub : p.view.used ⊂ Finset.range p.capacity :=
      Finset.ssubset_iff_of_subset (fun j hj => Finset.mem_range.2 (mem_view_used.1 hj).1) |>.2
        ⟨i, Finset.mem_range.2 hi, hfree⟩
    have hlt := Finset.card_lt_card hsub
    rw [Finset.card_range] at hlt
    exact hlt

/-- A map with no set bit has every block in use. -/
theorem card_of_firstFree_none (h : p.bitmap.firstFree = none) : p.view.used.card = p.view.capacity := by
  have hall := (Bitmap.firstFree_eq_none_iff _).1 h
  simp [view, hall]

/-- Every request commutes with reading the used set off the map. -/
theorem Inv.step_view (hp : p.Inv) (op : PoolOp) :
    (p.step op).map (fun (r, q) => (r, q.view)) = p.view.step op := by
  cases op with
  | alloc size =>
    by_cases hs : size = p.blockSize
    · subst hs
      cases hf : p.bitmap.firstFree with
      | none =>
        have hfull := card_of_firstFree_none hf
        simp only [step, alloc_of_full hf, Except.map, UsedSet.step, hfull, lt_irrefl, and_false,
          ↓reduceIte]
      | some i =>
        obtain ⟨hlow, hcard⟩ := hp.lowestFree_of_firstFree hf
        have hi : i < p.capacity := hp.lt_capacity_of_bit (Bitmap.bit_firstFree hf).1
        simp only [step, alloc_of_firstFree hp hf, Except.map, UsedSet.step, hcard, view_blockSize,
          and_self, ↓reduceIte, hlow, view_clear hi, view_base, addressOf_eq]
    · have hne : ¬(size = p.view.blockSize ∧ p.view.used.card < p.view.capacity) :=
        fun h => hs h.1
      simp only [step, alloc_of_ne hs, Except.map, UsedSet.step, hne, ↓reduceIte]
  | free addr =>
    cases hb : p.blockIndex addr with
    | none => simp [step, free_of_blockIndex_none hb, Except.map, UsedSet.step, blockIndex_view, hb]
    | some i =>
      have hi : i < p.capacity := hp.lt_capacity_of_blockIndex hb
      cases hbit : p.bitmap.bit i with
      | true =>
        have hnot : i ∉ p.view.used := by simp [mem_view_used, hbit]
        simp [step, free_of_free hp hb hbit, Except.map, UsedSet.step, blockIndex_view, hb, hnot]
      | false =>
        have hin : i ∈ p.view.used := mem_view_used.2 ⟨hi, hbit⟩
        simp only [step, free_of_used hp hb hbit, Except.map, UsedSet.step, blockIndex_view, hb, hin,
          ↓reduceIte, view_mark (hp.wf.lt_size hi)]
  | isAllocated addr =>
    simp only [step, Except.map, UsedSet.step, blockIndex_view, isAllocated]
    cases hb : p.blockIndex addr with
    | none => rfl
    | some i =>
      have hi : i < p.capacity := hp.lt_capacity_of_blockIndex hb
      simp [mem_view_used, hi]
  | blockIndex addr => simp [step, Except.map, UsedSet.step, blockIndex_view]
  | stats => simp [step, Except.map, UsedSet.step, hp.stats_eq]
  | snapshot => simp [step, Except.map, UsedSet.step, hp.snapshot_eq]

/-- A request leaves the pool as it was, marks one block in use or marks one block free. -/
theorem Inv.step_cases (hp : p.Inv) {op : PoolOp} {r : PoolReply} {q : Pool}
    (h : p.step op = .ok (r, q)) :
    q = p ∨ (∃ i, q = { p with bitmap := p.bitmap.clear i }) ∨
      (∃ i < p.capacity, q = { p with bitmap := p.bitmap.mark i }) := by
  cases op with
  | alloc size =>
    by_cases hs : size = p.blockSize
    · subst hs
      cases hf : p.bitmap.firstFree with
      | none =>
        simp only [step, alloc_of_full hf, Except.map, Except.ok.injEq, Prod.mk.injEq] at h
        exact .inl h.2.symm
      | some i =>
        simp only [step, alloc_of_firstFree hp hf, Except.map, Except.ok.injEq, Prod.mk.injEq] at h
        exact .inr (.inl ⟨i, h.2.symm⟩)
    · simp only [step, alloc_of_ne hs, Except.map, Except.ok.injEq, Prod.mk.injEq] at h
      exact .inl h.2.symm
  | free addr =>
    cases hb : p.blockIndex addr with
    | none => simp [step, free_of_blockIndex_none hb, Except.map] at h
    | some i =>
      cases hbit : p.bitmap.bit i with
      | true => simp [step, free_of_free hp hb hbit, Except.map] at h
      | false =>
        simp only [step, free_of_used hp hb hbit, Except.map, Except.ok.injEq, Prod.mk.injEq] at h
        exact .inr (.inr ⟨i, hp.lt_capacity_of_blockIndex hb, h.2.symm⟩)
  | isAllocated addr | blockIndex addr | stats | snapshot =>
    simp only [step, Except.ok.injEq, Prod.mk.injEq] at h
    exact .inl h.2.symm

/-- Every request keeps the invariant. -/
theorem Inv.step_inv (hp : p.Inv) {op : PoolOp} {r : PoolReply} {q : Pool}
    (h : p.step op = .ok (r, q)) : q.Inv := by
  rcases hp.step_cases h with rfl | ⟨i, rfl⟩ | ⟨i, hi, rfl⟩
  · exact hp
  · exact hp.clear i
  · exact hp.mark hi

/-- A fresh pool's used set is empty, at the base the system mapped it. -/
theorem view_init {map : Nat → Except Nat Nat} {g : Geometry} (h : Pool.init map g = .ok p) :
    p.view = UsedSet.init p.base g := by
  obtain ⟨_, -, hr, hb, hbs, -⟩ := init_eq_ok h
  simp only [view, base, capacity, hr, hb, hbs, Bitmap.new_len, Bitmap.bit_new, UsedSet.init]
  congr 1
  ext i
  simp

end Pool

/-- Serving requests through a view that commutes with every step and keeps an invariant
answers as serving them to the view does. -/
theorem serve_view {σ τ : Type} {step : σ → PoolOp → Except Fault (PoolReply × σ)}
    {step' : τ → PoolOp → Except Fault (PoolReply × τ)} (view : σ → τ) (inv : σ → Prop)
    (hview : ∀ s op, inv s → (step s op).map (fun (r, t) => (r, view t)) = step' (view s) op)
    (hinv : ∀ s op r t, inv s → step s op = .ok (r, t) → inv t) :
    ∀ (ops : List PoolOp) (s : σ), inv s → serve step s ops = serve step' (view s) ops := by
  intro ops
  induction ops with
  | nil => intro _ _; rfl
  | cons op ops ih =>
    intro s hs
    have hcomm := hview s op hs
    cases hstep : step s op with
    | error f =>
      rw [hstep] at hcomm
      simp only [serve, hstep, ← hcomm, Except.map]
      rw [ih s hs]
    | ok rt =>
      obtain ⟨r, t⟩ := rt
      rw [hstep] at hcomm
      simp only [serve, hstep, ← hcomm, Except.map]
      rw [ih t (hinv s op r t hs hstep)]

/-- A fresh pool, wherever the system mapped it, answers every list of requests exactly as the
empty used set of its geometry at its base does. -/
theorem pool_serve_eq_usedSet_serve {map : Nat → Except Nat Nat} {g : Geometry} {p : Pool}
    (h : Pool.init map g = .ok p) (ops : List PoolOp) :
    serve Pool.step p ops = serve UsedSet.step (UsedSet.init p.base g) ops := by
  have hp := Pool.inv_of_init h
  rw [serve_view Pool.view Pool.Inv (fun _ op hs => hs.step_view op)
    (fun _ _ _ _ hs ht => hs.step_inv ht) ops p hp, Pool.view_init h]

/-- Three one-page blocks: two handed out, the second given back through an address inside it
and handed out again, the first given back twice. -/
theorem pool_serve_three_blocks :
    ∃ p, Pool.init machineMap ⟨pageSize, 3 * pageSize⟩ = .ok p ∧
      serve Pool.step p [.alloc pageSize, .alloc pageSize, .free (regionBase + pageSize + 5),
        .alloc pageSize, .free regionBase, .free regionBase, .stats] =
      serve UsedSet.step (UsedSet.init regionBase ⟨pageSize, 3 * pageSize⟩)
        [.alloc pageSize, .alloc pageSize, .free (regionBase + pageSize + 5), .alloc pageSize,
          .free regionBase, .free regionBase, .stats] :=
  have h : Pool.init machineMap ⟨pageSize, 3 * pageSize⟩ =
      .ok ⟨⟨regionBase, 3 * pageSize⟩, Bitmap.new 3, pageSize⟩ := rfl
  ⟨_, h, pool_serve_eq_usedSet_serve h _⟩

example : serve Pool.step ⟨⟨regionBase, 3 * pageSize⟩, Bitmap.new 3, pageSize⟩
    [.alloc pageSize, .alloc pageSize, .free (regionBase + pageSize + 5), .alloc pageSize,
      .free regionBase, .free regionBase, .stats] =
    [.ok (.block (some regionBase)), .ok (.block (some (regionBase + pageSize))), .ok .freed,
      .ok (.block (some (regionBase + pageSize))), .ok .freed, .error (.doubleFree 0),
      .ok (.stats ⟨1, 2⟩)] := by
  decide

end ChunkRuntime
