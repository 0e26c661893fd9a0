import ChunkRuntime.Proofs.UsedSet
import ChunkRuntime.Front.Door

/-! What each call of the front door's default path does, over any system beneath it and any
memory calls. `malloc` takes the first free block when the size is the block size and there is
one, and else passes the heap's answer on; as a set of used blocks that is the lowest index not
in use (`defaultMalloc_answer`). Resizing or giving back a block in use moves it to the heap or
frees it through the pool; any other pointer is left to the heap. -/

namespace ChunkRuntime

namespace FrontDoor

variable {σ μ : Type} (S : SystemOps σ) (mem : MemoryOps μ) (m : μ) {d : FrontDoor σ} {p : Pool}

theorem defaultMalloc_of_none (hd : d.pool = none) (size : Nat) :
    d.defaultMalloc S size = .ok ((S.malloc d.sys size).1, { d with sys := (S.malloc d.sys size).2 }) := by
  unfold defaultMalloc
  rw [hd]
  rfl

theorem defaultMalloc_of_heap (hd : d.pool = some p) {size : Nat}
    (h : size ≠ p.blockSize ∨ p.bitmap.firstFree = none) :
    d.defaultMalloc S size = .ok ((S.malloc d.sys size).1, { d with sys := (S.malloc d.sys size).2 }) := by
  have ha : p.alloc size = .ok (none, p) := h.elim Pool.alloc_of_ne Pool.alloc_of_full
  unfold defaultMalloc
  rw [hd]
  simp only [ha, bind, Except.bind, pure, Except.pure]

theorem defaultMalloc_of_firstFree (hd : d.pool = some p) (hp : p.Inv) {i : Nat}
    (h : p.bitmap.firstFree = some i) :
    d.defaultMalloc S p.blockSize =
      .ok (some (p.addressOf i), { d with pool := some { p with bitmap := p.bitmap.clear i } }) := by
  unfold defaultMalloc
  rw [hd]
  simp only [Pool.alloc_of_firstFree hp h, bind, Except.bind, pure, Except.pure]

theorem defaultReallocIn_of_heap {ptr : Option Nat} (size : Nat)
    (h : ∀ p a, d.pool = some p → ptr = some a → p.isAllocated a = false) :
    d.defaultReallocIn S mem ptr size m =
      .ok ((S.realloc d.sys ptr size).1, { d with sys := (S.realloc d.sys ptr size).2 }, m) := by
  unfold defaultReallocIn
  split
  · next _ _ p a hd =>
    rw [if_neg (by simp [h p a hd rfl])]
    rfl
  · rfl

theorem defaultReallocIn_of_stuck (hd : d.pool = some p) {a size : Nat} (ha : p.isAllocated a = true)
    {s' : σ} (hm : S.malloc d.sys size = (none, s')) :
    d.defaultReallocIn S mem (some a) size m = .ok (none, { d with sys := s' }, m) := by
  unfold defaultReallocIn
  simp only [hd, if_pos ha, hm]
  rfl

/-- Resizing a block in use moves it: its first bytes are copied to the heap's fresh address and
the block is given back. -/
theorem defaultReallocIn_of_moved (hd : d.pool = some p) (hp : p.Inv) {a i size : Nat}
    (hi : p.blockIndex a = some i) (hb : p.bitmap.bit i = false) {b : Nat} {s' : σ}
    (hm : S.malloc d.sys size = (some b, s')) :
    d.defaultReallocIn S mem (some a) size m =
      .ok (some b, { d with pool := some { p with bitmap := p.bitmap.mark i }, sys := s' },
        mem.protect (mem.discard (mem.copy m a b (min p.blockSize size)) (p.addressOf i) p.blockSize)
          (p.addressOf i) p.blockSize false) := by
  have ha : p.isAllocated a = true := Pool.isAllocated_iff.2 ⟨i, hi, hb⟩
  unfold defaultReallocIn
  simp only [hd, if_pos ha, hm, Pool.freeIn_of_used mem _ hp hi hb]
  rfl

theorem defaultRealloc_of_heap {ptr : Option Nat} (size : Nat)
    (h : ∀ p a, d.pool = some p → ptr = some a → p.isAllocated a = false) :
    d.defaultRealloc S ptr size =
      .ok ((S.realloc d.sys ptr size).1, { d with sys := (S.realloc d.sys ptr size).2 }) := by
  rw [defaultRealloc, defaultReallocIn_of_heap _ _ _ size h]
  rfl

/-- Resizing with a pool does one of three things: a block in use moves to the heap's fresh
address and is given back, or stays when the heap cannot take it, and anything else is resized
by the heap. -/
theorem defaultReallocIn_cases (hd : d.pool = some p) (hp : p.Inv) (ptr : Option Nat) (size : Nat) :
    (∃ a i b s', ptr = some a ∧ p.blockIndex a = some i ∧ p.bitmap.bit i = false ∧
      S.malloc d.sys size = (some b, s') ∧
      d.defaultReallocIn S mem ptr size m =
        .ok (some b, { d with pool := some { p with bitmap := p.bitmap.mark i }, sys := s' },
          mem.protect (mem.discard (mem.copy m a b (min p.blockSize size)) (p.addressOf i) p.blockSize)
            (p.addressOf i) p.blockSize false)) ∨
    (∃ a s', ptr = some a ∧ p.isAllocated a = true ∧ S.malloc d.sys size = (none, s') ∧
      d.defaultReallocIn S mem ptr size m = .ok (none, { d with sys := s' }, m)) ∨
    ((∀ a, ptr = some a → p.isAllocated a = false) ∧
      d.defaultReallocIn S mem ptr size m =
        .ok ((S.realloc d.sys ptr size).1, { d with sys := (S.realloc d.sys ptr size).2 }, m)) := by
  by_cases hblock : ∃ a, ptr = some a ∧ p.isAllocated a = true
  · obtain ⟨a, rfl, hall⟩ := hblock
    obtain ⟨i, hi, hbit⟩ := Pool.isAllocated_iff.1 hall
    rcases hm : S.malloc d.sys size with ⟨_ | b, s'⟩
    · exact .inr (.inl ⟨a, s', rfl, hall, rfl, defaultReallocIn_of_stuck S mem m hd hall hm⟩)
    · exact .inl ⟨a, i, b, s', rfl, hi, hbit, rfl, defaultReallocIn_of_moved S mem m hd hp hi hbit hm⟩
  · have hfree : ∀ a, ptr = some a → p.isAllocated a = false := by
      intro a ha
      by_contra hall
      exact hblock ⟨a, ha, Bool.eq_true_of_not_eq_false hall⟩
    refine .inr (.inr ⟨hfree, defaultReallocIn_of_heap S mem m size fun q a hq ha => ?_⟩)
    rw [hd, Option.some.injEq] at hq
    subst hq
    exact hfree a ha

/-- Resizing without recorded memory answers as resizing over it does. -/
theorem defaultRealloc_of_In {ptr : Option Nat} {size : Nat} {r : Option Nat} {e : FrontDoor σ}
    (h : d.defaultReallocIn S .unrecorded ptr size () = .ok (r, e, ())) :
    d.defaultRealloc S ptr size = .ok (r, e) := by
  rw [defaultRealloc, h]
  rfl

theorem defaultFree_of_heap {ptr : Option Nat}
    (h : ∀ p a, d.pool = some p → ptr = some a → p.isAllocated a = false) :
    d.defaultFree S ptr = .ok { d with sys := S.free d.sys ptr } := by
  unfold defaultFree
  split
  · next _ _ p a hd =>
    rw [if_neg (by simp [h p a hd rfl])]
    rfl
  · rfl

theorem defaultFree_of_block (hd : d.pool = some p) (hp : p.Inv) {a i : Nat}
    (hi : p.blockIndex a = some i) (hb : p.bitmap.bit i = false) :
    d.defaultFree S (some a) = .ok { d with pool := some { p with bitmap := p.bitmap.mark i } } := by
  have ha : p.isAllocated a = true := Pool.isAllocated_iff.2 ⟨i, hi, hb⟩
  unfold defaultFree
  rw [hd]
  dsimp only
  rw [if_pos ha]
  simp only [Pool.free_of_used hp hi hb, bind, Except.bind, pure, Except.pure]

/-- Unhooked `malloc` answers with the lowest block not in use exactly when there is a pool, the
size is its block size and a block is free, and else with what the heap answers. -/
theorem defaultMalloc_answer (hp : ∀ p, d.pool = some p → p.Inv) (size : Nat) :
    (d.defaultMalloc S size).map Prod.fst =
      .ok (match d.pool with
        | some p =>
          if size = p.blockSize ∧ p.view.used.card < p.capacity then some (p.addressOf p.view.lowestFree)
          else (S.malloc d.sys size).1
        | none => (S.malloc d.sys size).1) := by
  cases hd : d.pool with
  | none =>
    rw [defaultMalloc_of_none S hd]
    rfl
  | some p =>
    have hinv := hp p hd
    dsimp only
    by_cases hs : size = p.blockSize
    · cases hf : p.bitmap.firstFree with
      | none =>
        have hfull := Pool.card_of_firstFree_none hf
        rw [defaultMalloc_of_heap S hd (.inr hf), if_neg (by simp [hfull])]
        rfl
      | some i =>
        obtain ⟨hlow, hcard⟩ := hinv.lowestFree_of_firstFree hf
        subst hs
        rw [defaultMalloc_of_firstFree S hd hinv hf, if_pos ⟨rfl, hcard⟩, hlow]
        rfl
    · rw [defaultMalloc_of_heap S hd (.inl hs), if_neg (fun h => hs h.1)]
      rfl

/-- A pool is set up exactly when there was none and one could be made where the system maps
it. -/
theorem initPool_eq_ok {g : Geometry} {d' : FrontDoor σ} (h : d.initPool S g = .ok d') :
    d.pool = none ∧ ∃ p, Pool.init (S.map d.sys) g = .ok p ∧ d' = { d with pool := some p } := by
  unfold initPool at h
  cases hd : d.pool with
  | some p => simp [hd, bind, Except.bind, throw, throwThe, MonadExceptOf.throw] at h
  | none =>
    refine ⟨rfl, ?_⟩
    cases hp : Pool.init (S.map d.sys) g with
    | error e => simp [hd, hp, bind, Except.bind] at h
    | ok p =>
      simp only [hd, hp, Option.isSome_none, Bool.false_eq_true, ↓reduceIte, bind, Except.bind,
        pure, Except.pure, Except.ok.injEq] at h
      exact ⟨p, rfl, h.symm⟩

end FrontDoor

end ChunkRuntime
