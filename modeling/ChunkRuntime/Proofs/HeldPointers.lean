import ChunkRuntime.Proofs.Door

/-! The front door's default path as its caller sees it, over any system beneath the door. The
caller holds the pointers that `malloc` and `realloc` gave it and that it has not given back;
`Client` pairs the door with them, and `Client.step` makes one call and updates them: a `realloc`
that moved a pointer takes the old one away, and so does one that resized a heap pointer to
nothing, and releasing the pool takes away the pointers into its region. `Client.Reachable` are
the states a caller reaches through calls whose pointer argument is null or held, on a system
that answers each call as glibc and the kernel document (`Client.Answers`): the heap's new
addresses are held by no one and fall in no block of the pool, and the kernel maps a region
where no held pointer lies.

`Client.Inv` ties the stores together: the held pointers are distinct, and the blocks in use are
exactly the held pointers that fall in a block, each a block's start. Every call keeps it, so in
every reachable state no call but setting up the pool faults and the caller can count on
`Client.Sound` (`Reachable.sound`). -/

namespace ChunkRuntime

/-- A call on the front door's default path. -/
inductive Call where
  | initPool (g : Geometry)
  | finiPool
  | malloc (size : Nat)
  | realloc (ptr : Option Nat) (size : Nat)
  | free (ptr : Option Nat)

/-- The front door and the pointers its caller holds. -/
structure Client (σ : Type) where
  door : FrontDoor σ
  live : List Nat

namespace Client

variable {σ : Type} (S : SystemOps σ)

/-- The pointers held after resizing `ptr` to `size` at door `d` answered `r`: the old pointer
goes when it moved, and when it was a heap pointer resized to nothing; the answer is added. -/
def afterRealloc (d : FrontDoor σ) (live : List Nat) (ptr : Option Nat) (size : Nat)
    (r : Option Nat) : List Nat :=
  r.toList ++
    match ptr with
    | some a => if r.isSome || (size == 0 && !d.isAllocated a) then live.erase a else live
    | none => live

/-- One call. Setting up or releasing the pool changes nothing when it is refused; releasing it
takes away the pointers into its blocks. -/
def step (c : Client σ) : Call → Except Fault (Client σ)
  | .initPool g =>
    match c.door.initPool S g with
    | .ok d => .ok { c with door := d }
    | .error (.error _) => .ok c
    | .error (.fault f) => .error f
  | .finiPool =>
    match c.door.finiPool with
    | .ok d => .ok ⟨d, c.live.filter fun a => !c.door.isAllocated a⟩
    | .error _ => .ok c
  | .malloc size => do
    let (r, d) ← c.door.defaultMalloc S size
    return ⟨d, r.toList ++ c.live⟩
  | .realloc ptr size => do
    let (r, d) ← c.door.defaultRealloc S ptr size
    return ⟨d, afterRealloc c.door c.live ptr size r⟩
  | .free ptr => do
    let d ← c.door.defaultFree S ptr
    return ⟨d, match ptr with | some a => c.live.erase a | none => c.live⟩

/-- The call's pointer argument is null or held. -/
def Admits (c : Client σ) : Call → Prop
  | .realloc ptr _ | .free ptr => ∀ a ∈ ptr, a ∈ c.live
  | _ => True

/-- An address the heap may hand out: held by no one, and in no block of the pool. -/
def Fresh (c : Client σ) (b : Nat) : Prop :=
  b ∉ c.live ∧ ∀ p, c.door.pool = some p → p.blockIndex b = none

/-- What the system may answer the call, as glibc and the kernel document it: an allocation, and
a resize of a block moved to the heap, get a fresh address; a resize of anything else gets the
pointer itself or a fresh address; and a pool's region is mapped where no held pointer lies. -/
def Answers (c : Client σ) : Call → Prop
  | .initPool _ => ∀ n b, S.map c.door.sys n = .ok b → ∀ a ∈ c.live, a < b ∨ b + n ≤ a
  | .malloc n => ∀ b ∈ (S.malloc c.door.sys n).1, c.Fresh b
  | .realloc ptr n =>
    if ptr.any c.door.isAllocated then ∀ b ∈ (S.malloc c.door.sys n).1, c.Fresh b
    else ∀ b ∈ (S.realloc c.door.sys ptr n).1, ptr = some b ∨ c.Fresh b
  | _ => True

/-- The states a caller reaches from a door without a pool, holding nothing, through calls
whose pointer argument is null or held and which the system answers as documented. -/
inductive Reachable : Client σ → Prop
  | fresh {d : FrontDoor σ} : d.pool = none → Reachable ⟨d, []⟩
  | step {c c' : Client σ} {call : Call} :
      Reachable c → c.Admits call → c.Answers S call → c.step S call = .ok c' → Reachable c'

/-- The blocks `p` has in use are the held pointers that fall in a block, each held by its
start. -/
structure BlocksHeld (p : Pool) (live : List Nat) : Prop where
  inv : p.Inv
  held : ∀ a ∈ live, ∀ i, p.blockIndex a = some i → p.bitmap.bit i = false ∧ a = p.addressOf i
  used : ∀ i < p.capacity, p.bitmap.bit i = false → p.addressOf i ∈ live

/-- What every reachable state keeps: distinct held pointers, and the blocks in use held
exactly. -/
structure Inv (c : Client σ) : Prop where
  nodup : c.live.Nodup
  blocks : ∀ p, c.door.pool = some p → BlocksHeld p c.live

/-! ### Held blocks -/

namespace BlocksHeld

variable {p : Pool} {live : List Nat} (hb : BlocksHeld p live)
include hb

/-- A held pointer that falls in a block is that block's start, and the block is in use. -/
theorem held_of_blockIndex {a i : Nat} (ha : a ∈ live) (hi : p.blockIndex a = some i) :
    i < p.capacity ∧ p.bitmap.bit i = false ∧ a = p.addressOf i :=
  ⟨hb.inv.lt_capacity_of_blockIndex hi, hb.held a ha i hi⟩

/-- Only the held pointers that fall in a block matter. -/
theorem of_blocks {live' : List Nat} (h : ∀ a i, p.blockIndex a = some i → (a ∈ live' ↔ a ∈ live)) :
    BlocksHeld p live' where
  inv := hb.inv
  held a ha i hi := hb.held a ((h a i hi).1 ha) i hi
  used i hi hbit := (h _ i (hb.inv.blockIndex_addressOf hi)).2 (hb.used i hi hbit)

/-- Handing out the first free block adds its start. -/
theorem clear {i : Nat} (hf : p.bitmap.firstFree = some i) :
    BlocksHeld { p with bitmap := p.bitmap.clear i } (p.addressOf i :: live) where
  inv := hb.inv.clear i
  held a ha j hj := by
    have hi : i < p.capacity := hb.inv.lt_capacity_of_bit (Bitmap.bit_firstFree hf).1
    rw [Pool.blockIndex_clear] at hj
    rcases List.mem_cons.1 ha with rfl | ha
    · rw [hb.inv.blockIndex_addressOf hi, Option.some.injEq] at hj
      subst hj
      exact ⟨by simp [Bitmap.bit_clear], rfl⟩
    · obtain ⟨hbit, rfl⟩ := hb.held a ha j hj
      exact ⟨by simp [Bitmap.bit_clear, hbit], rfl⟩
  used j hj hbit := by
    simp only [Bitmap.bit_clear, Bool.and_eq_false_iff, Bool.not_eq_false', decide_eq_true_eq] at hbit
    rcases hbit with hbit | rfl
    · exact List.mem_cons_of_mem _ (hb.used j hj hbit)
    · exact List.mem_cons_self

/-- Giving back a held block takes its start away. -/
theorem mark (hn : live.Nodup) {a i : Nat} (ha : a ∈ live) (hi : p.blockIndex a = some i) :
    BlocksHeld { p with bitmap := p.bitmap.mark i } (live.erase a) := by
  obtain ⟨hcap, -, rfl⟩ := hb.held_of_blockIndex ha hi
  have hsize : i < 64 * p.bitmap.chunks.size := hb.inv.wf.lt_size hcap
  refine ⟨hb.inv.mark hcap, fun c hc j hj => ?_, fun j hj hbit => ?_⟩
  · rw [Pool.blockIndex_mark] at hj
    obtain ⟨hne, hc⟩ := (hn.mem_erase_iff).1 hc
    obtain ⟨hbit, rfl⟩ := hb.held c hc j hj
    have hij : i ≠ j := fun h => hne (h ▸ rfl)
    exact ⟨by simp [Bitmap.bit_mark _ hsize, hbit, hij], rfl⟩
  · simp only [Bitmap.bit_mark _ hsize, Bool.or_eq_false_iff, decide_eq_false_iff_not] at hbit
    refine (hn.mem_erase_iff).2 ⟨fun h => hbit.2 ?_, hb.used j hj hbit.1⟩
    exact ((hb.inv.addressOf_inj).1 h).symm

/-- The blocks in use are the blocks of the held pointers. -/
theorem used_eq : p.view.used = (live.filterMap p.blockIndex).toFinset := by
  ext i
  rw [Pool.mem_view_used, List.mem_toFinset, List.mem_filterMap]
  constructor
  · rintro ⟨hi, hbit⟩
    exact ⟨_, hb.used i hi hbit, hb.inv.blockIndex_addressOf hi⟩
  · rintro ⟨a, ha, hai⟩
    obtain ⟨hi, hbit, -⟩ := hb.held_of_blockIndex ha hai
    exact ⟨hi, hbit⟩

/-- A held pointer is a block in use exactly when it falls in a block. -/
theorem isAllocated_eq {a : Nat} (ha : a ∈ live) : p.isAllocated a = (p.blockIndex a).isSome := by
  cases hi : p.blockIndex a with
  | none => simp [Pool.isAllocated, hi]
  | some i =>
    obtain ⟨-, hbit, -⟩ := hb.held_of_blockIndex ha hi
    simp [Pool.isAllocated, hi, hbit]

end BlocksHeld

/-! ### One call -/

variable {S} {c : Client σ}

theorem step_malloc {size : Nat} {r : Option Nat} {d : FrontDoor σ}
    (h : c.door.defaultMalloc S size = .ok (r, d)) :
    c.step S (.malloc size) = .ok ⟨d, r.toList ++ c.live⟩ := by
  simp only [step, h, bind, Except.bind, pure, Except.pure]

theorem step_realloc {ptr : Option Nat} {size : Nat} {r : Option Nat} {d : FrontDoor σ}
    (h : c.door.defaultRealloc S ptr size = .ok (r, d)) :
    c.step S (.realloc ptr size) = .ok ⟨d, afterRealloc c.door c.live ptr size r⟩ := by
  simp only [step, h, bind, Except.bind, pure, Except.pure]

theorem step_free_none {d : FrontDoor σ} (h : c.door.defaultFree S none = .ok d) :
    c.step S (.free none) = .ok ⟨d, c.live⟩ := by
  simp only [step, h, bind, Except.bind, pure, Except.pure]

theorem step_free {a : Nat} {d : FrontDoor σ} (h : c.door.defaultFree S (some a) = .ok d) :
    c.step S (.free (some a)) = .ok ⟨d, c.live.erase a⟩ := by
  simp only [step, h, bind, Except.bind, pure, Except.pure]

/-- Resizing keeps all held pointers but the old one, and adds the answer. -/
theorem afterRealloc_eq (d : FrontDoor σ) (live : List Nat) (ptr : Option Nat) (size : Nat)
    (r : Option Nat) :
    ∃ kept, afterRealloc d live ptr size r = r.toList ++ kept ∧ kept.Sublist live ∧
      ∀ a ∈ live, a ∉ kept → ptr = some a := by
  unfold afterRealloc
  cases ptr with
  | none => exact ⟨live, rfl, List.Sublist.refl _, fun a ha hn => absurd ha hn⟩
  | some a =>
    dsimp only
    split
    · refine ⟨live.erase a, rfl, List.erase_sublist, fun b hb hn => ?_⟩
      by_contra hne
      exact hn ((List.mem_erase_of_ne (fun h => hne (congrArg some h.symm))).2 hb)
    · exact ⟨live, rfl, List.Sublist.refl _, fun b hb hn => absurd hb hn⟩

/-- A resize answered with a pointer drops the old one. -/
theorem afterRealloc_moved (d : FrontDoor σ) (live : List Nat) (a size b : Nat) :
    afterRealloc d live (some a) size (some b) = b :: live.erase a := by
  simp [afterRealloc]

/-- A block in use that the heap could not take stays held. -/
theorem afterRealloc_stuck (d : FrontDoor σ) (live : List Nat) {a : Nat} (ha : d.isAllocated a = true)
    (size : Nat) : afterRealloc d live (some a) size none = live := by
  simp [afterRealloc, ha]

namespace Inv

variable (hc : c.Inv)
include hc

/-- A held pointer that is no block in use falls in no block. -/
theorem blockIndex_of_not_allocated {p : Pool} (hd : c.door.pool = some p) {a : Nat} (ha : a ∈ c.live)
    (h : p.isAllocated a = false) : p.blockIndex a = none := by
  have hb := hc.blocks p hd
  rw [hb.isAllocated_eq ha] at h
  simpa using h

/-- The heap answering keeps the invariant, when the answer is held by no one kept and falls in
no block, and the pointers dropped fall in no block. -/
theorem heap {r : Option Nat} {kept : List Nat} (hr : ∀ b ∈ r, b ∉ kept ∧
      ∀ p, c.door.pool = some p → p.blockIndex b = none) (hsub : kept.Sublist c.live)
    (hdrop : ∀ a ∈ c.live, a ∉ kept → ∀ p, c.door.pool = some p → p.blockIndex a = none) (s' : σ) :
    Inv ⟨{ c.door with sys := s' }, r.toList ++ kept⟩ := by
  have hmem : ∀ a ∈ kept, a ∈ c.live := fun a ha => hsub.subset ha
  refine ⟨?_, fun p hd => (hc.blocks p hd).of_blocks fun a i hi => ?_⟩
  · cases r with
    | none => exact hc.nodup.sublist hsub
    | some b => exact List.nodup_cons.2 ⟨(hr b rfl).1, hc.nodup.sublist hsub⟩
  · -- a pointer that falls in a block is neither the answer nor dropped
    constructor
    · intro ha
      rcases List.mem_append.1 ha with ha | ha
      · cases r with
        | none => cases ha
        | some b =>
          obtain rfl := List.mem_singleton.1 ha
          rw [(hr a rfl).2 p hd] at hi
          cases hi
      · exact hmem a ha
    · intro ha
      by_contra hn
      rw [hdrop a ha (fun hk => hn (List.mem_append_right _ hk)) p hd] at hi
      cases hi

/-- Handing out the first free block keeps the invariant. -/
theorem alloc {p : Pool} (hd : c.door.pool = some p) {i : Nat} (hf : p.bitmap.firstFree = some i) :
    Inv ⟨{ c.door with pool := some { p with bitmap := p.bitmap.clear i } }, p.addressOf i :: c.live⟩ := by
  have hb := hc.blocks p hd
  have hi : i < p.capacity := hb.inv.lt_capacity_of_bit (Bitmap.bit_firstFree hf).1
  refine ⟨List.nodup_cons.2 ⟨fun hk => ?_, hc.nodup⟩, fun q hq => ?_⟩
  · obtain ⟨hbit, -⟩ := hb.held _ hk i (hb.inv.blockIndex_addressOf hi)
    rw [(Bitmap.bit_firstFree hf).1] at hbit
    cases hbit
  · cases hq
    exact hb.clear hf

/-- Giving back a held block keeps the invariant. -/
theorem free {p : Pool} (hd : c.door.pool = some p) {a i : Nat} (ha : a ∈ c.live)
    (hi : p.blockIndex a = some i) :
    Inv ⟨{ c.door with pool := some { p with bitmap := p.bitmap.mark i } }, c.live.erase a⟩ :=
  ⟨hc.nodup.erase a, fun q hq => by cases hq; exact (hc.blocks p hd).mark hc.nodup ha hi⟩

/-- Releasing the pool keeps the pointers that are no block in use. -/
theorem fini : Inv ⟨{ c.door with pool := none }, c.live.filter fun a => !c.door.isAllocated a⟩ :=
  ⟨hc.nodup.filter _, fun q hq => by cases hq⟩

/-- Setting up a pool over a region that holds no held pointer keeps the invariant. -/
theorem init {map : Nat → Except Nat Nat} {g : Geometry} {p : Pool}
    (h : Pool.init map g = .ok p) (hout : ∀ a ∈ c.live, p.blockIndex a = none) :
    Inv ⟨{ c.door with pool := some p }, c.live⟩ := by
  obtain ⟨_, -, -, hbm, -⟩ := Pool.init_eq_ok h
  refine ⟨hc.nodup, fun q hq => ?_⟩
  cases hq
  refine ⟨Pool.inv_of_init h, fun a ha i hi => ?_, fun i hi hbit => ?_⟩
  · rw [hout a ha] at hi
    cases hi
  · have hcap : i < (Bitmap.new (g.maxSize / g.blockSize)).len := by rwa [← hbm]
    rw [hbm, Bitmap.bit_new, decide_eq_false_iff_not] at hbit
    exact absurd hcap hbit

/-- The heap's answer to an allocation keeps the invariant. -/
theorem heap_keep {r : Option Nat} (hr : ∀ b ∈ r, c.Fresh b) (s' : σ) :
    Inv ⟨{ c.door with sys := s' }, r.toList ++ c.live⟩ :=
  hc.heap (fun b hb => hr b hb) (List.Sublist.refl _) (fun _ ha hn => absurd ha hn) s'

theorem malloc_ok (size : Nat) :
    ∃ c', c.step S (.malloc size) = .ok c' ∧ (c.Answers S (.malloc size) → c'.Inv) := by
  cases hd : c.door.pool with
  | none =>
    exact ⟨_, step_malloc (FrontDoor.defaultMalloc_of_none S hd size), fun hans => hc.heap_keep hans _⟩
  | some p =>
    by_cases hs : size = p.blockSize
    · cases hf : p.bitmap.firstFree with
      | none =>
        exact ⟨_, step_malloc (FrontDoor.defaultMalloc_of_heap S hd (.inr hf)),
          fun hans => hc.heap_keep hans _⟩
      | some i =>
        subst hs
        exact ⟨_, step_malloc (FrontDoor.defaultMalloc_of_firstFree S hd (hc.blocks p hd).inv hf),
          fun _ => hc.alloc hd hf⟩
    · exact ⟨_, step_malloc (FrontDoor.defaultMalloc_of_heap S hd (.inl hs)),
        fun hans => hc.heap_keep hans _⟩

/-- Resizing what is no block in use is the heap's, which may drop only the old pointer. -/
theorem realloc_heap {ptr : Option Nat} (hptr : ∀ a ∈ ptr, a ∈ c.live) (size : Nat)
    (hheap : ∀ p a, c.door.pool = some p → ptr = some a → p.isAllocated a = false) :
    ∃ c', c.step S (.realloc ptr size) = .ok c' ∧
      ((∀ b ∈ (S.realloc c.door.sys ptr size).1, ptr = some b ∨ c.Fresh b) → c'.Inv) := by
  obtain ⟨kept, hkept, hsub, hdrop⟩ :=
    afterRealloc_eq c.door c.live ptr size (S.realloc c.door.sys ptr size).1
  refine ⟨_, step_realloc (FrontDoor.defaultRealloc_of_heap S size hheap), fun hans => ?_⟩
  rw [hkept]
  refine hc.heap (fun b hb => ?_) hsub (fun a ha hn p hd => ?_) _
  · rcases hans b hb with rfl | ⟨hlive, hout⟩
    · -- the heap kept the pointer where it was: it was dropped and comes back as the answer
      refine ⟨fun hk => ?_, fun p hd => hc.blockIndex_of_not_allocated hd (hptr b rfl) (hheap p b hd rfl)⟩
      have hne : (S.realloc c.door.sys (some b) size).1.isSome := Option.isSome_iff_exists.2 ⟨b, hb⟩
      unfold afterRealloc at hkept
      simp only [hne, Bool.true_or, ↓reduceIte, List.append_cancel_left_eq] at hkept
      rw [← hkept] at hk
      exact (hc.nodup.mem_erase_iff.1 hk).1 rfl
    · exact ⟨fun hk => hlive (hsub.subset hk), hout⟩
  · obtain rfl := hdrop a ha hn
    exact hc.blockIndex_of_not_allocated hd ha (hheap p a hd rfl)

theorem realloc_ok {ptr : Option Nat} (hptr : ∀ a ∈ ptr, a ∈ c.live) (size : Nat) :
    ∃ c', c.step S (.realloc ptr size) = .ok c' ∧ (c.Answers S (.realloc ptr size) → c'.Inv) := by
  cases hd : c.door.pool with
  | none =>
    have hnot : ptr.any c.door.isAllocated = false := by
      cases ptr <;> simp [FrontDoor.isAllocated, hd]
    obtain ⟨c', hstep, hinv⟩ := hc.realloc_heap hptr size fun p a hp _ => by rw [hd] at hp; cases hp
    exact ⟨c', hstep, fun hans => hinv (by simpa only [Answers, hnot, Bool.false_eq_true, ↓reduceIte] using hans)⟩
  | some p =>
    have hb := hc.blocks p hd
    rcases FrontDoor.defaultReallocIn_cases S .unrecorded () hd hb.inv ptr size with
      ⟨a, i, b, s', rfl, hi, hbit, hm, hre⟩ | ⟨a, s', rfl, hall, hm, hre⟩ | ⟨hfree, -⟩
    · -- the block moves to the heap and is given back
      refine ⟨_, step_realloc (FrontDoor.defaultRealloc_of_In S hre), fun hans => ?_⟩
      have hall : c.door.isAllocated a = true := by
        simp [FrontDoor.isAllocated, hd, Pool.isAllocated_iff.2 ⟨i, hi, hbit⟩]
      simp only [Answers, Option.any_some, hall, ↓reduceIte, hm] at hans
      rw [afterRealloc_moved]
      obtain ⟨hlive, hout⟩ := hans b rfl
      refine (hc.free hd (hptr a rfl) hi).heap (r := some b) (fun b' hb' => ?_)
        (List.Sublist.refl _) (fun _ ha hn => absurd ha hn) s'
      obtain rfl := Option.some.inj hb'
      refine ⟨fun hk => hlive (List.mem_of_mem_erase hk), fun q hq => ?_⟩
      cases hq
      simpa using hout p hd
    · -- the heap cannot take it, and the block stays held
      have hall' : c.door.isAllocated a = true := by simp [FrontDoor.isAllocated, hd, hall]
      refine ⟨_, step_realloc (FrontDoor.defaultRealloc_of_In S hre), fun _ => ?_⟩
      rw [afterRealloc_stuck _ _ hall']
      exact hc.heap (r := none) (fun _ h => by cases h) (List.Sublist.refl _)
        (fun _ ha hn => absurd ha hn) s'
    · have hnot : ptr.any c.door.isAllocated = false := by
        cases ptr with
        | none => rfl
        | some a => simp [FrontDoor.isAllocated, hd, hfree a rfl]
      obtain ⟨c', hstep, hinv⟩ := hc.realloc_heap hptr size fun q a hq ha => by
        rw [hd, Option.some.injEq] at hq
        subst hq
        exact hfree a ha
      exact ⟨c', hstep, fun hans => hinv (by simpa only [Answers, hnot, Bool.false_eq_true, ↓reduceIte] using hans)⟩

theorem free_ok {ptr : Option Nat} (hptr : ∀ a ∈ ptr, a ∈ c.live) :
    ∃ c', c.step S (.free ptr) = .ok c' ∧ c'.Inv := by
  by_cases hblock : ∃ p a, c.door.pool = some p ∧ ptr = some a ∧ p.isAllocated a = true
  · obtain ⟨p, a, hd, rfl, hall⟩ := hblock
    obtain ⟨i, hi, hbit⟩ := Pool.isAllocated_iff.1 hall
    exact ⟨_, step_free (FrontDoor.defaultFree_of_block S hd (hc.blocks p hd).inv hi hbit),
      hc.free hd (hptr a rfl) hi⟩
  · have hheap : ∀ p a, c.door.pool = some p → ptr = some a → p.isAllocated a = false := by
      intro p a hd ha
      by_contra hall
      exact hblock ⟨p, a, hd, ha, Bool.eq_true_of_not_eq_false hall⟩
    -- a heap pointer given back falls in no block, so dropping it keeps the blocks held
    have hkeep : ∀ kept : List Nat, kept.Sublist c.live → (∀ b ∈ c.live, b ∉ kept → ptr = some b) →
        Inv ⟨{ c.door with sys := S.free c.door.sys ptr }, kept⟩ := fun kept hsub hdrop =>
      hc.heap (r := none) (fun _ h => by cases h) hsub (fun b hb hn p hd => by
        obtain rfl := hdrop b hb hn
        exact hc.blockIndex_of_not_allocated hd hb (hheap p b hd rfl)) _
    cases ptr with
    | none =>
      exact ⟨_, step_free_none (FrontDoor.defaultFree_of_heap S hheap),
        hkeep c.live (List.Sublist.refl _) fun _ hb hn => absurd hb hn⟩
    | some a =>
      refine ⟨_, step_free (FrontDoor.defaultFree_of_heap S hheap),
        hkeep _ List.erase_sublist fun b hb hn => ?_⟩
      by_contra hne
      exact hn ((List.mem_erase_of_ne fun h => hne (congrArg some h.symm)).2 hb)

theorem fini_ok : ∃ c', c.step S .finiPool = .ok c' ∧ c'.Inv := by
  cases hd : c.door.pool with
  | none => exact ⟨c, by simp [step, FrontDoor.finiPool, hd], hc⟩
  | some p =>
    exact ⟨⟨{ c.door with pool := none }, c.live.filter fun a => !c.door.isAllocated a⟩,
      by simp [step, FrontDoor.finiPool, hd], hc.fini⟩

theorem init_inv {g : Geometry} (hans : c.Answers S (.initPool g)) {c' : Client σ}
    (h : c.step S (.initPool g) = .ok c') : c'.Inv := by
  dsimp only [step] at h
  split at h
  · next d hd =>
    obtain ⟨-, p, hp, rfl⟩ := FrontDoor.initPool_eq_ok S hd
    cases h
    -- the kernel mapped the region where no held pointer lies, so none falls in a block
    obtain ⟨base, hmap, hr, -⟩ := Pool.init_eq_ok hp
    have hinv := Pool.inv_of_init hp
    refine hc.init hp fun a ha => ?_
    have hsize : p.capacity * p.blockSize = g.maxSize := by rw [← hinv.region_size, hr]
    rw [Pool.blockIndex_eq, hr, if_neg]
    dsimp only
    rw [hsize]
    rcases hans g.maxSize base hmap a ha with hlt | hge <;> omega
  · cases h
    exact hc
  · cases h

/-- Every call with a null or held pointer but setting up the pool succeeds, and keeps the
invariant when the system answers it as documented. -/
theorem progress {call : Call} (ha : c.Admits call) (hcall : ∀ g, call ≠ .initPool g) :
    ∃ c', c.step S call = .ok c' ∧ (c.Answers S call → c'.Inv) := by
  cases call with
  | initPool g => exact absurd rfl (hcall g)
  | finiPool => exact hc.fini_ok.imp fun _ h => ⟨h.1, fun _ => h.2⟩
  | malloc size => exact hc.malloc_ok size
  | realloc ptr size => exact hc.realloc_ok ha size
  | free ptr => exact (hc.free_ok ha).imp fun _ h => ⟨h.1, fun _ => h.2⟩

theorem step_inv {call : Call} (ha : c.Admits call) (hans : c.Answers S call) {c' : Client σ}
    (h : c.step S call = .ok c') : c'.Inv := by
  by_cases hinit : ∃ g, call = .initPool g
  · obtain ⟨g, rfl⟩ := hinit
    exact hc.init_inv hans h
  · obtain ⟨c'', h'', hi⟩ := hc.progress ha fun g hg => hinit ⟨g, hg⟩
    rw [h''] at h
    cases h
    exact hi hans

end Inv

theorem Reachable.inv {c : Client σ} (h : c.Reachable S) : c.Inv := by
  induction h with
  | fresh hd => exact ⟨List.nodup_nil, fun p hp => by simp [hd] at hp⟩
  | step _ ha hans hs ih => exact ih.step_inv ha hans hs

variable (S) in
/-- What a caller can count on in a state. -/
structure Sound (c : Client σ) : Prop where
  /-- No call with a null or held pointer faults, but setting up the pool. -/
  progress : ∀ call, c.Admits call → (∀ g, call ≠ .initPool g) → ∃ c', c.step S call = .ok c'
  /-- No pointer is held twice. -/
  nodup : c.live.Nodup
  /-- The blocks in use are the blocks the held pointers fall in. -/
  used_eq : ∀ p, c.door.pool = some p → p.view.used = (c.live.filterMap p.blockIndex).toFinset
  /-- A held pointer is a block in use exactly when it falls in a block of the pool. -/
  isAllocated_eq :
    ∀ a ∈ c.live, c.door.isAllocated a = c.door.pool.any fun p => (p.blockIndex a).isSome
  /-- `malloc` answers with the lowest free block when there is a pool, the size is its block
  size and a block is free, and with the heap's answer otherwise. -/
  malloc_eq : ∀ size, (c.door.defaultMalloc S size).map Prod.fst =
    .ok (match c.door.pool with
      | some p =>
        if size = p.blockSize ∧ p.view.used.card < p.capacity then some (p.addressOf p.view.lowestFree)
        else (S.malloc c.door.sys size).1
      | none => (S.malloc c.door.sys size).1)
  /-- Giving back a held block frees that block alone. -/
  free_eq : ∀ p a i, c.door.pool = some p → a ∈ c.live → p.blockIndex a = some i →
    (c.door.defaultFree S (some a)).map (fun d => d.pool.map fun q => q.view.used) =
      .ok (some (p.view.used.erase i))

namespace Inv

variable (hc : c.Inv)
include hc

theorem isAllocated_eq {a : Nat} (ha : a ∈ c.live) :
    c.door.isAllocated a = c.door.pool.any fun p => (p.blockIndex a).isSome := by
  unfold FrontDoor.isAllocated
  cases hd : c.door.pool with
  | none => rfl
  | some p => exact (hc.blocks p hd).isAllocated_eq ha

theorem free_eq {p : Pool} (hd : c.door.pool = some p) {a i : Nat} (ha : a ∈ c.live)
    (hi : p.blockIndex a = some i) :
    (c.door.defaultFree S (some a)).map (fun d => d.pool.map fun q => q.view.used) =
      .ok (some (p.view.used.erase i)) := by
  have hb := hc.blocks p hd
  obtain ⟨hcap, hbit, -⟩ := hb.held_of_blockIndex ha hi
  rw [FrontDoor.defaultFree_of_block S hd hb.inv hi hbit]
  simp only [Except.map, Option.map_some, Pool.view_mark (hb.inv.wf.lt_size hcap)]

end Inv

/-- Along every run of the default path whose pointer arguments are null or held, over any
system that answers as glibc and the kernel document, no call but setting up the pool faults,
the held pointers are distinct and are the blocks in use and heap pointers, `malloc` serves the
lowest free block of the right size before the heap, and giving back a held block frees that
block alone. -/
theorem Reachable.sound {c : Client σ} (h : c.Reachable S) : c.Sound S := by
  have hc := h.inv
  exact ⟨fun _ ha hcall => (hc.progress ha hcall).imp fun _ => And.left, hc.nodup,
    fun p hd => (hc.blocks p hd).used_eq, fun _ ha => hc.isAllocated_eq ha,
    FrontDoor.defaultMalloc_answer S fun p hd => (hc.blocks p hd).inv,
    fun _ _ _ hd ha hi => hc.free_eq hd ha hi⟩

/-- A pool of two one-page blocks over the runnable system, the first of them handed out. -/
theorem reachable_sound_one_block :
    Client.Reachable Heap.system
      ⟨{ pool := some ⟨⟨regionBase, 2 * pageSize⟩, (Bitmap.new 2).clear 0, pageSize⟩, sys := {} },
        [regionBase]⟩ ∧
    Client.Sound Heap.system
      ⟨{ pool := some ⟨⟨regionBase, 2 * pageSize⟩, (Bitmap.new 2).clear 0, pageSize⟩, sys := {} },
        [regionBase]⟩ :=
  have h0 : Client.Reachable Heap.system ⟨{ sys := {} }, []⟩ := .fresh rfl
  have h1 : Client.Reachable Heap.system
      ⟨{ pool := some ⟨⟨regionBase, 2 * pageSize⟩, Bitmap.new 2, pageSize⟩, sys := {} }, []⟩ :=
    .step h0 (show Admits _ (.initPool ⟨pageSize, 2 * pageSize⟩) from trivial)
      (fun _ _ _ _ ha => absurd ha List.not_mem_nil) rfl
  have h : Client.Reachable Heap.system
      ⟨{ pool := some ⟨⟨regionBase, 2 * pageSize⟩, (Bitmap.new 2).clear 0, pageSize⟩, sys := {} },
        [regionBase]⟩ :=
    .step h1 (show Admits _ (.malloc pageSize) from trivial)
      (fun b hb => ⟨List.not_mem_nil, fun p hp => by
        cases hp
        obtain rfl := Option.some.inj hb.symm
        decide⟩) rfl
  ⟨h, h.sound⟩

end Client

end ChunkRuntime
