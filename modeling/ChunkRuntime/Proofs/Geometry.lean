import Mathlib
import ChunkRuntime.Proofs.BlockFlags
import ChunkRuntime.Proofs.Door

/-! Making a pool from a geometry, for every geometry. `validate` asks that the geometry tiles: a
block of whole pages, a region of whole blocks, neither empty (`Geometry.Tiles`). Reserving the
region then rounds its size up to pages, which computes `maxSize + pageSize` in a word: for a
size that tiles this gives the size back, except at the one size that ends a page short of the
word's top, where the sum leaves the word and making the pool faults
(`init_faults_one_page_below_top`). Otherwise the region is refused when the system refuses to
map it, with the system's error number, and the pool made is the whole region where the system
mapped it, with every block free (`Pool.Fresh`).
`init_outcomes` says which of these four ends each geometry meets, for the pool and for the
front door that makes one. -/

namespace ChunkRuntime

namespace Geometry

/-- The block is a non-zero whole number of pages and the region a non-zero whole number of
blocks. -/
def Tiles (g : Geometry) : Prop :=
  0 < g.blockSize ∧ pageSize ∣ g.blockSize ∧ 0 < g.maxSize ∧ g.blockSize ∣ g.maxSize

instance (g : Geometry) : Decidable g.Tiles := inferInstanceAs (Decidable (_ ∧ _ ∧ _ ∧ _))

/-- The check `validate` makes is that the geometry tiles. -/
theorem check_iff (g : Geometry) :
    (isMultipleOf g.blockSize pageSize && isMultipleOf g.maxSize g.blockSize) = true ↔ g.Tiles := by
  simp only [Bool.and_eq_true, isMultipleOf_iff, Tiles]
  constructor
  · rintro ⟨⟨-, hb, hpb⟩, -, hm, hbm⟩
    exact ⟨Nat.pos_of_ne_zero hb, hpb, Nat.pos_of_ne_zero hm, hbm⟩
  · rintro ⟨hb, hpb, hm, hbm⟩
    exact ⟨⟨by decide, by omega, hpb⟩, by omega, by omega, hbm⟩

theorem validate_eq (g : Geometry) :
    g.validate = if g.Tiles then .ok () else .error (.invalidGeometry g.blockSize g.maxSize pageSize) := by
  unfold validate
  by_cases h : g.Tiles
  · rw [if_pos ((check_iff g).2 h), if_pos h]
  · rw [if_neg (mt (check_iff g).1 h), if_neg h]

end Geometry

namespace Pool

/-- Making a pool: a geometry that does not tile is refused; one that does has its size rounded
to pages, which computes `maxSize + pageSize` and faults when that leaves the word; the region
is then mapped where the system places it, or refused with the system's error number, and the
pool is the whole region with every block free. -/
theorem init_eq (map : Nat → Except Nat Nat) (g : Geometry) :
    Pool.init map g =
      if g.Tiles then
        if g.maxSize + pageSize < wordLimit then
          match map g.maxSize with
          | .ok base => .ok ⟨⟨base, g.maxSize⟩, Bitmap.new (g.maxSize / g.blockSize), g.blockSize⟩
          | .error e => .error (.error (.outOfAddressSpace g.maxSize e))
        else .error (.fault .addOverflow)
      else .error (.error (.invalidGeometry g.blockSize g.maxSize pageSize)) := by
  unfold Pool.init
  rw [Geometry.validate_eq]
  by_cases ht : g.Tiles
  · have hms : g.maxSize ≠ 0 := Nat.pos_iff_ne_zero.1 ht.2.2.1
    have hround := roundUp_of_dvd (show 0 < pageSize by decide) (Nat.dvd_trans ht.2.1 ht.2.2.2)
    rw [if_pos ht, if_pos ht]
    unfold Region.reserve
    rw [hround]
    -- the rounding gives the size back unless its sum overflows, and then the system maps it
    by_cases hw : g.maxSize + pageSize < wordLimit
    · cases hmap : map g.maxSize with
      | error e =>
        simp [hms, hw, hmap, Halt.ofError, Halt.ofFault, bind, Except.bind, throw, throwThe,
          MonadExceptOf.throw]
      | ok base => simp [hms, hw, hmap, Halt.ofError, Halt.ofFault, bind, Except.bind, pure, Except.pure]
    · simp [hms, hw, Halt.ofError, Halt.ofFault, bind, Except.bind]
  · rw [if_neg ht, if_neg ht]
    rfl

/-- A pool as `init` leaves it for geometry `g`: blocks of the geometry's size, as many as the
region holds and at least one, tiling the region exactly, the region's size in its picture, and
every block free. -/
structure Fresh (g : Geometry) (p : Pool) : Prop where
  blockSize_eq : p.blockSize = g.blockSize
  capacity_eq : p.capacity = g.maxSize / g.blockSize
  one_le_capacity : 1 ≤ p.capacity
  tiles : p.capacity * p.blockSize = g.maxSize
  snapshot_maxSize : p.snapshot.maxSize = g.maxSize
  all_free : p.bitmap.flags = List.replicate p.capacity true
  stats_eq : p.stats = ⟨0, p.capacity⟩
  none_used : p.snapshot.allocated = []

theorem fresh_of_tiles (base : Nat) {g : Geometry} (ht : g.Tiles) :
    Fresh g ⟨⟨base, g.maxSize⟩, Bitmap.new (g.maxSize / g.blockSize), g.blockSize⟩ := by
  obtain ⟨hbs, -, hms, hdvd⟩ := ht
  have hreads := (Bitmap.wf_new (g.maxSize / g.blockSize)).reads
  rw [Bitmap.flags_new] at hreads
  have hused : (Bitmap.new (g.maxSize / g.blockSize)).countUsed = 0 := by
    rw [hreads.countUsed, List.count_eq_zero]
    simp [List.mem_replicate]
  refine ⟨rfl, rfl, Nat.div_pos (Nat.le_of_dvd hms hdvd) hbs, Nat.div_mul_cancel hdvd, rfl,
    Bitmap.flags_new _, ?_, ?_⟩
  · simp [stats, capacity, hused]
  · rw [snapshot, hreads.used, List.filter_eq_nil_iff]
    intro i _
    simp [List.getElem?_replicate]

/-- How making a pool of geometry `g` can end, for a call that answers `r`, whose region is
mapped by `map` and whose success holds the pool `pool`: refused exactly when the geometry does
not tile; faulting, on the sum the rounding to pages computes, exactly when it tiles and the
region ends one page short of the word's top; refused for want of address space, with the
system's error number, exactly when it tiles, does not fault and the system refuses the mapping;
and otherwise made, as a fresh pool where the system mapped it. -/
structure Ends {α : Type} (g : Geometry) (map : Nat → Except Nat Nat) (pool : α → Option Pool)
    (r : Except Halt α) : Prop where
  invalid : r = .error (.error (.invalidGeometry g.blockSize g.maxSize pageSize)) ↔ ¬ g.Tiles
  fault : ∀ f, r = .error (.fault f) ↔ g.Tiles ∧ g.maxSize = wordLimit - pageSize ∧ f = .addOverflow
  no_room : ∀ e, r = .error (.error (.outOfAddressSpace g.maxSize e)) ↔
    g.Tiles ∧ g.maxSize ≠ wordLimit - pageSize ∧ map g.maxSize = .error e
  made : ∀ a, r = .ok a → ∃ p, pool a = some p ∧ Fresh g p ∧ map g.maxSize = .ok p.base
  made_iff : (∃ a, r = .ok a) ↔
    g.Tiles ∧ g.maxSize ≠ wordLimit - pageSize ∧ ∃ b, map g.maxSize = .ok b

/-- A region that tiles and fits in the word leaves a page's room below the word's top, unless
it ends exactly one page short of it. -/
theorem add_page_lt_iff {g : Geometry} (ht : g.Tiles) (hw : g.maxSize < wordLimit) :
    g.maxSize + pageSize < wordLimit ↔ g.maxSize ≠ wordLimit - pageSize := by
  -- the region is whole pages, and so is the word, so the room left is a whole number of pages
  have hpage : g.maxSize % pageSize = 0 := Nat.mod_eq_zero_of_dvd (Nat.dvd_trans ht.2.1 ht.2.2.2)
  have hW : wordLimit = 18446744073709551616 := rfl
  simp only [hW, pageSize] at hpage hw ⊢
  omega

section Outcomes

variable {α : Type} {g : Geometry} {map : Nat → Except Nat Nat} {pool : α → Option Pool}

theorem ends_invalid (ht : ¬ g.Tiles) :
    Ends g map pool (.error (.error (.invalidGeometry g.blockSize g.maxSize pageSize))) where
  invalid := by simp [ht]
  fault f := by simp [ht]
  no_room e := by simp [ht]
  made a h := by cases h
  made_iff := by simp [ht]

theorem ends_fault (ht : g.Tiles) (htop : g.maxSize = wordLimit - pageSize) :
    Ends g map pool (.error (.fault .addOverflow)) where
  invalid := by simp [ht]
  fault f := by simp [ht, htop, eq_comm]
  no_room e := by simp [htop]
  made a h := by cases h
  made_iff := by simp [htop]

theorem ends_no_room (ht : g.Tiles) (htop : g.maxSize ≠ wordLimit - pageSize) {e : Nat}
    (hmap : map g.maxSize = .error e) :
    Ends g map pool (.error (.error (.outOfAddressSpace g.maxSize e))) where
  invalid := by simp [ht]
  fault f := by simp [htop]
  no_room e' := by simp [ht, htop, hmap]
  made a h := by cases h
  made_iff := by simp [hmap]

theorem ends_made (ht : g.Tiles) (htop : g.maxSize ≠ wordLimit - pageSize) {a : α} {p : Pool}
    (hpool : pool a = some p) (hp : Fresh g p) (hmap : map g.maxSize = .ok p.base) :
    Ends g map pool (.ok a) where
  invalid := by simp [ht]
  fault f := by simp [htop]
  no_room e := by simp [hmap]
  made a' h := by cases h; exact ⟨p, hpool, hp, hmap⟩
  made_iff := by simp [ht, htop, hmap]

end Outcomes

/-- A call whose success is passed on, holding the same pool, ends the same way. -/
theorem Ends.map {α β : Type} {g : Geometry} {map : Nat → Except Nat Nat} {pool : α → Option Pool}
    {pool' : β → Option Pool} {r : Except Halt α} (h : Ends g map pool r) (f : α → β)
    (hf : ∀ a, pool' (f a) = pool a) : Ends g map pool' (r.map f) := by
  cases r with
  | error e =>
    -- an error is passed on as it is, at the new type
    refine ⟨?_, fun f' => ?_, fun e' => ?_, fun b hb => ?_, ?_⟩
    · simpa [Except.map] using h.invalid
    · simpa [Except.map] using h.fault f'
    · simpa [Except.map] using h.no_room e'
    · cases hb
    · simpa [Except.map] using h.made_iff
  | ok a =>
    obtain ⟨p, hpool, hp, hmap⟩ := h.made a rfl
    obtain ⟨ht, htop, -⟩ := h.made_iff.1 ⟨a, rfl⟩
    exact ends_made ht htop ((hf a).trans hpool) hp hmap

theorem init_ends (map : Nat → Except Nat Nat) {g : Geometry} (hw : g.maxSize < wordLimit) :
    Ends g map some (Pool.init map g) := by
  rw [init_eq]
  by_cases ht : g.Tiles
  · rw [if_pos ht]
    by_cases hroom : g.maxSize + pageSize < wordLimit
    · have htop := (add_page_lt_iff ht hw).1 hroom
      rw [if_pos hroom]
      cases hmap : map g.maxSize with
      | error e => exact ends_no_room ht htop hmap
      | ok base => exact ends_made ht htop rfl (fresh_of_tiles base ht) hmap
    · have htop : g.maxSize = wordLimit - pageSize := not_not.1 (mt (add_page_lt_iff ht hw).2 hroom)
      rw [if_neg hroom]
      exact ends_fault ht htop
  · rw [if_neg ht]
    exact ends_invalid ht

/-- A geometry that tiles, one block filling a region that ends one page short of the word's
top: making its pool faults on the sum the rounding to pages computes. -/
theorem init_faults_one_page_below_top :
    Geometry.validate ⟨wordLimit - pageSize, wordLimit - pageSize⟩ = .ok () ∧
      Pool.init machineMap ⟨wordLimit - pageSize, wordLimit - pageSize⟩ = .error (.fault .addOverflow) := by
  have ht : (⟨wordLimit - pageSize, wordLimit - pageSize⟩ : Geometry).Tiles := by decide
  refine ⟨by rw [Geometry.validate_eq, if_pos ht], ?_⟩
  rw [init_eq, if_pos ht, if_neg (by decide)]

end Pool

theorem FrontDoor.initPool_of_none {σ : Type} (S : SystemOps σ) {d : FrontDoor σ} (hd : d.pool = none)
    (g : Geometry) :
    d.initPool S g = (Pool.init (S.map d.sys) g).map fun p => { d with pool := some p } := by
  unfold FrontDoor.initPool
  cases Pool.init (S.map d.sys) g <;> simp [hd, bind, Except.bind, Except.map, pure, Except.pure]

/-- For every geometry whose region size is a word, making a pool with any mapping is refused
exactly when the geometry does not tile; faults exactly when it tiles and the region ends one
page short of the word's top; is refused for want of address space, with the system's error
number, exactly when otherwise the system refuses the mapping; and else gives a pool of
`maxSize / blockSize` free blocks, at least one, tiling the region where the system mapped it. A
front door with no pool yet, over any system, ends the same way. -/
theorem init_outcomes {g : Geometry} (hw : g.maxSize < wordLimit) :
    (∀ map, Pool.Ends g map some (Pool.init map g)) ∧
      ∀ {σ : Type} (S : SystemOps σ) (d : FrontDoor σ), d.pool = none →
        Pool.Ends g (S.map d.sys) FrontDoor.pool (d.initPool S g) := by
  refine ⟨fun map => Pool.init_ends map hw, fun S d hd => ?_⟩
  rw [FrontDoor.initPool_of_none S hd]
  exact (Pool.init_ends (S.map d.sys) hw).map _ fun _ => rfl

/-- The default geometry. -/
theorem init_outcomes_default :
    Geometry.default.maxSize < wordLimit ∧
      (∀ map, Pool.Ends Geometry.default map some (Pool.init map Geometry.default)) ∧
      ∀ {σ : Type} (S : SystemOps σ) (d : FrontDoor σ), d.pool = none →
        Pool.Ends Geometry.default (S.map d.sys) FrontDoor.pool (d.initPool S Geometry.default) :=
  ⟨by decide, init_outcomes (by decide)⟩

end ChunkRuntime
