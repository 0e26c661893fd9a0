import Mathlib
import ChunkRuntime.Proofs.Chain
import ChunkRuntime.Front.Tracker

/-! The allocation tracker over a heap that behaves as glibc documents. `Heaped` sets beside the
tracker what the heap has live, and which of those allocations the tracker last handed out while
tracking was on; `Heaped.step` makes one call with the heap's answer to it. The answers are any
that glibc may give (`Heaped.Answers`): an allocation, or a resize of null, gives a pointer that
is not live; a resize of `p` gives `p` itself, a pointer that is not live, or null. A resize that
gives a pointer, or null for nothing, releases the old one; a resize that fails keeps it. The
caller passes null or live pointers, and no recorded pointer while tracking is off
(`Heaped.Admits`).

`Heaped.Inv` says that the records are distinct and are exactly the tracked live allocations.
Every call keeps it, so in every reachable state the caller can count on `Heaped.Sound`: a sweep
with tracking on hands each recorded pointer, all of them live, to the heap exactly once and
empties the records, and with tracking off it does nothing (`Heaped.Reachable.records_exact`). -/

namespace ChunkRuntime

/-- A call on the tracker. -/
inductive TrackerCall where
  | malloc (size : Nat)
  | realloc (ptr : Option Nat) (size : Nat)
  | free (ptr : Option Nat)
  | track (flag : Bool)
  | freeAll

/-- The tracker beside the heap's live allocations and those the tracker last handed out while
tracking. -/
structure Heaped where
  tracker : Tracker
  live : Finset Nat
  tracked : Finset Nat

/-! ### What the tracker records for each answer of the heap -/

namespace Tracker

variable {t : Tracker} {ptr : Option Nat} {size : Nat} {r : Option Nat}

theorem noteRealloc_of_off (h : t.tracking = false) : t.noteRealloc ptr size r = t := by
  simp [noteRealloc, h]

theorem noteRealloc_null (h : t.tracking = true) : t.noteRealloc none size none = t := by
  simp [noteRealloc, h]

/-- A resize to nothing that gave null drops the old pointer's record. -/
theorem noteRealloc_released (h : t.tracking = true) (p : Nat) :
    t.noteRealloc (some p) 0 none = { t with live := (t.live.remove (· == p)).2 } := by
  simp [noteRealloc, h]

/-- A resize that failed keeps every record. -/
theorem noteRealloc_failed (h : t.tracking = true) (p : Nat) (hs : size ≠ 0) :
    t.noteRealloc (some p) size none = t := by
  simp [noteRealloc, h, hs]

/-- A pointer answered for null, or for a pointer with no record, is recorded. -/
theorem noteRealloc_push (h : t.tracking = true) {a : Nat} (hp : ∀ p ∈ ptr, p ∉ t.live.items) :
    t.noteRealloc ptr size (some a) = { t with live := t.live.push a } := by
  cases ptr with
  | none => simp [noteRealloc, h]
  | some p => simp [noteRealloc, h, Chain.findSet_beq_of_not_mem (hp p rfl)]

/-- A pointer answered for a recorded one takes over its record. -/
theorem noteRealloc_moved (h : t.tracking = true) {p : Nat} (hp : p ∈ t.live.items) (size a : Nat) :
    ∃ l : Chain Nat, t.noteRealloc (some p) size (some a) = { t with live := l } ∧
      l.items.Perm (a :: t.live.items.erase p) := by
  obtain ⟨l, hl, hperm⟩ := Chain.findSet_beq_of_mem hp a
  exact ⟨l, by simp [noteRealloc, h, hl], hperm⟩

end Tracker

namespace Heaped

/-- The old pointer a resize of `ptr` to `size` that answered `r` released: it is gone when the
resize gave a pointer, or null for nothing. -/
def released (ptr : Option Nat) (size : Nat) (r : Option Nat) : Finset Nat :=
  match ptr with
  | some p => if r.isSome ∨ size = 0 then {p} else ∅
  | none => ∅

/-- One call, with the heap's answer `r` to it where it reaches the heap. -/
def step (s : Heaped) : TrackerCall → Option Nat → Heaped
  | .malloc _, r =>
    ⟨s.tracker.noteMalloc r, s.live ∪ r.toFinset,
      if s.tracker.tracking then s.tracked ∪ r.toFinset else s.tracked⟩
  | .realloc ptr size, r =>
    ⟨s.tracker.noteRealloc ptr size r, s.live \ released ptr size r ∪ r.toFinset,
      s.tracked \ released ptr size r ∪ if s.tracker.tracking then r.toFinset else ∅⟩
  | .free ptr, _ => ⟨s.tracker.free ptr, s.live \ ptr.toFinset, s.tracked \ ptr.toFinset⟩
  | .track flag, _ => { s with tracker := { s.tracker with tracking := flag } }
  | .freeAll, _ =>
    ⟨s.tracker.freeAll.2, s.live \ s.tracker.swept.toFinset, s.tracked \ s.tracker.swept.toFinset⟩

/-- The answers glibc's heap may give: a fresh allocation is not live, and a resize of `p` gives
`p` itself or a pointer that is not live; either may give null. -/
def Answers (s : Heaped) : TrackerCall → Option Nat → Prop
  | .malloc _, r | .realloc none _, r => ∀ a ∈ r, a ∉ s.live
  | .realloc (some p) _, r => ∀ a ∈ r, a = p ∨ a ∉ s.live
  | _, _ => True

/-- The call's pointer is null or live, and not recorded while tracking is off. -/
def Admits (s : Heaped) : TrackerCall → Prop
  | .realloc ptr _ | .free ptr =>
    ∀ p ∈ ptr, p ∈ s.live ∧ (s.tracker.tracking = false → p ∉ s.tracker.live.items)
  | _ => True

/-- The states reached from a fresh tracker, whatever the heap already has live. -/
inductive Reachable : Heaped → Prop
  | init (live : Finset Nat) : Reachable ⟨{}, live, ∅⟩
  | step {s : Heaped} {call : TrackerCall} {r : Option Nat} :
      Reachable s → s.Admits call → s.Answers call r → Reachable (s.step call r)

/-- The records are distinct and are exactly the tracked live allocations. -/
structure Inv (s : Heaped) : Prop where
  nodup : s.tracker.live.items.Nodup
  recorded : ∀ a, a ∈ s.tracker.live.items ↔ a ∈ s.tracked
  tracked_live : s.tracked ⊆ s.live

/-- What the caller can count on: the records are distinct live allocations and hold every
tracked one; a sweep with tracking on hands each record, all of them live, to the heap exactly
once, answers their number and empties the records, and with tracking off it does nothing. -/
structure Sound (s : Heaped) : Prop where
  nodup : s.tracker.live.items.Nodup
  recorded_live : ∀ a ∈ s.tracker.live.items, a ∈ s.live
  tracked_recorded : ∀ a ∈ s.tracked, a ∈ s.tracker.live.items
  sweep_on : s.tracker.tracking = true →
    (∀ a, s.tracker.swept.count a = if a ∈ s.tracker.live.items then 1 else 0) ∧
    (∀ a ∈ s.tracker.swept, a ∈ s.live) ∧
    s.tracker.freeAll.1 = s.tracker.outstanding ∧ s.tracker.freeAll.2.outstanding = 0
  sweep_off : s.tracker.tracking = false → s.tracker.swept = [] ∧ s.tracker.freeAll = (0, s.tracker)

/-! ### Records kept by one call -/

namespace Inv

variable {t : Tracker} {live tracked : Finset Nat}

/-- A record of a pointer that is not live yet joins the tracked ones. -/
theorem push (h : Inv ⟨t, live, tracked⟩) {a : Nat} (ha : a ∉ live) :
    Inv ⟨{ t with live := t.live.push a }, insert a live, insert a tracked⟩ where
  nodup := List.nodup_cons.2 ⟨fun hm => ha (h.tracked_live ((h.recorded a).1 hm)), h.nodup⟩
  recorded x := by simp [h.recorded x]
  tracked_live := Finset.insert_subset_insert a h.tracked_live

/-- Dropping the record of a pointer drops it from the tracked ones. -/
theorem remove (h : Inv ⟨t, live, tracked⟩) (p : Nat) :
    Inv ⟨{ t with live := (t.live.remove (· == p)).2 }, live.erase p, tracked.erase p⟩ where
  nodup := by
    rw [Chain.remove_beq_items]
    exact h.nodup.erase p
  recorded x := by
    rw [Chain.remove_beq_items, h.nodup.mem_erase_iff, Finset.mem_erase, h.recorded x]
  tracked_live := Finset.erase_subset_erase p h.tracked_live

/-- A pointer that is not recorded is not tracked. -/
theorem erase_of_not_mem (h : Inv ⟨t, live, tracked⟩) {p : Nat} (hp : p ∉ t.live.items) :
    tracked.erase p = tracked :=
  Finset.erase_eq_of_notMem fun hm => hp ((h.recorded p).2 hm)

/-- The heap releasing a pointer that is not recorded keeps every tracked one. -/
theorem release_untracked (h : Inv ⟨t, live, tracked⟩) {p : Nat} (hp : p ∉ t.live.items) :
    Inv ⟨t, live.erase p, tracked⟩ where
  nodup := h.nodup
  recorded := h.recorded
  tracked_live x hx := Finset.mem_erase.2 ⟨fun he => hp (he ▸ (h.recorded x).2 hx), h.tracked_live hx⟩

/-- The heap handing out more keeps every tracked pointer live. -/
theorem grow (h : Inv ⟨t, live, tracked⟩) {live' : Finset Nat} (hl : live ⊆ live') :
    Inv ⟨t, live', tracked⟩ :=
  ⟨h.nodup, h.recorded, Finset.Subset.trans h.tracked_live hl⟩

/-- A resize of `p` that answered `p` itself or a pointer that is not live, while tracking. -/
theorem moved (h : Inv ⟨t, live, tracked⟩) (hon : t.tracking = true) {p a : Nat}
    (ha : a = p ∨ a ∉ live) (size : Nat) :
    Inv ⟨t.noteRealloc (some p) size (some a), insert a (live.erase p), insert a (tracked.erase p)⟩ := by
  by_cases hp : p ∈ t.live.items
  · obtain ⟨l, hl, hperm⟩ := Tracker.noteRealloc_moved hon hp size a
    rw [hl]
    have hfresh : a ∉ t.live.items.erase p := by
      rcases ha with rfl | ha
      · exact List.Nodup.not_mem_erase h.nodup
      · exact fun hm => ha (h.tracked_live ((h.recorded a).1 (List.mem_of_mem_erase hm)))
    refine ⟨hperm.nodup_iff.2 (List.nodup_cons.2 ⟨hfresh, h.nodup.erase p⟩), fun x => ?_, ?_⟩
    · rw [hperm.mem_iff, List.mem_cons, h.nodup.mem_erase_iff, Finset.mem_insert,
        Finset.mem_erase, h.recorded x]
    · exact Finset.insert_subset_insert a (Finset.erase_subset_erase p h.tracked_live)
  · rw [Tracker.noteRealloc_push hon fun _ hq => Option.some.inj hq ▸ hp, h.erase_of_not_mem hp]
    have hfresh : a ∉ live.erase p := by
      rcases ha with rfl | ha
      · exact Finset.notMem_erase a live
      · exact fun hm => ha (Finset.mem_of_mem_erase hm)
    exact (h.release_untracked hp).push hfresh

end Inv

variable {s : Heaped}

theorem Inv.malloc (h : s.Inv) {size : Nat} {r : Option Nat} (ha : s.Answers (.malloc size) r) :
    (s.step (.malloc size) r).Inv := by
  obtain ⟨t, live, tracked⟩ := s
  cases r with
  | none => simpa [step, Tracker.noteMalloc] using h
  | some a =>
    have hfresh : a ∉ live := ha a rfl
    cases hon : t.tracking with
    | true =>
      simpa [step, Tracker.noteMalloc, hon, Finset.union_singleton] using Inv.push h hfresh
    | false =>
      simp only [step, Tracker.noteMalloc, hon, Bool.false_eq_true, ↓reduceIte, Option.toFinset_some]
      exact h.grow Finset.subset_union_left

theorem Inv.free (h : s.Inv) {ptr : Option Nat} (ha : s.Admits (.free ptr)) (r : Option Nat) :
    (s.step (.free ptr) r).Inv := by
  obtain ⟨t, live, tracked⟩ := s
  cases ptr with
  | none => simpa [step, Tracker.free] using h
  | some p =>
    cases hon : t.tracking with
    | true => simpa [step, Tracker.free, hon, Finset.sdiff_singleton_eq_erase] using h.remove p
    | false =>
      have hp : p ∉ t.live.items := (ha p rfl).2 hon
      simp only [step, Tracker.free, hon, Bool.false_eq_true, ↓reduceIte, Option.toFinset_some,
        Finset.sdiff_singleton_eq_erase, h.erase_of_not_mem hp]
      exact h.release_untracked hp

theorem Inv.realloc (h : s.Inv) {ptr : Option Nat} {size : Nat} {r : Option Nat}
    (hadm : s.Admits (.realloc ptr size)) (ha : s.Answers (.realloc ptr size) r) :
    (s.step (.realloc ptr size) r).Inv := by
  obtain ⟨t, live, tracked⟩ := s
  cases hon : t.tracking with
  | false =>
    -- the records stay, and the old pointer, if any, is not one of them
    have hrel : Inv ⟨t, live \ released ptr size r, tracked⟩ ∧
        tracked \ released ptr size r = tracked := by
      cases ptr with
      | none => simpa [released] using h
      | some p =>
        have hp : p ∉ t.live.items := (hadm p rfl).2 hon
        by_cases hgone : r.isSome ∨ size = 0
        · simp only [released, hgone, ↓reduceIte, Finset.sdiff_singleton_eq_erase,
            h.erase_of_not_mem hp]
          exact ⟨h.release_untracked hp, trivial⟩
        · simpa [released, hgone] using h
    simp only [step, Tracker.noteRealloc_of_off hon, hon, hrel.2, Bool.false_eq_true, ↓reduceIte,
      Finset.union_empty]
    exact hrel.1.grow Finset.subset_union_left
  | true =>
    cases r with
    | none =>
      cases ptr with
      | none => simpa [step, Tracker.noteRealloc_null hon, released] using h
      | some p =>
        by_cases hs : size = 0
        · subst hs
          simpa [step, Tracker.noteRealloc_released hon, released, Finset.sdiff_singleton_eq_erase]
            using h.remove p
        · simpa [step, Tracker.noteRealloc_failed hon p hs, released, hs] using h
    | some a =>
      cases ptr with
      | none =>
        simpa [step, Tracker.noteRealloc_push hon
          (show ∀ p ∈ (none : Option Nat), p ∉ t.live.items from fun _ hq => nomatch hq), hon,
          released, Finset.union_singleton] using h.push (ha a rfl)
      | some p =>
        simpa only [step, hon, released, Option.isSome_some, true_or, ↓reduceIte,
          Finset.sdiff_singleton_eq_erase, Option.toFinset_some, Finset.union_singleton]
          using h.moved hon (ha a rfl) size

theorem Inv.freeAll (h : s.Inv) (r : Option Nat) : (s.step .freeAll r).Inv := by
  obtain ⟨t, live, tracked⟩ := s
  cases hon : t.tracking with
  | false => simpa [step, Tracker.freeAll, Tracker.swept, hon] using h
  | true =>
    -- every tracked pointer is recorded, so the sweep leaves none
    have hnone : tracked \ t.live.items.toFinset = ∅ := by
      rw [Finset.sdiff_eq_empty_iff_subset]
      intro x hx
      exact List.mem_toFinset.2 ((h.recorded x).2 hx)
    simp only [step, Tracker.freeAll, Tracker.swept, hon, ↓reduceIte, hnone]
    exact ⟨List.nodup_nil, fun x => by simp, Finset.empty_subset _⟩

/-- Every call keeps the records exact. -/
theorem Inv.step (h : s.Inv) {call : TrackerCall} {r : Option Nat} (hadm : s.Admits call)
    (ha : s.Answers call r) : (s.step call r).Inv := by
  cases call with
  | malloc size => exact h.malloc ha
  | realloc ptr size => exact h.realloc hadm ha
  | free ptr => exact h.free hadm r
  | track flag => exact ⟨h.nodup, h.recorded, h.tracked_live⟩
  | freeAll => exact h.freeAll r

theorem Reachable.inv (h : s.Reachable) : s.Inv := by
  induction h with
  | init live => exact ⟨List.nodup_nil, fun x => by simp, Finset.empty_subset _⟩
  | step _ hadm ha ih => exact ih.step hadm ha

theorem Inv.toSound (h : s.Inv) : s.Sound where
  nodup := h.nodup
  recorded_live a ha := h.tracked_live ((h.recorded a).1 ha)
  tracked_recorded a ha := (h.recorded a).2 ha
  sweep_on hon := by
    have hswept : s.tracker.swept = s.tracker.live.items := by simp [Tracker.swept, hon]
    refine ⟨fun a => ?_, fun a ha => ?_, ?_, ?_⟩
    · rw [hswept]
      split
      · next hm => exact List.count_eq_one_of_mem h.nodup hm
      · next hm => exact List.count_eq_zero_of_not_mem hm
    · rw [hswept] at ha
      exact h.tracked_live ((h.recorded a).1 ha)
    · simp [Tracker.freeAll, hswept, Tracker.outstanding, Chain.len]
    · simp [Tracker.freeAll, hon, Tracker.outstanding, Chain.len]
  sweep_off hoff := by simp [Tracker.swept, Tracker.freeAll, hoff]

/-- In every state a fresh tracker reaches, over any heap that answers as glibc does and a
caller that passes null or live pointers and no recorded one while tracking is off, the records
are distinct live allocations holding every allocation last handed out while tracking, and a
sweep frees each record exactly once. -/
theorem Reachable.records_exact (h : s.Reachable) : s.Sound :=
  h.inv.toSound

/-- A fresh tracker, one allocation made while tracking. -/
theorem records_exact_after_malloc :
    let s : Heaped := (⟨{}, ∅, ∅⟩ : Heaped).step (.malloc 8) (some 16)
    s.Reachable ∧ s.Sound := by
  intro s
  have h : s.Reachable := .step (.init ∅) trivial fun _ _ => Finset.notMem_empty _
  exact ⟨h, Reachable.records_exact h⟩

end Heaped

end ChunkRuntime
