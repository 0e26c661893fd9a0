/-! A chain is a stack of values kept newest first: each link points back at the one pushed
before it, and the number of links is counted beside them. Besides pushing and popping, it can
find the newest value that satisfies a test, to update it or to unlink it from wherever it
sits. Both first count how many links back the value is, then walk that many links to the slot
that holds it; the walk gives up when it runs past the oldest link, and an empty slot yields
nothing. -/

namespace ChunkRuntime

/-- A chain of values, newest first, with its length counted as links come and go. -/
structure Chain (α : Type) where
  /-- The links from the newest back to the oldest: a link's predecessor is the rest. -/
  items : List α
  /-- The count kept beside the links. -/
  count : Nat
  count_eq : count = items.length

namespace Chain

variable {α : Type}

/-- The empty chain. -/
def empty : Chain α := ⟨[], 0, rfl⟩

/-- The number of values, as counted. -/
def len (c : Chain α) : Nat := c.count

/-- The chain has no links. -/
def isEmpty (c : Chain α) : Bool := c.items.isEmpty

/-- Put a value on top. -/
def push (c : Chain α) (a : α) : Chain α :=
  ⟨a :: c.items, c.count + 1, congrArg (· + 1) c.count_eq⟩

/-- Take the newest value off. -/
def pop (c : Chain α) : Option α × Chain α :=
  match h : c.items with
  | [] => (none, c)
  | a :: rest => (some a, ⟨rest, c.count - 1, by rw [c.count_eq, h]; rfl⟩)

/-- Walk `steps` links back from the newest: the links passed, and the slot reached, which holds
the rest of the links; `none` when the walk runs past the oldest link. -/
def slot : Nat → List α → Option (List α × List α)
  | 0, l => some ([], l)
  | _ + 1, [] => none
  | k + 1, a :: rest => (slot k rest).map fun r => (a :: r.1, r.2)

/-- A walk splits the links into the ones passed and the ones in the slot reached. -/
theorem slot_eq_some : ∀ {k : Nat} {l pre s : List α}, slot k l = some (pre, s) →
    l = pre ++ s
  | 0, _, _, _, h => by cases h; rfl
  | _ + 1, [], _, _, h => by cases h
  | k + 1, a :: rest, pre, s, h => by
    unfold slot at h
    cases hs : slot k rest with
    | none => rw [hs] at h; cases h
    | some r =>
      rw [hs] at h
      cases h
      exact congrArg (a :: ·) (slot_eq_some hs)

/-- Apply `f` to the newest value satisfying `p`, answering the value it held. -/
def findMut (c : Chain α) (p : α → Bool) (f : α → α) : Option α × Chain α :=
  match c.items.findIdx? p with
  | none => (none, c)
  | some k =>
    match h : slot k c.items with
    | some (pre, a :: rest) =>
      (some a, ⟨pre ++ f a :: rest, c.count, by
        rw [c.count_eq, slot_eq_some h, List.length_append, List.length_append]; rfl⟩)
    | _ => (none, c)

/-- Overwrite the newest value satisfying `p` with `b`, answering the value it held. -/
def findSet (c : Chain α) (p : α → Bool) (b : α) : Option α × Chain α := c.findMut p fun _ => b

/-- Unlink the newest value satisfying `p`, answering it. -/
def remove (c : Chain α) (p : α → Bool) : Option α × Chain α :=
  match c.items.findIdx? p with
  | none => (none, c)
  | some k =>
    match h : slot k c.items with
    | some (pre, a :: rest) =>
      (some a, ⟨pre ++ rest, c.count - 1, by
        rw [c.count_eq, slot_eq_some h, List.length_append, List.length_append]; rfl⟩)
    | _ => (none, c)

end Chain

end ChunkRuntime
