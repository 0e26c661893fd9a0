/-! Handles name the pointers a caller holds: small numbers handed out in order, one for each new
non-null pointer. A handle stays the same while what it names is resized, and dies when that is
released. Each handle also records how many of its leading bytes are known and what they are:
zeros, or the counting pattern written by a fill. -/

namespace ChunkRuntime

/-- What the known bytes of an allocation hold. -/
inductive Pattern where
  | zeros
  | counting (seed : Nat)
  deriving DecidableEq, Repr

/-- The byte at offset `i` of a pattern. -/
def Pattern.byte : Pattern → Nat → Nat
  | .zeros, _ => 0
  | .counting seed, i => (seed + i) % 256

/-- A pointer a caller holds. -/
structure Handle where
  addr : Nat
  size : Nat
  live : Bool := true
  known : Nat := 0
  pattern : Pattern := .zeros
  deriving DecidableEq, Repr

/-- Why a handle cannot be used. -/
inductive HandleProblem where
  | unknown
  | dead
  deriving DecidableEq, Repr

/-- The text of a handle problem. -/
def HandleProblem.message : HandleProblem → String
  | .unknown => "unknown handle"
  | .dead => "dead handle"

/-- The handles handed out so far, by number. -/
structure HandleTable where
  items : Array Handle := #[]

namespace HandleTable

/-- The live handle numbered `id`. -/
def get (t : HandleTable) (id : Nat) : Except HandleProblem Handle :=
  match t.items[id]? with
  | none => .error .unknown
  | some h => if h.live then .ok h else .error .dead

/-- Hand out a new handle; answers its number. -/
def add (t : HandleTable) (h : Handle) : Nat × HandleTable := (t.items.size, ⟨t.items.push h⟩)

/-- Change handle `id`. -/
def update (t : HandleTable) (id : Nat) (f : Handle → Handle) : HandleTable := ⟨t.items.modify id f⟩

/-- Kill handle `id`. -/
def kill (t : HandleTable) (id : Nat) : HandleTable := t.update id fun h => { h with live := false }

/-- Kill every live handle whose address satisfies `p`. -/
def killWhere (t : HandleTable) (p : Nat → Bool) : HandleTable :=
  ⟨t.items.map fun h => if h.live && p h.addr then { h with live := false } else h⟩

end HandleTable

end ChunkRuntime
