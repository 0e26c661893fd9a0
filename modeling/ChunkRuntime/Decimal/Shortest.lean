/-! Shortest decimal digits of a binary64 value. A finite double is `m * 2 ^ e`; the reals that
round to it form an interval reaching half-way to each neighbour, closed when `m` is even. For
one, two, … seventeen digits, the two neighbours of the value on that decimal grid are tested in
exact arithmetic; the first grid with a neighbour inside the interval gives the digits, and of two
such neighbours the nearer one, a tie going to the even digits. -/

namespace ChunkRuntime.Decimal

/-- A finite double as sign, integer mantissa and binary exponent: `(-1)^negative * mantissa * 2^exponent`. -/
structure Binary where
  negative : Bool
  mantissa : Nat
  exponent : Int
  /-- The gap to the next smaller double is half the gap to the next larger one. -/
  narrowBelow : Bool

/-- The fields of a double's bit pattern (meaningful for finite values). -/
def Binary.ofFloat (x : Float) : Binary :=
  let bits := x.toBits.toNat
  let negative := bits >>> 63 == 1
  let biased := (bits >>> 52) % 2048
  let fraction := bits % Nat.pow 2 52
  if biased == 0 then ⟨negative, fraction, -1074, false⟩
  else ⟨negative, fraction + Nat.pow 2 52, (biased : Int) - 1075, fraction == 0 && biased > 1⟩

/-- A decimal `digits * 10 ^ exponent`. -/
structure Scientific where
  digits : Nat
  exponent : Int
  deriving DecidableEq, Repr

/-- An exact positive rational `num / den`. -/
structure Ratio where
  num : Nat
  den : Nat

/-- `d * 10 ^ k` compared with `r`: `lt`, `eq` or `gt`. -/
def compareGrid (d : Nat) (k : Int) (r : Ratio) : Ordering :=
  if 0 ≤ k then compare (d * Nat.pow 10 k.natAbs * r.den) r.num
  else compare (d * r.den) (r.num * Nat.pow 10 k.natAbs)

/-- The largest `d` with `d * 10 ^ k ≤ r`. -/
def floorGrid (k : Int) (r : Ratio) : Nat :=
  if 0 ≤ k then r.num / (r.den * Nat.pow 10 k.natAbs) else r.num * Nat.pow 10 k.natAbs / r.den

/-- Number of decimal digits of a positive natural number. -/
def digitCount (n : Nat) : Nat := (Nat.toDigits 10 n).length

/-- The largest `t ≤ bound` with `r * 10 ^ t < 1`, searching upwards from `t`. -/
def smallExponent : Nat → Nat → Ratio → Nat
  | 0, t, _ => t
  | fuel + 1, t, r => if r.den ≤ r.num * Nat.pow 10 (t + 1) then t else smallExponent fuel (t + 1) r

/-- `⌊log₁₀ r⌋` for a positive ratio. -/
def decimalMagnitude (r : Ratio) : Int :=
  if r.den ≤ r.num then (digitCount (r.num / r.den) : Int) - 1
  else -((smallExponent 400 0 r : Int) + 1)

/-- Drop trailing zero digits, raising the exponent. -/
def Scientific.trim : Nat → Scientific → Scientific
  | 0, s => s
  | fuel + 1, s =>
    if s.digits != 0 && s.digits % 10 == 0 then Scientific.trim fuel ⟨s.digits / 10, s.exponent + 1⟩
    else s

/-- Search grids of one to seventeen digits for a decimal inside the rounding interval. -/
def searchGrid (x lo hi : Ratio) (closed : Bool) (magnitude : Int) : Nat → Nat → Option Scientific
  | 0, _ => none
  | fuel + 1, n =>
    let k := magnitude + 1 - n
    let d := floorGrid k x
    let inside (c : Nat) : Bool :=
      let aboveLo := match compareGrid c k lo with
        | .gt => true
        | .eq => closed
        | .lt => false
      let belowHi := match compareGrid c k hi with
        | .lt => true
        | .eq => closed
        | .gt => false
      aboveLo && belowHi
    let twice : Ratio := ⟨2 * x.num, x.den⟩
    match inside d, inside (d + 1) with
    | true, true =>
      match compareGrid (2 * d + 1) k twice with
      | .gt => some ⟨d, k⟩
      | .lt => some ⟨d + 1, k⟩
      | .eq => some (if d % 2 == 0 then ⟨d, k⟩ else ⟨d + 1, k⟩)
    | true, false => some ⟨d, k⟩
    | false, true => some ⟨d + 1, k⟩
    | false, false => searchGrid x lo hi closed magnitude fuel (n + 1)

/-- The shortest decimal that reads back as `m * 2 ^ e`, nearest to it among the shortest. -/
def shortestOf (b : Binary) : Scientific :=
  let scale : Nat := if 0 ≤ b.exponent then Nat.pow 2 b.exponent.natAbs else 1
  let den : Nat := if 0 ≤ b.exponent then 4 else 4 * Nat.pow 2 b.exponent.natAbs
  let below : Nat := if b.narrowBelow then 1 else 2
  let x : Ratio := ⟨4 * b.mantissa * scale, den⟩
  let lo : Ratio := ⟨(4 * b.mantissa - below) * scale, den⟩
  let hi : Ratio := ⟨(4 * b.mantissa + 2) * scale, den⟩
  let found := searchGrid x lo hi (b.mantissa % 2 == 0) (decimalMagnitude x) 17 1
  let s := found.getD ⟨floorGrid (decimalMagnitude x - 16) x, decimalMagnitude x - 16⟩
  s.trim 20

/-- The shortest digits of a finite non-zero double's magnitude. -/
def shortest (x : Float) : Scientific := shortestOf (Binary.ofFloat x)

end ChunkRuntime.Decimal
