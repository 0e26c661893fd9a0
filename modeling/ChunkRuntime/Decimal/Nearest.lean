/-! From exact numbers to binary64. `nearest n` is the double nearest to the natural number `n`,
a tie going to the even mantissa. `scaleByPowerOfTen` builds a double from a decimal significand
and exponent the quick way: the significand is rounded once, then multiplied or divided by one
rounded power of ten, with exponents past 308 handled by repeated division by `1e308`. That is
not always the double nearest to the decimal, and it is the rule the readers of this library
follow; a product that overflows is no value at all. -/

namespace ChunkRuntime.Decimal

/-- The double nearest to `n`, ties to an even mantissa. -/
def nearest (n : Nat) : Float :=
  if n < Nat.pow 2 53 then n.toUInt64.toFloat
  else
    let shift := n.log2 - 52
    let q := n >>> shift
    let r := n % Nat.pow 2 shift
    let half := Nat.pow 2 (shift - 1)
    let up := decide (half < r) || (r == half && q % 2 == 1)
    let q' := if up then q + 1 else q
    q'.toUInt64.toFloat.scaleB shift

/-- The double nearest to `10 ^ k`. -/
def powerOfTen (k : Nat) : Float := nearest (Nat.pow 10 k)

/-- One round of scaling: a power of ten within the table, or a step of `1e308` towards it. -/
def scaleLoop : Nat → Float → Int → Option Float
  | 0, f, _ => some f
  | fuel + 1, f, e =>
    if e.natAbs ≤ 308 then
      if 0 ≤ e then
        let g := f * powerOfTen e.natAbs
        if g.isInf then none else some g
      else some (f / powerOfTen e.natAbs)
    else if f == 0 then some f
    else if 0 ≤ e then none
    else scaleLoop fuel (f / powerOfTen 308) (e + 308)

/-- `significand * 10 ^ exponent` rounded the quick way, `none` when it overflows. -/
def scaleByPowerOfTen (negative : Bool) (significand : Nat) (exponent : Int) : Option Float :=
  (scaleLoop (exponent.natAbs / 308 + 2) (nearest significand) exponent).map
    fun f => if negative then -f else f

end ChunkRuntime.Decimal
