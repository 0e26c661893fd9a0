import ChunkRuntime.Decimal.Shortest

/-! The text of a double, as readers of this library quote a number they did not expect. The
digits are the shortest that read back. With `k` the position of the decimal point counted from
the first digit, the text is positional when `-5 < k ≤ 16`: an integer gets `.0`, a value below
one gets leading zeros; otherwise it is one digit, a point and the rest if there is a rest, then
`e`, the sign of the exponent and its digits (`1e+30`, `1.5e-7`). Zero is `0.0` or `-0.0`. -/

namespace ChunkRuntime.Json

/-- Layout of a decimal `digits * 10 ^ exponent` with `digits` written out as `ds`. -/
def decimalLayout (ds : String) (exponent : Int) : String :=
  let len : Int := ds.length
  let k := len + exponent
  let zeros (n : Nat) : String := String.ofList (List.replicate n '0')
  if 0 ≤ exponent ∧ k ≤ 16 then ds ++ zeros exponent.natAbs ++ ".0"
  else if 0 < k ∧ k ≤ 16 then
    String.ofList (ds.toList.take k.natAbs) ++ "." ++ String.ofList (ds.toList.drop k.natAbs)
  else if -5 < k ∧ k ≤ 0 then "0." ++ zeros k.natAbs ++ ds
  else
    let e := k - 1
    let expText := (if e < 0 then "e-" else "e+") ++ toString e.natAbs
    match ds.toList with
    | [d] => String.ofList [d] ++ expText
    | d :: rest => String.ofList [d] ++ "." ++ String.ofList rest ++ expText
    | [] => "0" ++ expText

/-- The text of a double. -/
def floatText (x : Float) : String :=
  let b := Decimal.Binary.ofFloat x
  let sign := if b.negative then "-" else ""
  if x.isNaN then "NaN"
  else if x.isInf then sign ++ "inf"
  else if b.mantissa == 0 then sign ++ "0.0"
  else
    let s := Decimal.shortest x
    sign ++ decimalLayout (toString s.digits) s.exponent

end ChunkRuntime.Json
