import ArmLang.Number.Shortest

namespace ArmLang.Number

namespace Decimal

/-- The number written out place by place, without an exponent and without needless places. -/
def positional (d : Decimal) : String :=
  let ds := Nat.toDigits 10 d.digits
  let places := (-d.exponent).toNat
  if 0 ≤ d.exponent then String.ofList (ds ++ List.replicate d.exponent.toNat '0')
  else if places < ds.length then
    String.ofList (ds.take (ds.length - places) ++ '.' :: ds.drop (ds.length - places))
  else String.ofList ('0' :: '.' :: List.replicate (places - ds.length) '0' ++ ds)

end Decimal

/-- The text of a number: the fewest digits that read back, written positionally. -/
def text (x : Float) : String :=
  let unsigned := match magnitude x with
    | .notANumber => "NaN"
    | .infinite => "inf"
    | .finite 0 _ => "0"
    | .finite mantissa exponent => (shortest mantissa exponent).positional
  if isNegative x && !x.isNaN then "-" ++ unsigned else unsigned

example : text 7.0 = "7" ∧ text (-0.0) = "-0" ∧ text 0.1 = "0.1" := by decide +kernel

example : text 1234.5 = "1234.5" ∧ text 1e21 = "1000000000000000000000" := by decide +kernel

end ArmLang.Number
