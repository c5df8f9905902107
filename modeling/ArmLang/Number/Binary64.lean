namespace ArmLang.Number

/-- What a binary64 number stands for: a finite one is `mantissa * 2 ^ exponent`. -/
inductive Magnitude
  | notANumber
  | infinite
  | finite (mantissa : Nat) (exponent : Int)
  deriving DecidableEq, Repr

-- Powers are `Nat.pow` here and in the modules above: `^` stands for another instance wherever
-- Mathlib is imported.

/-- The sign bit, which zeros and infinities have too. -/
def isNegative (x : Float) : Bool := x.toBits.toNat / Nat.pow 2 63 = 1

def magnitude (x : Float) : Magnitude :=
  let bits : Nat := x.toBits.toNat
  let fraction := bits % Nat.pow 2 52
  let biased : Nat := bits / Nat.pow 2 52 % Nat.pow 2 11
  if biased = 2047 then
    if fraction = 0 then .infinite else .notANumber
  else if biased = 0 then .finite fraction (-1074)
  else .finite (fraction + Nat.pow 2 52) (biased - 1075)

def wholePart (mantissa : Nat) (exponent : Int) : Nat :=
  if exponent < 0 then mantissa / Nat.pow 2 exponent.natAbs
  else mantissa * Nat.pow 2 exponent.toNat

/-- The 64-bit integer that a real is cut to: the fraction is dropped, what lies outside the range
goes to its nearer end, and no number gives zero. -/
def truncate (x : Float) : Int64 :=
  let size : Option Nat := match magnitude x with
    | .notANumber => some 0
    | .infinite => none
    | .finite mantissa exponent => some (wholePart mantissa exponent)
  match isNegative x, size with
  | false, some n => if n < Nat.pow 2 63 then Int64.ofNat n else Int64.maxValue
  | false, none => Int64.maxValue
  | true, some n => if n < Nat.pow 2 63 then -Int64.ofNat n else Int64.minValue
  | true, none => Int64.minValue

def ofInteger (n : Int64) : Float := Float.ofInt n.toInt

def ofTruth (b : Bool) : Float := if b then 1.0 else 0.0

example : magnitude 1.0 = .finite (2 ^ 52) (-52) := by decide

example : truncate 9.75 = 9 ∧ truncate (-9.75) = -9 ∧ truncate 1e22 = Int64.maxValue := by decide

example : truncate (0.0 / 0.0) = 0 ∧ truncate (-1.0 / 0.0) = Int64.minValue := by decide

end ArmLang.Number
