import ArmLang.Number.Binary64

namespace ArmLang.Number

structure Decimal where
  digits : Nat
  exponent : Int
  deriving DecidableEq, Repr

/-- The reals that round to one finite number, with the number itself. All three are counted in
units of `2 ^ exponent`; the ends belong to the range exactly if `closed`. -/
structure RoundingRange where
  low : Nat
  middle : Nat
  high : Nat
  exponent : Int
  closed : Bool

namespace RoundingRange

/-- The range reaches halfway to both neighbours. The lower neighbour of a power of two is twice as
close, except among the smallest numbers; halfway goes to the even mantissa. -/
def ofFinite (mantissa : Nat) (exponent : Int) : RoundingRange where
  low := if mantissa = Nat.pow 2 52 ∧ exponent ≠ -1074 then 4 * mantissa - 1 else 4 * mantissa - 2
  middle := 4 * mantissa
  high := 4 * mantissa + 2
  exponent := exponent - 2
  closed := mantissa % 2 = 0

/-- How many common units a point of the grid `10 ^ e` and a unit of the range take. -/
def scales (r : RoundingRange) (e : Int) : Nat × Nat :=
  (Nat.pow 10 e.toNat * Nat.pow 2 (-r.exponent).toNat,
    Nat.pow 2 r.exponent.toNat * Nat.pow 10 (-e).toNat)

def contains (r : RoundingRange) (d : Nat) (e : Int) : Bool :=
  let (point, unit) := r.scales e
  if r.closed then r.low * unit ≤ d * point && d * point ≤ r.high * unit
  else r.low * unit < d * point && d * point < r.high * unit

/-- The point of the grid `10 ^ e` in the range that is nearest to the number; of two that are
equally near, the larger. -/
def nearest? (r : RoundingRange) (e : Int) : Option Nat :=
  let (point, unit) := r.scales e
  let below := r.middle * unit / point
  match r.contains below e, r.contains (below + 1) e with
  | false, false => none
  | true, false => some below
  | false, true => some (below + 1)
  | true, true =>
    if 2 * (r.middle * unit) < (2 * below + 1) * point then some below else some (below + 1)

/-- Goes to finer grids, for at most `steps` of them, until one has a point in the range. -/
def refine (r : RoundingRange) : Nat → Int → Decimal
  | 0, e => ⟨0, e⟩
  | steps + 1, e => match r.nearest? e with
    | some d => ⟨d, e⟩
    | none => r.refine steps (e - 1)

end RoundingRange

/-- A bound `e` with `2 ^ n ≤ 10 ^ e`, less than two above the least one. -/
def decimalBound (n : Int) : Int := n * 30103 / 100000 + 1

/-- The fewest digits that read back as the finite number, and of those the nearest. Seventeen
digits always suffice, and the first grid is at most two places too coarse. -/
def shortest (mantissa : Nat) (exponent : Int) : Decimal :=
  (RoundingRange.ofFinite mantissa exponent).refine 20
    (decimalBound (mantissa.log2 + 1 + exponent))

example : shortest (2 ^ 52 + 450359962737050) (-52) = ⟨11, -1⟩ := by decide +kernel

example : shortest 1 (-1074) = ⟨5, -324⟩ := by decide +kernel

end ArmLang.Number
