import ArmLang.Number.Binary64
import ArmLang.Text.WordChar

namespace ArmLang.Number

open ArmLang.Text (isDigit)

def digitValue (c : Char) : Nat := c.toNat - '0'.toNat

def digitsValue (cs : List Char) : Nat :=
  cs.foldl (fun n c => 10 * n + digitValue c) 0

def natural? (cs : List Char) : Option Nat :=
  if cs ≠ [] ∧ cs.all isDigit then some (digitsValue cs) else none

def splitSign : List Char → Bool × List Char
  | '-' :: cs => (true, cs)
  | '+' :: cs => (false, cs)
  | cs => (false, cs)

/-- Reads a decimal integer with an optional sign, if 64 bits hold it. -/
def integer? (s : String) : Option Int64 :=
  let (negative, cs) := splitSign s.toList
  match natural? cs with
  | none => none
  | some n =>
    if negative then
      if n ≤ Nat.pow 2 63 then some (Int64.ofInt (-n)) else none
    else if n < Nat.pow 2 63 then some (Int64.ofNat n) else none

/-- The binary64 number nearest to `digits * 10 ^ exponent`. Ten is above `2 ^ 3`, so the two guards
see what is out of range before a large power is formed. -/
def nearestReal (digits : Nat) (exponent : Int) : Float :=
  if digits = 0 then 0.0
  else if 0 ≤ exponent then
    if 1024 < 3 * exponent then 1.0 / 0.0 else Float.ofScientific digits false exponent.toNat
  else if (digits.log2 : Int) + 1 + 3 * exponent < -1075 then 0.0
  else Float.ofScientific digits true exponent.natAbs

def exponentPart? : List Char → Option Int
  | [] => some 0
  | c :: cs =>
    if c = 'e' ∨ c = 'E' then
      let (negative, ds) := splitSign cs
      (natural? ds).map fun n => if negative then -(n : Int) else n
    else none

/-- Reads digits with at most one point among them, and an exponent after them. -/
def unsignedDecimal? (cs : List Char) : Option Float :=
  let whole := cs.takeWhile isDigit
  let (fraction, rest) := match cs.dropWhile isDigit with
    | '.' :: ds => (ds.takeWhile isDigit, ds.dropWhile isDigit)
    | ds => ([], ds)
  if whole = [] ∧ fraction = [] then none
  else (exponentPart? rest).map fun e =>
    nearestReal (digitsValue (whole ++ fraction)) (e - fraction.length)

/-- Reads a number without a sign; the names of infinity and of no number may be in any case. -/
def unsignedReal? (cs : List Char) : Option Float :=
  let name := String.ofList (cs.map Char.toLower)
  if name = "inf" ∨ name = "infinity" then some (1.0 / 0.0)
  else if name = "nan" then some (0.0 / 0.0)
  else unsignedDecimal? cs

def real? (s : String) : Option Float :=
  let (negative, cs) := splitSign s.toList
  (unsignedReal? cs).map fun x => if negative then -x else x

end ArmLang.Number
