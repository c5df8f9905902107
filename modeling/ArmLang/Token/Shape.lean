import ArmLang.Text.WordChar
import ArmLang.Token.Basic

namespace ArmLang

open Text (isDigit isNameStart isNameChar isWordChar)

/-- The forms that a piece of text can have at the place where it is read. -/
inductive Shape
  /-- these characters -/
  | exact (s : String)
  /-- these characters, not followed by a word character -/
  | word (s : String)
  /-- these characters, then a number and a closing bracket -/
  | numbered (s : String)
  /-- digits around a point, with or without an exponent -/
  | real
  | integer
  /-- text between quotation marks -/
  | quoted
  | name
  deriving DecidableEq

namespace Shape

def digitCount (cs : List Char) : Nat := (cs.takeWhile isDigit).length

/-- The length of an exponent at the start of the text; without digits it is none. -/
def exponentLength : List Char → Nat
  | [] => 0
  | c :: cs =>
    if c = 'e' ∨ c = 'E' then
      let sign := match cs with
        | '+' :: _ | '-' :: _ => 1
        | _ => 0
      let digits := digitCount (cs.drop sign)
      if digits = 0 then 0 else 1 + sign + digits
    else 0

def realLength? (cs : List Char) : Option Nat :=
  let whole := digitCount cs
  match cs.drop whole with
  | '.' :: rest =>
    let fraction := digitCount rest
    if whole = 0 ∨ fraction = 0 then none
    else some (whole + 1 + fraction + exponentLength (rest.drop fraction))
  | _ => none

/-- How far it is to the end of a text in quotation marks, once it is open. A backslash takes the
next character along, which may not be a line feed. -/
def closingLength? : List Char → Option Nat
  | [] => none
  | '"' :: _ => some 1
  | ['\\'] => none
  | '\\' :: c :: cs => if c = '\n' then none else (closingLength? cs).map (· + 2)
  | _ :: cs => (closingLength? cs).map (· + 1)

def length? (shape : Shape) (cs : List Char) : Option Nat :=
  match shape with
  | exact s => if s.toList.isPrefixOf cs then some s.length else none
  | word s =>
    if s.toList.isPrefixOf cs && !(cs.drop s.length).head?.any isWordChar then some s.length
    else none
  | numbered s =>
    if s.toList.isPrefixOf cs then
      let digits := digitCount (cs.drop s.length)
      match (cs.drop s.length).drop digits with
      | ']' :: _ => if digits = 0 then none else some (s.length + digits + 1)
      | _ => none
    else none
  | real => realLength? cs
  | integer => if digitCount cs = 0 then none else some (digitCount cs)
  | quoted => match cs with
    | '"' :: rest => (closingLength? rest).map (· + 1)
    | _ => none
  | name => match cs with
    | c :: rest => if isNameStart c then some (1 + (rest.takeWhile isNameChar).length) else none
    | [] => none

/-- The shapes with the kinds they give, in the order in which they are tried. -/
def table : List (Shape × Kind) :=
  [(numbered "$IN[", .input), (numbered "$OUT[", .output), (exact "==", .equal),
    (exact ":=", .assign), (exact ":", .assign), (exact "=", .assign), (exact "<>", .notEqual),
    (exact "<=", .lessEqual), (exact ">=", .greaterEqual), (exact "<", .less),
    (exact ">", .greater), (exact "+", .plus), (exact "-", .minus), (exact "*", .times),
    (exact "/", .divide), (word "AND", .and), (word "OR", .or), (word "NOT", .not), (real, .real),
    (integer, .integer), (quoted, .text), (exact "&", .ampersand), (exact "(", .leftParen),
    (exact ")", .rightParen), (exact "\x7b", .leftBrace), (exact "\x7d", .rightBrace),
    (exact ",", .comma), (exact ";", .semicolon), (exact "'", .apostrophe), (exact ".", .dot),
    (name, .identifier)]

end Shape

end ArmLang
