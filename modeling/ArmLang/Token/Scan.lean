import ArmLang.Text.Blank
import ArmLang.Text.Lines
import ArmLang.Token.Shape

namespace ArmLang.Token

open Text (isBlank)

/-- The kind of a piece of text whose shape gives the kind `k`: a name may be a reserved word. -/
def reclassify (k : Kind) (cs : List Char) : Kind :=
  if k = .identifier then
    match Keyword.ofText? (String.ofList cs) with
    | some w => .keyword w
    | none => .identifier
  else k

/-- The kind and length of the token at the start of the text, by the first shape that fits. -/
def lexeme? (cs : List Char) : Option (Kind × Nat) :=
  Shape.table.findSome? fun (shape, k) =>
    (shape.length? cs).map fun n => (reclassify k (cs.take n), n)

/-- The kind and length of the token at the start of the text. What has no shape is invalid as far
as the next blank. -/
def lexeme (cs : List Char) : Kind × Nat :=
  (lexeme? cs).getD (.invalid, (cs.takeWhile (!isBlank ·)).length)

/-- The tokens of one line from a column on, with the end of the line. What follows a semicolon is
a comment. -/
def scanLine (line column : Nat) : List Char → List Token
  | [] => [⟨.lineEnd, "\n", ⟨line, column⟩⟩]
  | c :: cs =>
    if isBlank c then scanLine line (column + 1) cs
    else
      let (kind, n) := lexeme (c :: cs)
      let t : Token := ⟨kind, String.ofList ((c :: cs).take n), ⟨line, column⟩⟩
      if kind = .semicolon then [t, ⟨.lineEnd, "\n", ⟨line, column + n⟩⟩]
      else t :: scanLine line (column + n) (cs.drop (n - 1))
termination_by cs => cs.length

def scanLines (line : Nat) : List (List Char) → List Token
  | [] => [⟨.fileEnd, "", ⟨line, 1⟩⟩]
  | l :: ls => scanLine line 1 l ++ scanLines (line + 1) ls

def scan (source : String) : List Token :=
  scanLines 1 (Text.lines source.toList)

end ArmLang.Token
