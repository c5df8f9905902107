namespace ArmLang.Text

def consLine (c : Char) : List (List Char) → List (List Char)
  | [] => [[c]]
  | l :: ls => (c :: l) :: ls

/-- The lines of a text. A line feed ends a line and takes one carriage return directly before it
along; what follows the last line feed is a line of its own unless it is empty. -/
def splitLines : List Char → List (List Char)
  | [] => []
  | '\n' :: cs => [] :: splitLines cs
  | '\r' :: '\n' :: cs => [] :: splitLines cs
  | c :: cs => consLine c (splitLines cs)

/-- The lines that a scanner goes through: an empty text still has one, which is empty. -/
def lines (cs : List Char) : List (List Char) :=
  if cs.isEmpty then [[]] else splitLines cs

@[simp] theorem splitLines_newline (cs : List Char) :
    splitLines ('\n' :: cs) = [] :: splitLines cs := by
  simp [splitLines]

theorem consLine_ne_nil (c : Char) (ls : List (List Char)) : consLine c ls ≠ [] := by
  cases ls <;> simp [consLine]

theorem splitLines_eq_nil_iff {cs : List Char} : splitLines cs = [] ↔ cs = [] := by
  fun_cases splitLines cs <;> simp [consLine_ne_nil]

end ArmLang.Text
