namespace ArmLang

/-- A place in a program text, counted from one; `0:0` stands for no known place. -/
structure Location where
  line : Nat := 0
  column : Nat := 0
  deriving DecidableEq, Repr, Inhabited

namespace Location

def unknown : Location := {}

def text (l : Location) : String :=
  toString l.line ++ ":" ++ toString l.column

end Location

structure Issue (ε : Type) where
  cause : ε
  location : Location
  deriving DecidableEq, Repr

end ArmLang
