import ArmLang.Token.Basic

namespace ArmLang

inductive Phase
  | lexical
  | grammatical
  | semantic
  deriving DecidableEq, Repr

namespace Phase

def name : Phase → String
  | lexical => "lexical"
  | grammatical => "syntax"
  | semantic => "semantic"

def isFatal : Phase → Bool
  | lexical | grammatical => true
  | semantic => false

end Phase

structure Diagnostic where
  phase : Phase
  message : String
  location : Location
  deriving DecidableEq, Repr

namespace Diagnostic

def text (d : Diagnostic) : String :=
  d.phase.name ++ " error at line " ++ toString d.location.line ++ ", column " ++
    toString d.location.column ++ ": " ++ d.message

def ofTokens (tokens : List Token) : List Diagnostic :=
  (tokens.filter (·.kind = .invalid)).map fun t =>
    ⟨.lexical, "unrecognized input '" ++ t.text ++ "'", t.location⟩

def anyFatal (ds : List Diagnostic) : Bool := ds.any (·.phase.isFatal)

def ofPhase (phase : Phase) (ds : List Diagnostic) : List Diagnostic :=
  ds.filter (·.phase = phase)

end Diagnostic

end ArmLang
