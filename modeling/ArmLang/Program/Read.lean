import ArmLang.Diagnostic
import ArmLang.Program.ReadStatement

namespace ArmLang.Program

/-- Where the tokens end: at the end of the file, or on a new line after the last token if it is not
marked. -/
def endLocation (tokens : List Token) : Location :=
  match tokens.find? (·.kind = .fileEnd) with
  | some t => t.location
  | none => match tokens.getLast? with
    | some t => ⟨t.location.line + 1, 1⟩
    | none => ⟨1, 1⟩

/-- The tokens that matter to the grammar, which takes no notice of the marks of comments. -/
def significant (tokens : List Token) : List Token := tokens.filter (·.kind ≠ .semicolon)

/-- Reads a program off its tokens. What cannot be read is left out of the program, and every
problem is listed in the order in which it was met. -/
def read (tokens : List Token) : Program × List (Issue GrammarError) :=
  let tokens := significant tokens
  let stop := endLocation tokens
  let s := tokens.takeWhile (·.kind ≠ .fileEnd)
  let body := Statement.readBody false stop s
  (⟨nextLocation stop s, body.statements⟩, body.noted)

end ArmLang.Program

namespace ArmLang.Diagnostic

def ofGrammar (issues : List (Issue GrammarError)) : List Diagnostic :=
  issues.map fun i => ⟨.grammatical, i.cause.message, i.location⟩

end ArmLang.Diagnostic
