import ArmLang.Instruction.Flatten
import ArmLang.Program.Read
import ArmLang.Token.Scan

namespace ArmLang

def Diagnostic.ofSemantics (issues : List (Issue SemanticError)) : List Diagnostic :=
  issues.map fun i => ⟨.semantic, i.cause.message, i.location⟩

/-- What came of a program text. There is no program if it has tokens of no known shape, and there
are no instructions if it does not follow the grammar. -/
structure Compilation where
  tokens : List Token
  program : Option Program := none
  instructions : List Instruction := []
  diagnostics : List Diagnostic

namespace Compilation

/-- Whether the text could not be compiled; semantic problems do not keep it from that. -/
def failed (c : Compilation) : Bool := Diagnostic.anyFatal c.diagnostics

end Compilation

/-- Compiles a program text. Each phase is entered only if the one before it found no problem. -/
def compile (source : String) : Compilation :=
  let tokens := Token.scan source
  let lexical := Diagnostic.ofTokens tokens
  if Diagnostic.anyFatal lexical then { tokens, diagnostics := lexical }
  else
    let (program, issues) := Program.read tokens
    let grammatical := lexical ++ Diagnostic.ofGrammar issues
    if Diagnostic.anyFatal grammatical then { tokens, program, diagnostics := grammatical }
    else
      let e := program.flatten
      { tokens, program, instructions := e.code,
        diagnostics := grammatical ++ Diagnostic.ofSemantics e.issues }

end ArmLang
