import ArmLang.Proofs.Layout.Flatten
import ArmLang.Proofs.Layout.Read

namespace ArmLang

/-- All places made one. -/
def nowhere (_ : Location) : Location := .unknown

theorem Token.map_nowhere (tokens : List Token) :
    tokens.map (relocate nowhere) =
      (tokens.map fun t => (t.kind, t.text)).map fun a => ⟨a.1, a.2, .unknown⟩ := by
  rw [List.map_map]
  rfl

theorem Issue.map_cause_nowhere (issues : List (Issue ε)) :
    (issues.map (relocate nowhere)).map (·.cause) = issues.map (·.cause) := by
  rw [List.map_map]
  rfl

theorem Instruction.map_args_nowhere (code : List Instruction) :
    (code.map (relocate nowhere)).map (fun i => (i.command, i.args)) =
      code.map fun i => (i.command, i.args) := by
  rw [List.map_map]
  rfl

namespace Program

theorem bodyOf_nowhere {tokens tokens' : List Token}
    (h : (tokens.map fun t => (t.kind, t.text)) = tokens'.map fun t => (t.kind, t.text)) :
    (bodyOf tokens).relocate nowhere = (bodyOf tokens').relocate nowhere := by
  have ht : tokens.map (Token.relocate nowhere) = tokens'.map (Token.relocate nowhere) := by
    rw [Token.map_nowhere, Token.map_nowhere, h]
  rw [← bodyOf_relocate, ← bodyOf_relocate, ht]
  rfl

/-- What a program means does not depend on its layout: tokens that differ in their places only are
read as programs that differ in places only, with the same problems, and such programs leave the
same memory, with the same instructions and problems, only that these have other places. -/
theorem layout_independent :
    (∀ tokens tokens' : List Token,
      (tokens.map fun t => (t.kind, t.text)) = (tokens'.map fun t => (t.kind, t.text)) →
        (read tokens).1.bare = (read tokens').1.bare ∧
          (read tokens).2.map (·.cause) = (read tokens').2.map (·.cause)) ∧
      ∀ p p' : Program, p.bare = p'.bare →
        p.flatten.state = p'.flatten.state ∧
          (p.flatten.code.map fun i => (i.command, i.args)) =
            (p'.flatten.code.map fun i => (i.command, i.args)) ∧
          p.flatten.issues.map (·.cause) = p'.flatten.issues.map (·.cause) := by
  constructor
  · intro tokens tokens' h
    obtain ⟨hbody, -, hnoted⟩ := Statement.Body.mk.inj (bodyOf_nowhere h)
    constructor
    · rw [bare_eq_relocate, bare_eq_relocate]
      exact congrArg (Program.mk .unknown) hbody
    · rw [read_issues, read_issues, ← Issue.map_cause_nowhere, hnoted, Issue.map_cause_nowhere]
  · intro p p' h
    have hp : p.relocate nowhere = p'.relocate nowhere := by
      rw [bare_eq_relocate, bare_eq_relocate] at h
      exact h
    have he : p.flatten.relocate nowhere = p'.flatten.relocate nowhere := by
      rw [← flatten_relocate, hp, flatten_relocate]
    obtain ⟨-, hstate, hcode, hissues⟩ := Effect.mk.inj he
    refine ⟨hstate, ?_, ?_⟩
    · rw [← Instruction.map_args_nowhere, hcode, Instruction.map_args_nowhere]
    · rw [← Issue.map_cause_nowhere, hissues, Issue.map_cause_nowhere]

/-- `DECL INT n = m )` on one line. -/
def flawedDeclaration : List Token :=
  [⟨.keyword .decl, "DECL", ⟨1, 1⟩⟩, ⟨.keyword (.type .int), "INT", ⟨1, 6⟩⟩,
    ⟨.identifier, "n", ⟨1, 10⟩⟩, ⟨.assign, "=", ⟨1, 12⟩⟩, ⟨.identifier, "m", ⟨1, 14⟩⟩,
    ⟨.rightParen, ")", ⟨1, 16⟩⟩]

theorem layout_independent_flawedDeclaration :
    let upright := flawedDeclaration.map (Token.relocate fun l => ⟨l.column, l.line⟩)
    let p := (read flawedDeclaration).1
    let p' := (read upright).1
    (flawedDeclaration.map fun t => (t.kind, t.text)) = (upright.map fun t => (t.kind, t.text)) ∧
      (read flawedDeclaration).2 =
        [⟨.noLineEndAfterVariable, ⟨1, 16⟩⟩, ⟨.noExpression (.piece ")"), ⟨1, 16⟩⟩] ∧
      (read upright).2.map (·.cause) = [.noLineEndAfterVariable, .noExpression (.piece ")")] ∧
      p.bare = p'.bare ∧ p.flatten.state = p'.flatten.state ∧
      p.flatten.issues.map (·.cause) = p'.flatten.issues.map (·.cause) := by
  intro upright p p'
  have htokens : (flawedDeclaration.map fun t => (t.kind, t.text)) =
      (upright.map fun t => (t.kind, t.text)) := rfl
  have hissues : (read flawedDeclaration).2 =
      [⟨.noLineEndAfterVariable, ⟨1, 16⟩⟩, ⟨.noExpression (.piece ")"), ⟨1, 16⟩⟩] := by
    decide +kernel
  obtain ⟨hbare, hcauses⟩ := layout_independent.1 _ _ htokens
  obtain ⟨hstate, -, hsemantic⟩ := layout_independent.2 p p' hbare
  rw [hissues] at hcauses
  exact ⟨htokens, hissues, hcauses.symm, hbare, hstate, hsemantic⟩

end Program

end ArmLang
