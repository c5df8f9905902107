import ArmLang.Compilation
import ArmLang.Proofs.Execution.Recorder

namespace ArmLang

namespace Diagnostic

theorem anyFatal_of_phase {ds : List Diagnostic} {phase : Phase}
    (h : ∀ d ∈ ds, d.phase = phase) : anyFatal ds = (phase.isFatal && !ds.isEmpty) := by
  cases ds with
  | nil => simp [anyFatal]
  | cons d ds =>
    obtain ⟨hd, hds⟩ := List.forall_mem_cons.1 h
    rw [anyFatal, List.any_cons, hd, List.isEmpty_cons, Bool.not_false, Bool.and_true]
    cases hp : phase.isFatal with
    | true => rfl
    | false =>
      rw [Bool.false_or, List.any_eq_false]
      intro d' hd'
      rw [hds d' hd', hp]
      exact Bool.false_ne_true

theorem phase_ofTokens (tokens : List Token) : ∀ d ∈ ofTokens tokens, d.phase = .lexical :=
  List.forall_mem_map.2 fun _ _ => rfl

theorem phase_ofGrammar (issues : List (Issue GrammarError)) :
    ∀ d ∈ ofGrammar issues, d.phase = .grammatical :=
  List.forall_mem_map.2 fun _ _ => rfl

theorem phase_ofSemantics (issues : List (Issue SemanticError)) :
    ∀ d ∈ ofSemantics issues, d.phase = .semantic :=
  List.forall_mem_map.2 fun _ _ => rfl

theorem ofTokens_eq_nil_iff {tokens : List Token} :
    ofTokens tokens = [] ↔ ∀ t ∈ tokens, t.kind ≠ .invalid := by
  simp [ofTokens]

theorem anyFatal_ofTokens (tokens : List Token) :
    anyFatal (ofTokens tokens) ↔ ∃ t ∈ tokens, t.kind = .invalid := by
  rw [anyFatal_of_phase (phase_ofTokens tokens)]
  simp [ofTokens, Phase.isFatal]

theorem anyFatal_ofGrammar (issues : List (Issue GrammarError)) :
    anyFatal (ofGrammar issues) ↔ issues ≠ [] := by
  rw [anyFatal_of_phase (phase_ofGrammar issues)]
  simp [ofGrammar, Phase.isFatal]

theorem not_anyFatal_ofSemantics (issues : List (Issue SemanticError)) :
    ¬ anyFatal (ofSemantics issues) := by
  rw [anyFatal_of_phase (phase_ofSemantics issues)]
  exact Bool.false_ne_true

end Diagnostic

open Diagnostic

/-- What compiling tokens comes to, which is the phase it ends with: the first that finds a problem,
or the last one. -/
inductive Compilation.Staged (tokens : List Token) : Compilation → Prop
  | lexical : (∃ t ∈ tokens, t.kind = .invalid) →
    Staged tokens { tokens, diagnostics := ofTokens tokens }
  | grammatical : (∀ t ∈ tokens, t.kind ≠ .invalid) → (Program.read tokens).2 ≠ [] →
    Staged tokens
      { tokens, program := (Program.read tokens).1,
        diagnostics := ofGrammar (Program.read tokens).2 }
  | semantic : (∀ t ∈ tokens, t.kind ≠ .invalid) → (Program.read tokens).2 = [] →
    Staged tokens
      { tokens, program := (Program.read tokens).1,
        instructions := (Program.read tokens).1.flatten.code,
        diagnostics := ofSemantics (Program.read tokens).1.flatten.issues }

theorem staged_compile (source : String) :
    Compilation.Staged (Token.scan source) (compile source) := by
  unfold compile
  generalize Token.scan source = tokens
  by_cases hinvalid : ∃ t ∈ tokens, t.kind = .invalid
  · simp only [(anyFatal_ofTokens tokens).2 hinvalid, if_true]
    exact .lexical hinvalid
  · have hvalid : ∀ t ∈ tokens, t.kind ≠ .invalid := by simpa using hinvalid
    simp only [ofTokens_eq_nil_iff.2 hvalid, List.nil_append]
    rw [if_neg (by simp [anyFatal])]
    by_cases hissues : (Program.read tokens).2 = []
    · rw [hissues, if_neg (by simp [ofGrammar, anyFatal])]
      exact .semantic hvalid hissues
    · rw [if_pos ((anyFatal_ofGrammar _).2 hissues)]
      exact .grammatical hvalid hissues

/-- A text whose tokens are read with nothing to note is compiled to what its program is flattened
to. -/
theorem compile_of_read {source : String} {p : Program}
    (hvalid : ∀ t ∈ Token.scan source, t.kind ≠ .invalid)
    (hread : Program.read (Token.scan source) = (p, [])) :
    compile source =
      { tokens := Token.scan source, program := p, instructions := p.flatten.code,
        diagnostics := ofSemantics p.flatten.issues } := by
  have h := staged_compile source
  generalize compile source = c at h ⊢
  cases h with
  | lexical hinvalid =>
    obtain ⟨t, ht, hk⟩ := hinvalid
    exact absurd hk (hvalid t ht)
  | grammatical _ hissues =>
    rw [hread] at hissues
    exact absurd rfl hissues
  | semantic => rw [hread]

namespace Execution

open Activity

theorem run_nil [Drive σ] (x : Execution σ) :
    (run [] x).2.1.drive = x.drive ∧ (run [] x).2.2.filterMap Event.call? = [] := by
  have hcalls : (run [] x).2.2.filterMap Event.call? = [] := by
    cases ht : x.controller.trigger? Controller.startEvent with
    | none => rw [run_refused ht]; rfl
    | some started =>
      obtain ⟨c, notices⟩ := started
      by_cases hc : c.mode = .running
      · rw [run_started ht hc, List.filterMap_append, List.filterMap_append,
          filterMap_call?_notice, filterMap_call?_trigger]
        rfl
      · rw [run_diverted ht hc]
        exact filterMap_call?_notice notices
  refine ⟨?_, hcalls⟩
  rw [(recorded_run []).drive, hcalls]
  rfl

end Execution

/-- All that a compilation reports is of one phase, the last that was entered, and it has a program
and instructions only as far as the phases before found nothing to report. -/
structure Compilation.Phased (c : Compilation) : Prop where
  single : ∃ phase, ∀ d ∈ c.diagnostics, d.phase = phase
  invalid : (∃ t ∈ c.tokens, t.kind = .invalid) →
    c.diagnostics =
        ((c.tokens.filter (·.kind = .invalid)).map fun t =>
          ⟨.lexical, "unrecognized input '" ++ t.text ++ "'", t.location⟩) ∧
      c.program = none ∧ c.instructions = []
  program : (∀ t ∈ c.tokens, t.kind ≠ .invalid) → c.program = (Program.read c.tokens).1
  ungrammatical : (∀ t ∈ c.tokens, t.kind ≠ .invalid) → (Program.read c.tokens).2 ≠ [] →
    c.diagnostics =
        ((Program.read c.tokens).2.map fun i => ⟨.grammatical, i.cause.message, i.location⟩) ∧
      c.instructions = []
  grammatical : (∀ t ∈ c.tokens, t.kind ≠ .invalid) → (Program.read c.tokens).2 = [] →
    let e := (Program.read c.tokens).1.flatten
    c.diagnostics = (e.issues.map fun i => ⟨.semantic, i.cause.message, i.location⟩) ∧
      c.instructions = e.code
  failed : c.failed ↔
    (∃ t ∈ c.tokens, t.kind = .invalid) ∨ (Program.read c.tokens).2 ≠ []
  /-- What could not be compiled asks nothing of any drive when it is run. -/
  idle : c.failed → ∀ (σ : Type) [Drive σ] (x : Execution σ),
    let r := Execution.run c.instructions x
    r.2.1.drive = x.drive ∧ r.2.2.filterMap Event.call? = []

/-- Whatever the text, compiling it enters each phase only if the one before it found no problem,
and reports what the last phase that was entered found. -/
theorem compile_phased (source : String) :
    (compile source).tokens = Token.scan source ∧ (compile source).Phased := by
  have h := staged_compile source
  generalize compile source = c at h ⊢
  generalize Token.scan source = tokens at h ⊢
  cases h with
  | lexical hinvalid =>
    have hnot : ¬ ∀ t ∈ tokens, t.kind ≠ .invalid := by simpa using hinvalid
    refine ⟨rfl, ?_⟩
    constructor
    case single => exact ⟨_, phase_ofTokens tokens⟩
    case invalid => exact fun _ => ⟨rfl, rfl, rfl⟩
    case program => exact fun hvalid => absurd hvalid hnot
    case ungrammatical => exact fun hvalid => absurd hvalid hnot
    case grammatical => exact fun hvalid => absurd hvalid hnot
    case failed => exact iff_of_true ((anyFatal_ofTokens tokens).2 hinvalid) (.inl hinvalid)
    case idle => exact fun _ _ _ x => Execution.run_nil x
  | grammatical hvalid hissues =>
    have hnot : ¬ ∃ t ∈ tokens, t.kind = .invalid := by simpa using hvalid
    refine ⟨rfl, ?_⟩
    constructor
    case single => exact ⟨_, phase_ofGrammar _⟩
    case invalid => exact fun hinvalid => absurd hinvalid hnot
    case program => exact fun _ => rfl
    case ungrammatical => exact fun _ _ => ⟨rfl, rfl⟩
    case grammatical => exact fun _ hnone => absurd hnone hissues
    case failed => exact iff_of_true ((anyFatal_ofGrammar _).2 hissues) (.inr hissues)
    case idle => exact fun _ _ _ x => Execution.run_nil x
  | semantic hvalid hissues =>
    have hnot : ¬ ∃ t ∈ tokens, t.kind = .invalid := by simpa using hvalid
    refine ⟨rfl, ?_⟩
    constructor
    case single => exact ⟨_, phase_ofSemantics _⟩
    case invalid => exact fun hinvalid => absurd hinvalid hnot
    case program => exact fun _ => rfl
    case ungrammatical => exact fun _ hsome => absurd hissues hsome
    case grammatical => exact fun _ _ => ⟨rfl, rfl⟩
    case failed => exact iff_of_false (not_anyFatal_ofSemantics _) (by simp [hnot, hissues])
    case idle => exact fun hfailed => absurd hfailed (not_anyFatal_ofSemantics _)

end ArmLang
