import ArmLang.Proofs.Evaluation
import ArmLang.Proofs.Program.Nodes

namespace ArmLang

theorem Pose.isSome_set? (p : Pose) (field : String) (x : Float) :
    (p.set? field x).isSome ↔ field ∈ fieldNames := by
  unfold set? fieldNames
  split <;> simp_all

theorem Joints.isSome_set? (j : Joints) (field : String) (x : Float) :
    (j.set? field x).isSome ↔ field ∈ fieldNames := by
  unfold set? fieldNames
  split <;> simp_all

theorem Value.isSome_setField? (v : Value) (field : String) (x : Float) :
    (v.setField? field x).isSome ↔ field ∈ v.dataType.fieldNames := by
  cases v with
  | pos p | frame p =>
    rw [setField?, Option.isSome_map]
    exact p.isSome_set? field x
  | axis j =>
    rw [setField?, Option.isSome_map]
    exact j.isSome_set? field x
  | int n | real y | bool b | char s => simp [setField?, dataType, DataType.fieldNames]

/-- Whether a problem does not come of how a tree is built, as an assignment to what is not a
variable and a missing field do. -/
def SemanticError.isIncidental : SemanticError → Bool
  | targetNotVariable | noSuchField _ _ => false
  | _ => true

def Incidental (i : Issue SemanticError) : Prop := i.cause.isIncidental

namespace Step

/-- All problems that the step adds are as `P` says, whatever state it starts in. -/
structure Reports (P : Issue SemanticError → Prop) (m : Step σ α) : Prop where
  issues : ∀ s, ∀ i ∈ (m s).issues, P i

variable {P Q : Issue SemanticError → Prop}

theorem reports_pure (a : α) : Reports P (pure a : Step σ α) := ⟨fun _ => List.forall_mem_nil _⟩

theorem reports_get : Reports P (get : Step σ σ) := ⟨fun _ => List.forall_mem_nil _⟩

theorem reports_put (s : σ) : Reports P (put s) := ⟨fun _ => List.forall_mem_nil _⟩

theorem reports_emit (i : Instruction) : Reports P (emit i : Step σ Unit) :=
  ⟨fun _ => List.forall_mem_nil _⟩

theorem reports_note {e : SemanticError} {l : Location} (h : P ⟨e, l⟩) :
    Reports P (note e l : Step σ Unit) :=
  ⟨fun _ => List.forall_mem_singleton.2 h⟩

theorem reports_incidental {e : SemanticError} {l : Location} (h : e.isIncidental) :
    Reports Incidental (note e l : Step σ Unit) :=
  reports_note h

theorem Reports.bind {m : Step σ α} {k : α → Step σ β} (hm : Reports P m)
    (hk : ∀ a, Reports P (k a)) : Reports P (m >>= k) :=
  ⟨fun s => List.forall_mem_append.2 ⟨hm.issues s, (hk _).issues _⟩⟩

theorem Reports.imp {m : Step σ α} (h : Reports P m) (hPQ : ∀ i, P i → Q i) : Reports Q m :=
  ⟨fun s i hi => hPQ i (h.issues s i hi)⟩

end Step

namespace Expr

open Step

theorem reports_number (v : Value) (l : Location) : Reports Incidental (number v l : Step σ _) := by
  unfold number
  cases v.number? with
  | none => exact (reports_incidental (by rfl)).bind fun _ => reports_pure _
  | some x => exact reports_pure _

theorem reports_evaluateUnary (op : UnaryOp) (v : Value) (l : Location) :
    Reports Incidental (evaluateUnary op v l : Step σ _) := by
  unfold evaluateUnary
  split
  · exact reports_pure _
  · exact (reports_number _ _).bind fun _ => reports_pure _
  · exact (reports_number _ _).bind fun _ => reports_pure _

theorem reports_evaluateBinary (op : BinaryOp) (v w : Value) (vl wl l : Location) :
    Reports Incidental (evaluateBinary op v vl w wl l : Step σ _) := by
  apply (reports_number v vl).bind
  intro x
  apply (reports_number w wl).bind
  intro y
  split
  · split
    · exact reports_pure _
    · exact (reports_incidental (by rfl)).bind fun _ => reports_pure _
  · exact reports_pure _

theorem reports_assignValue (name : String) (type : DataType) (v : Value)
    (target value : Location) : Reports Incidental (assignValue name type v target value) := by
  have hstore (stored : Option Value) : Reports Incidental (storeConverted name target stored) := by
    cases stored with
    | none => exact reports_pure _
    | some w =>
      apply reports_get.bind
      intro s
      apply (reports_put _).bind
      intro _
      exact (reports_emit _).bind fun _ => reports_pure w
  rw [assignValue_eq]
  cases v.convert type with
  | ok w => exact hstore _
  | error e => exact (reports_incidental (by rfl)).bind fun _ => hstore _

/-- In an expression in which only variables are assigned to, nothing else is reported to be. -/
theorem reports_evaluate {e : Expr} (h : e.WellFormed) : Reports Incidental e.evaluate := by
  induction e with
  | literal v l => exact reports_pure v
  | var name l =>
    apply reports_get.bind
    intro s
    cases s.value? name with
    | some v => exact reports_pure v
    | none => exact (reports_incidental (by rfl)).bind fun _ => reports_pure _
  | unary op e l ih => exact (ih h).bind fun v => reports_evaluateUnary op v e.location
  | binary op a b l iha ihb =>
    apply (iha h.1).bind
    intro v
    apply (ihb h.2).bind
    intro w
    exact reports_evaluateBinary op v w a.location b.location l
  | assign target e l _ ih =>
    obtain ⟨name, hname⟩ := Option.isSome_iff_exists.1 h.1
    rw [evaluate, hname]
    apply reports_get.bind
    intro s
    cases s.dataType? name with
    | none => exact (reports_incidental (by rfl)).bind fun _ => reports_pure _
    | some type =>
      apply (ih h.2).bind
      intro v
      exact reports_assignValue name type v target.location e.location

theorem reports_remember {e : Expr} (h : e.WellFormed) : Reports Incidental e.remember :=
  ⟨fun m => (reports_evaluate h).issues m.store⟩

end Expr

namespace Statement

open Step

theorem reports_declareVariable (name : String) (type : DataType) (v : Value)
    {P : Issue SemanticError → Prop} : Reports P (declareVariable name type v) :=
  reports_get.bind fun _ => reports_put _

theorem reports_initialValue (type : DataType) (name : String) {init : Option Expr}
    (h : ∀ e ∈ init, e.WellFormed) : Reports Incidental (initialValue type name init) := by
  cases init with
  | none => exact reports_pure _
  | some e =>
    apply (Expr.reports_remember (h e rfl)).bind
    intro v
    cases v.convert type with
    | ok w => exact reports_pure w
    | error err => exact (reports_incidental (by rfl)).bind fun _ => reports_pure _

/-- All fields of a compound value that belong to its type are found in it. -/
theorem reports_setFields {type : Compound} {v : Value} {fields : List (String × Expr)}
    (hv : v.dataType = type.dataType) (h : FieldsOf type fields) :
    Reports Incidental (setFields type v fields) := by
  induction fields generalizing v with
  | nil => exact reports_pure v
  | cons a fields ih =>
    obtain ⟨field, e⟩ := a
    obtain ⟨⟨hfield, he⟩, hrest⟩ := List.forall_mem_cons.1 h
    rw [setFields]
    apply (Expr.reports_remember he).bind
    intro w
    apply (Expr.reports_number w e.location).bind
    intro x
    cases x with
    | none => exact ih hv hrest
    | some x =>
      have hset : (v.setField? field x).isSome := by
        rw [v.isSome_setField?, hv]
        exact hfield
      obtain ⟨w, hw⟩ := Option.isSome_iff_exists.1 hset
      dsimp only
      rw [hw]
      exact ih ((Value.dataType_setField? hw).trans hv) hrest

theorem reports_flattenMotion (command target name var : String) (place l : Location) :
    Reports Incidental (flattenMotion command target [(name, .var var place)] l) := by
  apply reports_get.bind
  intro m
  cases m.store.find? target with
  | none => exact reports_incidental (by rfl)
  | some x =>
    dsimp only
    cases motionTarget? x.value with
    | none => exact reports_incidental (by rfl)
    | some goal =>
      have hargs : Reports Incidental (evaluateArgs [(name, .var var place)]) :=
        (reports_pure _).bind fun v => (reports_pure []).bind fun _ => reports_pure _
      exact hargs.bind fun others => reports_emit _

theorem reports_evaluateCondition {condition : Expr} (h : condition.WellFormed) :
    Reports Incidental (evaluateCondition condition) := by
  apply (Expr.reports_remember h).bind
  intro v
  exact (Expr.reports_number v condition.location).bind fun x => reports_pure _

/-- What can be reported about statements: a field is missing only where one of them sets it. -/
def MayReport (ss : List Statement) (i : Issue SemanticError) : Prop :=
  Incidental i ∨ ∃ target field value type, setField target field value i.location ∈ ss ∧
    i.cause = .noSuchField field type

theorem reports_of_incidental {m : Step Memory α} {ss : List Statement}
    (h : Reports Incidental m) : Reports (MayReport ss) m :=
  h.imp fun _ => .inl

theorem reports_of_subset {m : Step Memory α} {ss ss' : List Statement} (hss : ss ⊆ ss')
    (h : Reports (MayReport ss) m) : Reports (MayReport ss') m := by
  apply h.imp
  rintro i (hi | ⟨target, field, value, type, hmem, hcause⟩)
  · exact .inl hi
  · exact .inr ⟨target, field, value, type, hss hmem, hcause⟩

theorem reports_flattenSetField (target field : String) {value : Expr} (h : value.WellFormed)
    (l : Location) :
    Reports (MayReport [setField target field value l])
      (flattenSetField target field value l) := by
  apply reports_get.bind
  intro m
  cases m.store.dataType? target with
  | none => exact reports_note (.inl rfl)
  | some type =>
    dsimp only
    split
    · exact reports_note (.inl rfl)
    · apply (reports_of_incidental (Expr.reports_remember h)).bind
      intro w
      apply (reports_of_incidental (Expr.reports_number w value.location)).bind
      intro x
      cases x with
      | none => exact reports_pure ()
      | some x =>
        apply reports_get.bind
        intro m
        cases m.store.setField? target field x with
        | some s => exact reports_put _
        | none =>
          exact reports_note (.inr ⟨target, field, value, type, List.mem_singleton_self _, rfl⟩)

mutual

theorem reports_flatten {s : Statement} (h : ∀ st ∈ s.nodes, st.Regular) :
    Reports (MayReport s.nodes) (flatten s) := by
  match s with
  | block _ _ => exact (h _ List.mem_cons_self).elim
  | routine _ _ body _ =>
    have hbody := List.forall_mem_cons.1 h
    exact reports_of_subset (List.subset_cons_self _ _) (reports_flattenAll hbody.2)
  | motion command target args l =>
    obtain ⟨-, place, rfl⟩ := h _ List.mem_cons_self
    exact reports_of_incidental (reports_flattenMotion command target _ target place l)
  | declare type name init l =>
    have hinit := h _ List.mem_cons_self
    apply (reports_of_incidental (reports_initialValue type name hinit.2)).bind
    intro v
    exact (reports_declareVariable name type v).bind fun _ => reports_emit _
  | declareFields type name fields l =>
    have hfields : FieldsOf type fields := h _ List.mem_cons_self
    have hzero : type.dataType.zero.dataType = type.dataType := Value.dataType_zero _
    apply (reports_of_incidental (reports_setFields hzero hfields)).bind
    intro v
    exact (reports_declareVariable name _ v).bind fun _ => reports_emit _
  | setField target field value l =>
    have hvalue := h _ List.mem_cons_self
    exact reports_flattenSetField target field hvalue.2 l
  | ifThen condition start body l =>
    obtain ⟨hcondition, hbody⟩ := List.forall_mem_cons.1 h
    have hflat : Reports (MayReport (ifThen condition start body l).nodes) (flattenAll body) :=
      reports_of_subset (List.subset_cons_self _ _) (reports_flattenAll hbody)
    apply (reports_of_incidental (reports_evaluateCondition hcondition)).bind
    intro taken
    apply (reports_emit _).bind
    intro _
    cases taken with
    | true =>
      apply (reports_emit _).bind
      intro _
      exact hflat.bind fun _ => reports_emit _
    | false => exact reports_emit _
  | ifElse condition start body elseStart elseBody l =>
    obtain ⟨hcondition, hbodies⟩ := List.forall_mem_cons.1 h
    obtain ⟨hbody, helse⟩ := List.forall_mem_append.1 hbodies
    let ss := (ifElse condition start body elseStart elseBody l).nodes
    have hyes : Reports (MayReport ss) (flattenAll body) :=
      reports_of_subset (List.subset_cons_of_subset _ (List.subset_append_left _ _))
        (reports_flattenAll hbody)
    have hno : Reports (MayReport ss) (flattenAll elseBody) :=
      reports_of_subset (List.subset_cons_of_subset _ (List.subset_append_right _ _))
        (reports_flattenAll helse)
    apply (reports_of_incidental (reports_evaluateCondition hcondition)).bind
    intro taken
    apply (reports_emit _).bind
    intro _
    cases taken with
    | true =>
      apply (reports_emit _).bind
      intro _
      exact hyes.bind fun _ => reports_emit _
    | false =>
      apply (reports_emit _).bind
      intro _
      exact hno.bind fun _ => reports_emit _
  | wait seconds l => exact reports_emit _
  | evaluate e =>
    have he : e.WellFormed := h _ List.mem_cons_self
    exact (reports_of_incidental (Expr.reports_remember he)).bind fun _ => reports_pure ()

theorem reports_flattenAll {ss : List Statement} (h : ∀ st ∈ nodesAll ss, st.Regular) :
    Reports (MayReport (nodesAll ss)) (flattenAll ss) := by
  match ss with
  | [] => exact reports_pure ()
  | s :: ss =>
    obtain ⟨hs, hss⟩ := List.forall_mem_append.1 h
    apply (reports_of_subset (List.subset_append_left _ _) (reports_flatten hs)).bind
    intro _
    exact reports_of_subset (List.subset_append_right _ _) (reports_flattenAll hss)

end

end Statement

namespace Program

open Statement

/-- Whatever problems were met in reading, the program that is read is regular, and a regular
program is never said to assign to anything but a variable, nor a declaration in it to set a field
that its type does not have: where a field is missing, a statement of its own sets it. -/
theorem regular_reports :
    (∀ tokens : List Token, ∀ s ∈ (read tokens).1.nodes, s.Regular) ∧
      ∀ p : Program, (∀ s ∈ p.nodes, s.Regular) →
        (∀ i ∈ p.flatten.issues, i.cause ≠ .targetNotVariable) ∧
        (∀ type name fields l, declareFields type name fields l ∈ p.nodes → ∀ m : Memory,
          ∀ i ∈ (Statement.flatten (declareFields type name fields l) m).issues,
            ∀ field t, i.cause ≠ .noSuchField field t) ∧
        ∀ i ∈ p.flatten.issues, ∀ field t, i.cause = .noSuchField field t →
          ∃ target value, setField target field value i.location ∈ p.nodes := by
  refine ⟨regular_of_mem_nodes, fun p hp => ?_⟩
  have hflat : Step.Reports (MayReport p.nodes) (flattenAll p.body) := reports_flattenAll hp
  refine ⟨?_, ?_, ?_⟩
  · intro i hi hcause
    obtain h | ⟨_, _, _, _, -, h⟩ := hflat.issues {} i hi
    · rw [Incidental, hcause] at h
      cases h
    · rw [hcause] at h
      cases h
  · intro type name fields l hmem m i hi field t hcause
    have hnode : ∀ st ∈ (declareFields type name fields l).nodes, st.Regular :=
      List.forall_mem_singleton.2 (hp _ hmem)
    obtain h | ⟨_, _, _, _, h, -⟩ := (reports_flatten hnode).issues m i hi
    · rw [Incidental, hcause] at h
      cases h
    · cases List.mem_singleton.1 h
  · intro i hi field t hcause
    obtain h | ⟨target, field', value, _, hmem, h⟩ := hflat.issues {} i hi
    · rw [Incidental, hcause] at h
      cases h
    · rw [hcause] at h
      cases h
      exact ⟨target, value, hmem⟩

/-- `DECL POS p = \x7b x 1 \x7d )` and, on the next line, `p.A1 = 2`. -/
def strayParenthesis : List Token :=
  [⟨.keyword .decl, "DECL", ⟨1, 1⟩⟩, ⟨.keyword (.type .pos), "POS", ⟨1, 6⟩⟩,
    ⟨.identifier, "p", ⟨1, 10⟩⟩, ⟨.assign, "=", ⟨1, 12⟩⟩, ⟨.leftBrace, "\x7b", ⟨1, 14⟩⟩,
    ⟨.identifier, "x", ⟨1, 16⟩⟩, ⟨.integer, "1", ⟨1, 18⟩⟩, ⟨.rightBrace, "\x7d", ⟨1, 20⟩⟩,
    ⟨.rightParen, ")", ⟨1, 22⟩⟩, ⟨.lineEnd, "\n", ⟨1, 23⟩⟩, ⟨.identifier, "p", ⟨2, 1⟩⟩,
    ⟨.dot, ".", ⟨2, 2⟩⟩, ⟨.identifier, "A1", ⟨2, 3⟩⟩, ⟨.assign, "=", ⟨2, 6⟩⟩,
    ⟨.integer, "2", ⟨2, 8⟩⟩, ⟨.lineEnd, "\n", ⟨2, 9⟩⟩, ⟨.fileEnd, "", ⟨3, 1⟩⟩]

theorem regular_reports_strayParenthesis :
    let p := (read strayParenthesis).1
    (read strayParenthesis).2 =
        [⟨.noLineEndAfterCompound .pos, ⟨1, 22⟩⟩, ⟨.noExpression (.piece ")"), ⟨1, 22⟩⟩] ∧
      (∀ s ∈ p.nodes, s.Regular) ∧ p.flatten.issues = [⟨.noSuchField "A1" .pos, ⟨2, 1⟩⟩] ∧
      ∃ target value, setField target "A1" value ⟨2, 1⟩ ∈ p.nodes := by
  intro p
  have hregular : ∀ s ∈ p.nodes, s.Regular := regular_reports.1 strayParenthesis
  have hissues : p.flatten.issues = [⟨.noSuchField "A1" .pos, ⟨2, 1⟩⟩] := by decide +kernel
  refine ⟨by decide +kernel, hregular, hissues, ?_⟩
  obtain ⟨-, -, hfields⟩ := regular_reports.2 p hregular
  exact hfields ⟨.noSuchField "A1" .pos, ⟨2, 1⟩⟩ (hissues ▸ List.mem_cons_self) "A1" .pos rfl

end Program

end ArmLang
