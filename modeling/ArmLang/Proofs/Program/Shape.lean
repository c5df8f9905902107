import ArmLang.Program.Read

namespace ArmLang

namespace Reading

/-- If something was read, it is as `P` says. -/
def Yields (r : Reading α) (P : α → Prop) : Prop := ∀ a, r.outcome = .ok a → P a

variable {P : α → Prop} {Q : β → Prop}

theorem yields_value {a : α} (h : P a) : (value a).Yields P := by
  intro b hb
  cases hb
  exact h

theorem yields_failure (e : GrammarError) (l : Location) : (failure e l).Yields P := by
  intro b hb
  cases hb

theorem yields_noting {a : α} (h : P a) (e : GrammarError) (l : Location) :
    (noting a e l).Yields P := by
  intro b hb
  cases hb
  exact h

theorem Yields.after {r : Reading α} (h : r.Yields P) (n : Nat) : (r.after n).Yields P := h

theorem Yields.andThen {r : Reading α} {f : α → Reading β} (hr : r.Yields P)
    (hf : ∀ a, P a → (f a).Yields Q) : (r.andThen f).Yields Q := by
  intro b hb
  unfold Reading.andThen at hb
  split at hb
  · cases hb
  · next a ha => exact hf a (hr a ha) b hb

theorem Yields.map {r : Reading α} {f : α → β} (hr : r.Yields P) (hf : ∀ a, P a → Q (f a)) :
    (r.map f).Yields Q :=
  hr.andThen fun a ha => yields_value (hf a ha)

end Reading

namespace Reader

def Yields (r : Reader α) (P : α → Prop) : Prop := ∀ stop s, (r stop s).Yields P

variable {P : α → Prop} {Q : β → Prop}

theorem yields_pure {a : α} (h : P a) : (pure a : Reader α).Yields P :=
  fun _ _ => Reading.yields_value h

theorem Yields.bind {r : Reader α} {f : α → Reader β} (hr : r.Yields P)
    (hf : ∀ a, P a → (f a).Yields Q) : (r >>= f).Yields Q :=
  fun stop s => (hr stop s).andThen fun a ha => hf a ha stop _

theorem yields_true (r : Reader α) : r.Yields fun _ => True := fun _ _ _ _ => trivial

theorem yields_failAt (e : GrammarError) (l : Location) : (failAt e l : Reader α).Yields P :=
  fun _ _ => Reading.yields_failure e l

end Reader

namespace Expr

/-- Only variables are assigned to, and only scalars are written down. -/
def WellFormed : Expr → Prop
  | literal v _ => v.dataType.isStructured = false
  | var _ _ => True
  | unary _ e _ => e.WellFormed
  | binary _ a b _ => a.WellFormed ∧ b.WellFormed
  | assign target e _ => target.varName?.isSome ∧ e.WellFormed

theorem wellFormed_ofToken {t : Token} {e : Expr} (h : ofToken t = .ok e) : e.WellFormed := by
  unfold ofToken at h
  split at h
  · cases h; rfl
  · cases h; rfl
  · split at h
    · cases h; rfl
    · cases h
  · split at h
    · cases h; rfl
    · cases h
  · cases h; rfl
  · cases h; trivial
  · cases h; trivial
  · cases h; trivial
  · cases h

mutual

theorem read_wellFormed (stop : Location) (s : List Token) : (read stop s).Yields WellFormed := by
  rw [read]
  exact (readTier_wellFormed .disjunction stop s).andThen fun target ht =>
    readAssigned_wellFormed ht stop _
termination_by 20 * s.length + 16
decreasing_by
  · simp [Tier.height]
  · simp only [List.length_drop]
    omega

theorem readAssigned_wellFormed {target : Expr} (ht : target.WellFormed) (stop : Location)
    (s : List Token) : (readAssigned target stop s).Yields WellFormed := by
  match s with
  | [] =>
    rw [readAssigned]
    exact Reading.yields_value ht
  | t :: rest =>
    rw [readAssigned]
    split
    · refine ((read_wellFormed stop rest).after 1).andThen fun e he => ?_
      split
      · next name hn => exact Reading.yields_value ⟨by rw [hn]; rfl, he⟩
      · exact Reading.yields_noting ht _ _
    · exact Reading.yields_value ht
termination_by 20 * s.length

theorem readTier_wellFormed (t : Tier) (stop : Location) (s : List Token) :
    (readTier t stop s).Yields WellFormed := by
  rw [readTier]
  exact (readOperand_wellFormed t stop s).andThen fun left hl =>
    readChain_wellFormed t hl stop _
termination_by 20 * s.length + 2 * t.height + 5
decreasing_by
  · omega
  · simp only [List.length_drop]
    omega

theorem readChain_wellFormed (t : Tier) {left : Expr} (hl : left.WellFormed) (stop : Location)
    (s : List Token) : (readChain t left stop s).Yields WellFormed := by
  match s with
  | [] =>
    rw [readChain]
    exact Reading.yields_value hl
  | o :: rest =>
    rw [readChain]
    split
    · exact Reading.yields_value hl
    · next op _ =>
      refine ((readOperand_wellFormed t stop rest).after 1).andThen fun e he => ?_
      have hb : (binary op left e left.location).WellFormed := ⟨hl, he⟩
      exact readChain_wellFormed t hb stop _
termination_by 20 * s.length
decreasing_by
  · have := t.height_le
    simp only [List.length_cons]
    omega
  · simp only [List.length_cons, List.length_drop]
    omega

theorem readOperand_wellFormed (t : Tier) (stop : Location) (s : List Token) :
    (readOperand t stop s).Yields WellFormed := by
  cases t with
  | product =>
    rw [readOperand]
    exact readUnary_wellFormed stop s
  | _ =>
    rw [readOperand]
    exact readTier_wellFormed _ stop s
termination_by 20 * s.length + 2 * t.height + 4
decreasing_by all_goals simp [Tier.height]

theorem readUnary_wellFormed (stop : Location) (s : List Token) :
    (readUnary stop s).Yields WellFormed := by
  match s with
  | [] =>
    rw [readUnary]
    exact readPrimary_wellFormed stop []
  | t :: rest =>
    rw [readUnary]
    split
    · exact ((readUnary_wellFormed stop rest).after 1).map fun e he => he
    · exact readPrimary_wellFormed stop (t :: rest)
termination_by 20 * s.length + 2

theorem readPrimary_wellFormed (stop : Location) (s : List Token) :
    (readPrimary stop s).Yields WellFormed := by
  match s with
  | [] =>
    rw [readPrimary]
    exact Reading.yields_failure _ _
  | t :: rest =>
    rw [readPrimary]
    split
    · refine ((read_wellFormed stop rest).after 1).andThen fun e he => ?_
      exact Reading.Yields.map (P := fun _ => True) (fun _ _ => trivial) fun _ _ => he
    · split
      · next e he =>
        intro e' h
        cases h
        exact wellFormed_ofToken he
      · exact Reading.yields_failure _ _
termination_by 20 * s.length + 1

end

end Expr

namespace Statement

mutual

/-- A statement with expressions as `P` says: what a motion command says is a motion and its target,
a scalar has a scalar type, fields belong to the type that they are given for, and what is waited for
can be written down. -/
def Formed (P : Expr → Prop) : Statement → Prop
  | block _ _ => False
  | routine _ _ body _ => FormedAll P body
  | motion command target args _ =>
    (∃ path relative, command = (Keyword.motion path relative).text) ∧
      ∃ l, args = [("position", .var target l)]
  | declare type _ init _ => type.isStructured = false ∧ ∀ e ∈ init, P e
  | declareFields type _ fields _ => ∀ f ∈ fields, f.1 ∈ type.dataType.fieldNames ∧ P f.2
  | setField _ field value _ => field ∈ Pose.fieldNames ++ Joints.fieldNames ∧ P value
  | ifThen condition _ body _ => P condition ∧ FormedAll P body
  | ifElse condition _ body _ elseBody _ =>
    P condition ∧ FormedAll P body ∧ FormedAll P elseBody
  | wait seconds _ => ∃ text, Number.real? text = some seconds
  | evaluate e => P e

def FormedAll (P : Expr → Prop) : List Statement → Prop
  | [] => True
  | s :: ss => Formed P s ∧ FormedAll P ss

end

abbrev WellFormed : Statement → Prop := Formed Expr.WellFormed

abbrev WellFormedAll : List Statement → Prop := FormedAll Expr.WellFormed

def FieldsOf (type : Compound) (fields : List (String × Expr)) : Prop :=
  ∀ f ∈ fields, f.1 ∈ type.dataType.fieldNames ∧ f.2.WellFormed

mutual

theorem readFields_fieldsOf (type : Compound) (stop : Location) (s : List Token) :
    (readFields type stop s).Yields (FieldsOf type) := by
  match s with
  | [] =>
    rw [readFields]
    exact Reading.yields_failure _ _
  | f :: rest =>
    rw [readFields]
    split
    · exact Reading.yields_failure _ _
    · split
      · exact Reading.yields_failure _ _
      · next hf =>
        refine ((Expr.read_wellFormed stop rest).after 1).andThen fun e he => ?_
        refine (readMoreFields_fieldsOf type stop _).map fun more hm => ?_
        rintro f' (_ | ⟨_, hf'⟩)
        · exact ⟨by simpa using hf, he⟩
        · exact hm f' hf'
termination_by 2 * s.length
decreasing_by
  simp only [List.length_drop, List.length_cons]
  omega

theorem readMoreFields_fieldsOf (type : Compound) (stop : Location) (s : List Token) :
    (readMoreFields type stop s).Yields (FieldsOf type) := by
  have hnil : FieldsOf type [] := fun f hf => by cases hf
  match s with
  | [] =>
    rw [readMoreFields]
    exact Reading.yields_value hnil
  | c :: rest =>
    rw [readMoreFields]
    split
    · exact (readFields_fieldsOf type stop rest).after 1
    · exact Reading.yields_value hnil
termination_by 2 * s.length + 1

end

theorem readCompound_fieldsOf (type : Compound) : (readCompound type).Yields (FieldsOf type) := by
  have hnil : FieldsOf type [] := fun f hf => by cases hf
  refine (Reader.yields_true _).bind fun b _ => ?_
  split
  · exact Reader.yields_pure hnil
  · refine (Reader.yields_true _).bind fun _ _ => ?_
    refine Reader.Yields.bind (P := FieldsOf type) ?_ fun fields hf => ?_
    · intro stop s
      dsimp only
      split
      · exact Reading.yields_value hnil
      · exact readFields_fieldsOf type stop s
    · exact (Reader.yields_true _).bind fun _ _ => Reader.yields_pure hf

theorem readDeclaration_wellFormed (start : Location) :
    (readDeclaration start).Yields WellFormed := by
  intro stop s
  unfold readDeclaration
  split
  · next type _ _ rest =>
    refine Reading.Yields.after ?_ 1
    cases hc : type.compound? with
    | some c =>
      refine (Reader.yields_true _).bind (fun name _ => ?_) stop rest
      refine (readCompound_fieldsOf c).bind fun fields hf => ?_
      exact (Reader.yields_true _).bind fun _ _ => Reader.yields_pure hf
    | none =>
      refine (Reader.yields_true _).bind (fun name _ => ?_) stop rest
      refine (Reader.yields_true _).bind fun assigned _ => ?_
      have hrest (init : Option Expr) (hi : ∀ e ∈ init, e.WellFormed) :=
        (Reader.yields_true (Reader.acceptOrNote .lineEnd .noLineEndAfterVariable)).bind fun _ _ =>
          Reader.yields_pure (a := declare type name.text init start) (P := WellFormed)
            ⟨DataType.isStructured_of_compound? hc, hi⟩
      dsimp only
      split
      · refine Reader.Yields.bind ?_ hrest
        refine Reader.Yields.bind (r := Expr.reader) Expr.read_wellFormed fun e he => ?_
        exact Reader.yields_pure fun e' h => Option.some.inj h ▸ he
      · exact (Reader.yields_pure fun e h => by cases h).bind hrest
  · exact Reading.yields_failure _ _

theorem readMotion_wellFormed {command : String} {path : Path} {relative : Bool}
    (h : command = (Keyword.motion path relative).text) (start : Location) :
    (readMotion command start).Yields WellFormed :=
  (Reader.yields_true _).bind fun target _ =>
    Reader.yields_pure ⟨⟨path, relative, h⟩, target.location, rfl⟩

theorem readSetField_wellFormed (target : Token) : (readSetField target).Yields WellFormed := by
  refine (Reader.yields_true _).bind fun field _ => ?_
  dsimp only
  split
  · exact (Reader.yields_failAt (P := fun _ => False) _ _).bind fun _ h => h.elim
  · next hf =>
    refine (Reader.yields_true _).bind fun _ _ => ?_
    refine Reader.Yields.bind (r := Expr.reader) Expr.read_wellFormed fun e he => ?_
    have hmem : field.text ∈ Pose.fieldNames ++ Joints.fieldNames :=
      List.contains_iff_mem.1 (by simpa only [Bool.not_eq_true', Bool.not_eq_false] using hf)
    exact Reader.yields_pure ⟨hmem, he⟩

theorem readSeconds_written : readSeconds.Yields fun x => ∃ text, Number.real? text = some x := by
  intro stop s
  rw [readSeconds.eq_def]
  split
  · exact Reading.yields_failure _ stop
  · next t _ =>
    split
    · split
      · next x hx =>
        intro y hy
        cases hy
        exact ⟨t.text, hx⟩
      · exact Reading.yields_failure _ t.location
    · exact Reading.yields_failure _ t.location

theorem readWait_wellFormed (start : Location) : (readWait start).Yields WellFormed := by
  refine (Reader.yields_true _).bind fun _ _ => ?_
  refine readSeconds_written.bind fun seconds hs => ?_
  exact (Reader.yields_true _).bind fun _ _ => Reader.yields_pure hs

theorem readEvaluation_wellFormed : readEvaluation.Yields WellFormed := by
  refine Reader.Yields.bind (r := Expr.reader) Expr.read_wellFormed fun e he => ?_
  exact (Reader.yields_true _).bind fun _ _ => Reader.yields_pure he

theorem readCondition_wellFormed : readCondition.Yields Expr.WellFormed := by
  refine Reader.Yields.bind (r := Expr.reader) Expr.read_wellFormed fun e he => ?_
  refine (Reader.yields_true _).bind fun _ _ => ?_
  exact (Reader.yields_true _).bind fun _ _ => Reader.yields_pure he

theorem Body.yields_andThen {P : α → Prop} {b : Body} {f : List Statement → Reading α}
    (h : (f b.statements).Yields P) : (b.andThen f).Yields P := h

mutual

theorem readBody_wellFormed (nested : Bool) (stop : Location) (s : List Token) :
    WellFormedAll (readBody nested stop s).statements := by
  match s with
  | [] =>
    rw [readBody]
    trivial
  | t :: rest =>
    rw [readBody]
    split
    · trivial
    · have hitem := readItem_wellFormed t stop rest
      have hmore := readBody_wellFormed nested stop
        (rest.drop ((recover (t :: rest) (readItem t stop rest)).used - 1))
      dsimp only
      split
      · next st hst =>
        refine ⟨hitem (some st) ?_ st rfl, hmore⟩
        unfold recover at hst
        split at hst
        · exact hst
        · cases hst
      · exact hmore
termination_by 3 * s.length + 1
decreasing_by
  · simp only [List.length_cons]
    omega
  · simp only [List.length_cons, List.length_drop]
    omega

theorem readItem_wellFormed (t : Token) (stop : Location) (s : List Token) :
    (readItem t stop s).Yields fun o => ∀ st ∈ o, st.WellFormed := by
  have hsome (st : Statement) (h : st.WellFormed) : ∀ st' ∈ some st, st'.WellFormed :=
    fun st' h' => Option.some.inj h' ▸ h
  rw [readItem.eq_def]
  split
  · exact ((readRoutine_wellFormed t.location stop s).after 1).map hsome
  · exact ((readDeclaration_wellFormed t.location stop s).after 1).map hsome
  · next path relative h =>
    exact ((readMotion_wellFormed (by rw [h]; rfl) t.location stop s).after 1).map hsome
  · exact ((readConditional_wellFormed t.location stop s).after 1).map hsome
  · exact ((readWait_wellFormed t.location stop s).after 1).map hsome
  · intro o ho st hst
    cases ho
    cases hst
  · intro o ho st hst
    cases ho
    cases hst
  · split
    · exact ((readSetField_wellFormed t stop _).after 2).map hsome
    · exact (readEvaluation_wellFormed stop _).map hsome
  · exact (readEvaluation_wellFormed stop _).map hsome
termination_by 3 * s.length + 3

theorem readRoutine_wellFormed (start stop : Location) (s : List Token) :
    (readRoutine start stop s).Yields WellFormed := by
  rw [readRoutine]
  refine (Reader.yields_true _ stop s).andThen fun name _ => Body.yields_andThen ?_
  exact (Reader.yields_true _ stop _).map fun _ _ => readBody_wellFormed true stop _
termination_by 3 * s.length + 2
decreasing_by
  simp only [List.length_drop]
  omega

theorem readConditional_wellFormed (start stop : Location) (s : List Token) :
    (readConditional start stop s).Yields WellFormed := by
  rw [readConditional]
  refine (readCondition_wellFormed stop s).andThen fun condition hc => Body.yields_andThen ?_
  refine (Reader.yields_true _ stop _).andThen fun more _ => ?_
  split
  · refine Body.yields_andThen ((Reader.yields_true _ stop _).map fun _ _ => ?_)
    exact ⟨hc, readBody_wellFormed true stop _, readBody_wellFormed true stop _⟩
  · exact (Reader.yields_true _ stop _).map fun _ _ => ⟨hc, readBody_wellFormed true stop _⟩
termination_by 3 * s.length + 2
decreasing_by
  all_goals
    simp only [List.length_drop]
    omega

end

end Statement

/-- Every program that is read is well formed, whatever problems were met on the way. -/
theorem Program.read_wellFormed (tokens : List Token) :
    Statement.WellFormedAll (read tokens).1.body :=
  Statement.readBody_wellFormed ..

end ArmLang
