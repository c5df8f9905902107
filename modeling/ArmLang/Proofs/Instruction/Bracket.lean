import ArmLang.Proofs.Interpreter.Refinement

namespace ArmLang

/-- A conditional that was reached: where it stands and, if one of its branches was taken, which one,
where that begins and the conditionals that were reached in it. -/
inductive Visit
  | branch (taken : Bool) (l start : Location) (inner : List Visit)
  | neither (l : Location)

namespace Statement

mutual

def visits : Statement → Environment → List Visit
  | block _ body, env | routine _ _ body _, env => visitsAll body env
  | ifThen condition start body l, env =>
    let test := condition.interpret env
    if test.1.number?.any (· != 0.0) then [.branch true l start (visitsAll body test.2)]
    else [.neither l]
  | ifElse condition start body elseStart elseBody l, env =>
    let test := condition.interpret env
    if test.1.number?.any (· != 0.0) then [.branch true l start (visitsAll body test.2)]
    else [.branch false l elseStart (visitsAll elseBody test.2)]
  | motion _ _ _ _, _ | declare _ _ _ _, _ | declareFields _ _ _ _, _ | setField _ _ _ _, _
  | wait _ _, _ | evaluate _, _ => []

def visitsAll : List Statement → Environment → List Visit
  | [], _ => []
  | s :: ss, env => visits s env ++ visitsAll ss (interpret {} s env).1

end

end Statement

def Program.visits (p : Program) : List Visit := Statement.visitsAll p.body .empty

namespace Instruction

open Statement (ifStart ifEnd)

def marks : List String := ["IF_START", "THEN_BLOCK", "ELSE_BLOCK", "IF_END"]

def branchStart (first : Bool) (start : Location) : Instruction :=
  ⟨if first then "THEN_BLOCK" else "ELSE_BLOCK", [], start⟩

theorem ifStart_marks (taken : Bool) (l : Location) : (ifStart taken l).command ∈ marks :=
  List.mem_cons_self

theorem branchStart_marks (first : Bool) (start : Location) :
    (branchStart first start).command ∈ marks := by
  cases first <;> simp [branchStart, marks]

theorem ifEnd_marks (l : Location) : (ifEnd l).command ∈ marks := by
  simp [ifEnd, marks]

theorem branchStart_ne_ifEnd (first : Bool) (start l : Location) :
    branchStart first start ≠ ifEnd l := by
  intro h
  have hc := congrArg Instruction.command h
  revert hc
  cases first <;> simp [branchStart, ifEnd]

theorem ifStart_ne_ifEnd (taken : Bool) (l l' : Location) : ifStart taken l ≠ ifEnd l' := by
  simp [ifStart, ifEnd]

/-- Instructions that consist of such as `P` says and of marks, which are put as conditionals were
reached. -/
inductive Bracketed (P : Instruction → Prop) : List Instruction → List Visit → Prop
  | nil : Bracketed P [] []
  | plain {i is vs} : P i → Bracketed P is vs → Bracketed P (i :: is) vs
  | branch {taken} {l start : Location} {code is us vs} : Bracketed P code us →
    Bracketed P is vs →
    Bracketed P (ifStart taken l :: branchStart taken start :: (code ++ ifEnd l :: is))
      (.branch taken l start us :: vs)
  | neither {l : Location} {is vs} : Bracketed P is vs →
    Bracketed P (ifStart false l :: ifEnd l :: is) (.neither l :: vs)

variable {P Q : Instruction → Prop} {is js : List Instruction} {us vs : List Visit}

theorem Bracketed.of_forall (h : ∀ i ∈ is, P i) : Bracketed P is [] := by
  induction is with
  | nil => exact .nil
  | cons i is ih =>
    rw [List.forall_mem_cons] at h
    exact .plain h.1 (ih h.2)

theorem Bracketed.append (h : Bracketed P is us) (h' : Bracketed P js vs) :
    Bracketed P (is ++ js) (us ++ vs) := by
  induction h with
  | nil => exact h'
  | plain hi _ ih => exact .plain hi ih
  | branch hb _ _ ih =>
    rw [List.cons_append, List.cons_append, List.append_assoc]
    exact .branch hb ih
  | neither _ ih => exact .neither ih

theorem Bracketed.imp (h : Bracketed P is vs) (hPQ : ∀ i, P i → Q i) : Bracketed Q is vs := by
  induction h with
  | nil => exact .nil
  | plain hi _ ih => exact .plain (hPQ _ hi) ih
  | branch _ _ ihb ih => exact .branch ihb ih
  | neither _ ih => exact .neither ih

theorem Bracketed.forall_mem (h : Bracketed P is vs) : ∀ i ∈ is, P i ∨ i.command ∈ marks := by
  induction h with
  | nil => exact List.forall_mem_nil _
  | plain hi _ ih => exact List.forall_mem_cons.2 ⟨.inl hi, ih⟩
  | branch _ _ ihb ih =>
    simp only [List.forall_mem_cons, List.forall_mem_append]
    exact ⟨.inr (ifStart_marks ..), .inr (branchStart_marks ..), ihb, .inr (ifEnd_marks _), ih⟩
  | neither _ ih =>
    simp only [List.forall_mem_cons]
    exact ⟨.inr (ifStart_marks ..), .inr (ifEnd_marks _), ih⟩

/-- There is one way at most to read the instructions of a branch, which the mark of its end
follows. -/
theorem Bracketed.unique_of_ifEnd (hP : ∀ i, P i → i.command ∉ marks) (h : Bracketed P is us)
    (h' : Bracketed P js vs) {l l' : Location} {rest rest' : List Instruction}
    (he : is ++ ifEnd l :: rest = js ++ ifEnd l' :: rest') : us = vs ∧ rest = rest' := by
  have hstart {taken : Bool} {l : Location} : ¬ P (ifStart taken l) :=
    fun hp => hP _ hp (ifStart_marks ..)
  have hend {l : Location} : ¬ P (ifEnd l) := fun hp => hP _ hp (ifEnd_marks l)
  induction h generalizing js vs l l' rest rest' with
  | nil =>
    cases h' with
    | nil => exact ⟨rfl, (List.cons.inj he).2⟩
    | plain hj _ => exact (hend ((List.cons.inj he).1 ▸ hj)).elim
    | branch | neither => exact (ifStart_ne_ifEnd _ _ _ (List.cons.inj he).1.symm).elim
  | plain hi _ ih =>
    cases h' with
    | nil => exact (hend ((List.cons.inj he).1 ▸ hi)).elim
    | plain hj h' => exact ih h' (List.cons.inj he).2
    | branch | neither => exact (hstart ((List.cons.inj he).1 ▸ hi)).elim
  | branch _ _ ihb ih =>
    cases h' with
    | nil => exact (ifStart_ne_ifEnd _ _ _ (List.cons.inj he).1).elim
    | plain hj _ => exact (hstart ((List.cons.inj he).1 ▸ hj)).elim
    | branch hb h' =>
      simp only [List.cons_append, List.append_assoc, List.cons.injEq] at he
      obtain ⟨hs, hm, he⟩ := he
      obtain ⟨rfl, hrest⟩ := ihb hb he
      obtain ⟨rfl, rfl⟩ := ih h' hrest
      simp_all [ifStart, branchStart]
    | neither =>
      obtain ⟨-, he⟩ := List.cons.inj he
      exact (branchStart_ne_ifEnd _ _ _ (List.cons.inj he).1).elim
  | neither _ ih =>
    cases h' with
    | nil => exact (ifStart_ne_ifEnd _ _ _ (List.cons.inj he).1).elim
    | plain hj _ => exact (hstart ((List.cons.inj he).1 ▸ hj)).elim
    | branch =>
      obtain ⟨-, he⟩ := List.cons.inj he
      exact (branchStart_ne_ifEnd _ _ _ (List.cons.inj he).1.symm).elim
    | neither h' =>
      obtain ⟨-, he⟩ := List.cons.inj he
      obtain ⟨hm, he⟩ := List.cons.inj he
      obtain ⟨rfl, rfl⟩ := ih h' he
      simp_all [ifEnd]

theorem Bracketed.unique (hP : ∀ i, P i → i.command ∉ marks) (h : Bracketed P is us)
    (h' : Bracketed P is vs) : us = vs := by
  have he : is ++ [ifEnd .unknown] = is ++ [ifEnd .unknown] := rfl
  exact (h.unique_of_ifEnd hP h' he).1

theorem Emitted.not_mem_marks {i : Instruction} (h : Emitted i) : i.command ∉ marks := by
  cases h with
  | assignment name w l => exact append_not_mem (by decide) name
  | declaration name type v l => exact append_not_mem (by decide) name
  | fields type name v l => cases type <;> simp [Compound.declaration, marks]
  | motion path relative target l hg =>
    cases path <;> cases relative <;> simp [Keyword.text, marks, Path.name]
  | wait seconds l => simp [marks]

end Instruction

namespace Statement

open Instruction (Emitted Bracketed branchStart)

theorem emitted_of_assigns {is : List Instruction} (h : ∀ i ∈ is, Expr.IsAssignment i) :
    ∀ i ∈ is, Emitted i := by
  intro i hi
  obtain ⟨name, w, l, rfl⟩ := h i hi
  exact .assignment name w l

mutual

/-- Flattening a statement puts marks around its branches just as the interpreter reaches them. -/
theorem bracketed_flatten {s : Statement} (hs : s.WellFormed) {m : Memory}
    (h : m.store.Consistent) :
    Bracketed Emitted (flatten s m).code (s.visits m.store.environment) := by
  match s with
  | block _ body => exact hs.elim
  | routine _ _ body _ => exact bracketed_flattenAll hs h
  | motion command target args l =>
    obtain ⟨⟨path, relative, rfl⟩, place, rfl⟩ := hs
    apply Bracketed.of_forall
    intro i hi
    obtain ⟨v, goal, hg, rfl⟩ := flattenMotion_emits _ target "position" target place l m i hi
    exact .motion path relative target l hg
  | declare type name init l =>
    apply Bracketed.of_forall
    refine List.forall_mem_append.2 ⟨emitted_of_assigns (initialValue_assigns type name init m), ?_⟩
    exact List.forall_mem_singleton.2 (.declaration name type _ l)
  | declareFields type name fields l =>
    apply Bracketed.of_forall
    refine List.forall_mem_append.2 ⟨emitted_of_assigns (setFields_assigns type _ fields m), ?_⟩
    exact List.forall_mem_singleton.2 (.fields type name _ l)
  | setField target field value l =>
    exact .of_forall (emitted_of_assigns (flattenSetField_assigns target field value l m))
  | ifThen condition start body l =>
    obtain ⟨issues, hc⟩ := evaluateCondition_eq condition m
    have hm : (condition.remember m).state.store.Consistent := condition.consistent_evaluate h
    have htest := Bracketed.of_forall (emitted_of_assigns (condition.evaluate_assigns m.store))
    rw [visits, condition.interpret_remember h, flatten_ifThen, hc]
    unfold Expr.holds
    dsimp only
    cases (condition.remember m).value.number?.any (· != 0.0) with
    | true => exact htest.append (.branch (bracketed_flattenAll hs.2 hm) .nil)
    | false => exact htest.append (.neither .nil)
  | ifElse condition start body elseStart elseBody l =>
    obtain ⟨issues, hc⟩ := evaluateCondition_eq condition m
    have hm : (condition.remember m).state.store.Consistent := condition.consistent_evaluate h
    have htest := Bracketed.of_forall (emitted_of_assigns (condition.evaluate_assigns m.store))
    rw [visits, condition.interpret_remember h, flatten_ifElse, hc]
    unfold Expr.holds
    dsimp only
    cases (condition.remember m).value.number?.any (· != 0.0) with
    | true => exact htest.append (.branch (bracketed_flattenAll hs.2.1 hm) .nil)
    | false => exact htest.append (.branch (bracketed_flattenAll hs.2.2 hm) .nil)
  | wait seconds l => exact .plain (.wait seconds l) .nil
  | evaluate e =>
    apply Bracketed.of_forall
    refine emitted_of_assigns (List.forall_mem_append.2 ⟨e.evaluate_assigns m.store, ?_⟩)
    exact List.forall_mem_nil _

theorem bracketed_flattenAll {ss : List Statement} (hs : WellFormedAll ss) {m : Memory}
    (h : m.store.Consistent) :
    Bracketed Emitted (flattenAll ss m).code (visitsAll ss m.store.environment) := by
  match ss with
  | [] => exact .nil
  | s :: ss =>
    have hm : (flatten s m).state.store.Consistent := by
      rw [← performAll_operations]
      exact h.performAll _
    rw [visitsAll, interpret_environment hs.1 h, flattenAll, Step.code_bind]
    exact (bracketed_flatten hs.1 h).append (bracketed_flattenAll hs.2 hm)

end

end Statement

theorem Program.bracketed_emitted (tokens : List Token) :
    let p := (read tokens).1
    Instruction.Bracketed Instruction.Emitted p.flatten.code p.visits :=
  Statement.bracketed_flattenAll (read_wellFormed tokens) Store.consistent_empty

/-- The instructions of a program that was read can be read as bracketed in one way, and that is by
the conditionals that are reached when it is interpreted. -/
theorem Program.bracketed_iff_visits (tokens : List Token) (vs : List Visit) :
    let p := (read tokens).1
    Instruction.Bracketed (fun i => i.command ∉ Instruction.marks) p.flatten.code vs ↔
      vs = p.visits := by
  intro p
  have h := (bracketed_emitted tokens).imp fun _ hi => hi.not_mem_marks
  constructor
  · intro h'
    exact h'.unique (fun _ hi => hi) h
  · rintro rfl
    exact h

end ArmLang
