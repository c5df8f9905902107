import ArmLang.Proofs.Instruction.Bracket
import ArmLang.Proofs.Program.Nodes

namespace ArmLang

def wordAfter? (first word : String) : Option String :=
  if first.toList <+: word.toList then some (String.ofList (word.toList.drop first.toList.length))
  else none

theorem wordAfter?_append (first rest : String) : wordAfter? first (first ++ rest) = some rest := by
  rw [wordAfter?, String.toList_append, if_pos (List.prefix_append ..), List.drop_left,
    String.ofList_toList]

def DataType.ofKeyword? (s : String) : Option DataType := all.find? (·.keyword == s)

theorem DataType.ofKeyword?_keyword (t : DataType) : ofKeyword? t.keyword = some t := by
  cases t <;> decide

def Compound.all : List Compound := [.pos, .frame, .axis]

def Compound.ofDeclaration? (command : String) : Option Compound :=
  all.find? (·.declaration.1 == command)

theorem Compound.ofDeclaration?_declaration (t : Compound) :
    ofDeclaration? t.declaration.1 = some t := by
  cases t <;> decide

theorem Compound.ofDeclaration?_eq_none {command : String}
    (h : command ∉ all.map (·.declaration.1)) : ofDeclaration? command = none := by
  rw [ofDeclaration?, List.find?_eq_none]
  intro t ht he
  exact h (List.mem_map.2 ⟨t, ht, eq_of_beq he⟩)

namespace Instruction

def word? (i : Instruction) (name : String) : Option String :=
  match i.arg? name with
  | some (.char s) => some s
  | _ => none

def scalarDeclaration? (i : Instruction) : Option Store.Operation := do
  let name ← wordAfter? "DECL_" i.command
  let type ← DataType.ofKeyword? (← i.word? "type")
  return .declare name type (← i.arg? "value")

def compoundDeclaration? (i : Instruction) : Option Store.Operation := do
  let type ← Compound.ofDeclaration? i.command
  return .declare (← i.word? "name") type.dataType (← i.arg? type.declaration.2)

def assignment? (i : Instruction) : Option Store.Operation := do
  let _ ← wordAfter? "ASSIGN_" i.command
  return .assign (← i.word? "variable") (← i.arg? "value")

/-- What an instruction does to a store that it is replayed into. -/
def operation? (i : Instruction) : Option Store.Operation :=
  i.scalarDeclaration? <|> i.compoundDeclaration? <|> i.assignment?

theorem scalarDeclaration?_eq_none {i : Instruction}
    (h : ¬ "DECL_".toList <+: i.command.toList) : i.scalarDeclaration? = none := by
  rw [scalarDeclaration?, wordAfter?, if_neg h]
  rfl

theorem compoundDeclaration?_eq_none {i : Instruction}
    (h : i.command ∉ Compound.all.map (·.declaration.1)) : i.compoundDeclaration? = none := by
  rw [compoundDeclaration?, Compound.ofDeclaration?_eq_none h]
  rfl

theorem assignment?_eq_none {i : Instruction} (h : ¬ "ASSIGN_".toList <+: i.command.toList) :
    i.assignment? = none := by
  rw [assignment?, wordAfter?, if_neg h]
  rfl

theorem operation?_declaration (name : String) (type : DataType) (v : Value) (l : Location) :
    operation? ⟨"DECL_" ++ name, [("type", .char type.keyword), ("value", v)], l⟩ =
      some (.declare name type v) := by
  simp [operation?, scalarDeclaration?, wordAfter?_append, word?, arg?,
    DataType.ofKeyword?_keyword]

theorem operation?_fields (type : Compound) (name : String) (v : Value) (l : Location) :
    operation? ⟨type.declaration.1, [("name", .char name), (type.declaration.2, v)], l⟩ =
      some (.declare name type.dataType v) := by
  have hs : ¬ "DECL_".toList <+: type.declaration.1.toList := by cases type <;> decide
  have hv : "name" ≠ type.declaration.2 := by cases type <;> decide
  rw [operation?, scalarDeclaration?_eq_none hs]
  simp [compoundDeclaration?, Compound.ofDeclaration?_declaration, word?, arg?, hv]

theorem operation?_assignment (name : String) (w : Value) (l : Location) :
    (Expr.assignment name w l).operation? = some (.assign name w) := by
  have hs : ¬ "DECL_".toList <+: ("ASSIGN_" ++ name).toList := by simp
  have hc : "ASSIGN_" ++ name ∉ Compound.all.map (·.declaration.1) :=
    append_not_mem (by decide) name
  rw [operation?, scalarDeclaration?_eq_none hs, compoundDeclaration?_eq_none hc]
  simp [assignment?, Expr.assignment, wordAfter?_append, word?, arg?]

def otherCommands : List String :=
  "WAIT" :: marks ++
    Path.all.flatMap fun path =>
      [false, true].map fun relative => (Keyword.motion path relative).text

theorem operation?_eq_none {i : Instruction} (h : i.command ∈ otherCommands) :
    i.operation? = none := by
  have hall : ∀ command ∈ otherCommands, ¬ "DECL_".toList <+: command.toList ∧
      command ∉ Compound.all.map (·.declaration.1) ∧ ¬ "ASSIGN_".toList <+: command.toList := by
    decide
  obtain ⟨hs, hc, ha⟩ := hall _ h
  rw [operation?, scalarDeclaration?_eq_none hs, compoundDeclaration?_eq_none hc,
    assignment?_eq_none ha]
  rfl

theorem operation?_mark {i : Instruction} (h : i.command ∈ marks) : i.operation? = none :=
  operation?_eq_none (List.mem_append_left _ (List.mem_cons_of_mem _ h))

theorem mem_otherCommands_motion (path : Path) (relative : Bool) :
    (Keyword.motion path relative).text ∈ otherCommands := by
  cases path <;> cases relative <;> decide

end Instruction

namespace Store

theorem value?_replace {s : Store} {name : String} {type : DataType}
    (h : s.dataType? name = some type) (v : Value) : (s.replace name v).value? name = some v := by
  obtain ⟨x, hx, -⟩ := Option.map_eq_some_iff.1 h
  rw [value?, find?_replace, if_pos rfl, hx]
  rfl

/-- The operation takes effect, and the value that it brings along is stored as it is. -/
def Operation.Stores (s : Store) : Operation → Prop
  | .declare name type v => (s.declare name type v).find? name = some ⟨name, type, v⟩
  | .assign name v => ∃ s', s.assign? name v = some s' ∧ s'.value? name = some v
  | .clear | .setField _ _ _ => False

theorem Operation.stores_declare (s : Store) (name : String) {type : DataType} {v : Value}
    (h : v.dataType = type) : (declare name type v).Stores s := by
  rw [Stores, find?_declare, if_pos rfl, if_pos h]

theorem Operation.stores_assign {s : Store} {name : String} {v : Value}
    (h : s.dataType? name = some v.dataType) : (assign name v).Stores s :=
  ⟨_, assign?_of_dataType h, value?_replace h v⟩

/-- Every one of the operations stores its value, when they are performed in order. -/
def StoresAll (s : Store) : List Operation → Prop
  | [] => True
  | op :: ops => op.Stores s ∧ (s.perform op).StoresAll ops

theorem StoresAll.append {s : Store} {ops ops' : List Operation} (h : s.StoresAll ops)
    (h' : (s.performAll ops).StoresAll ops') : s.StoresAll (ops ++ ops') := by
  induction ops generalizing s with
  | nil => exact h'
  | cons op ops ih => exact ⟨h.1, ih h.2 h'⟩

end Store

/-- Replaying instructions takes one store to another, and every replayed value is stored. -/
structure Replays (s : Store) (is : List Instruction) (s' : Store) : Prop where
  performAll : s.performAll (is.filterMap (·.operation?)) = s'
  stored : s.StoresAll (is.filterMap (·.operation?))

variable {s s' s'' : Store} {i : Instruction} {is js : List Instruction}

theorem Replays.nil : Replays s [] s := ⟨rfl, trivial⟩

theorem Replays.ignored (h : i.operation? = none) : Replays s [i] s := by
  constructor
  · rw [List.filterMap_cons_none h]
    rfl
  · rw [List.filterMap_cons_none h]
    trivial

theorem Replays.single {op : Store.Operation} (h : i.operation? = some op) (hs : op.Stores s) :
    Replays s [i] (s.perform op) := by
  constructor
  · rw [List.filterMap_cons_some h]
    rfl
  · rw [List.filterMap_cons_some h]
    exact ⟨hs, trivial⟩

theorem Replays.append (h : Replays s is s') (h' : Replays s' js s'') :
    Replays s (is ++ js) s'' := by
  obtain ⟨rfl, hs⟩ := h
  obtain ⟨rfl, hs'⟩ := h'
  constructor
  · rw [List.filterMap_append, Store.performAll_append]
  · rw [List.filterMap_append]
    exact hs.append hs'

theorem Replays.cons_ignored (h : i.operation? = none) (h' : Replays s is s') :
    Replays s (i :: is) s' :=
  (Replays.ignored h).append h'

theorem Replays.branch (h : Replays s is s') (h' : Replays s' js s'') (taken : Bool)
    (start l : Location) :
    Replays s
      (is ++ Statement.ifStart taken l :: Instruction.branchStart taken start ::
        (js ++ [Statement.ifEnd l])) s'' := by
  apply h.append
  apply Replays.cons_ignored (Instruction.operation?_mark (Instruction.ifStart_marks taken l))
  apply Replays.cons_ignored
    (Instruction.operation?_mark (Instruction.branchStart_marks taken start))
  exact h'.append (.ignored (Instruction.operation?_mark (Instruction.ifEnd_marks l)))

theorem Replays.neither (h : Replays s is s') (l : Location) :
    Replays s (is ++ [Statement.ifStart false l, Statement.ifEnd l]) s' := by
  apply h.append
  apply Replays.cons_ignored (Instruction.operation?_mark (Instruction.ifStart_marks false l))
  exact .ignored (Instruction.operation?_mark (Instruction.ifEnd_marks l))

namespace Expr

theorem replays_evaluate (e : Expr) (s : Store) :
    Replays s (e.evaluate s).code (e.evaluate s).state := by
  induction e generalizing s with
  | literal v l => exact .nil
  | var name l =>
    obtain ⟨issues, he⟩ := evaluate_var name l s
    rw [he]
    exact .nil
  | unary op e l ih =>
    obtain ⟨issues, he⟩ := evaluate_unary op e l s
    rw [he]
    exact ih s
  | binary op a b l iha ihb =>
    obtain ⟨issues, he⟩ := evaluate_binary op a b l s
    rw [he]
    exact (iha s).append (ihb _)
  | assign target e l _ ih =>
    cases ht : target.varName? with
    | none =>
      obtain ⟨issues, he⟩ := evaluate_assign_no_variable ht e l s
      rw [he]
      exact .nil
    | some name => cases hs : s.dataType? name with
      | none =>
        obtain ⟨issues, he⟩ := evaluate_assign_undeclared ht hs e l
        rw [he]
        exact .nil
      | some type =>
        have htype := (e.dataType?_evaluate s name).trans hs
        rw [evaluate_assign ht hs, Step.code_bind, Step.state_bind]
        refine (ih s).append ?_
        cases hw : (e.evaluate s).value.stored? type with
        | none =>
          obtain ⟨issues, he⟩ := assignValue_kept hw name target.location e.location
            (e.evaluate s).state
          rw [he]
          exact .nil
        | some w =>
          obtain ⟨issues, he⟩ := assignValue_stored hw name target.location e.location
            (e.evaluate s).state
          rw [← Value.dataType_stored? hw] at htype
          rw [he]
          exact .single (Instruction.operation?_assignment name w target.location)
            (Store.Operation.stores_assign htype)

theorem replays_remember (e : Expr) (m : Memory) :
    Replays m.store (e.remember m).code (e.remember m).state.store :=
  e.replays_evaluate m.store

end Expr

namespace Statement

def isSetField : Statement → Bool
  | setField _ _ _ _ => true
  | _ => false

theorem replays_initialValue (type : DataType) (name : String) (init : Option Expr)
    (m : Memory) :
    Replays m.store (initialValue type name init m).code
      (initialValue type name init m).state.store := by
  cases init with
  | none => exact .nil
  | some e =>
    rw [initialValue, Step.code_bind, Step.state_bind]
    refine (e.replays_remember m).append ?_
    cases (e.remember m).value.convert type with
    | ok w => exact .nil
    | error err => exact .nil

theorem replays_setFields (type : Compound) (v : Value) (fields : List (String × Expr))
    (m : Memory) :
    Replays m.store (setFields type v fields m).code (setFields type v fields m).state.store := by
  induction fields generalizing v m with
  | nil => exact .nil
  | cons f fields ih =>
    obtain ⟨field, e⟩ := f
    obtain ⟨issues, hn⟩ := Expr.number_gives (e.remember m).value e.location (e.remember m).state
    rw [setFields, Step.code_bind, Step.state_bind]
    refine (e.replays_remember m).append ?_
    rw [Step.code_bind, Step.state_bind, hn]
    dsimp only
    cases (e.remember m).value.number? with
    | none => exact ih v _
    | some x =>
      dsimp only
      cases v.setField? field x with
      | none => exact ih v _
      | some w => exact ih w _

mutual

/-- What a statement emits replays to what it does to the store. Only an assignment to a field
changes the store and emits nothing. -/
theorem replays_flatten {s : Statement} (hs : s.WellFormed)
    (hn : ∀ st ∈ nodes s, st.isSetField = false) (m : Memory) :
    Replays m.store (flatten s m).code (flatten s m).state.store := by
  match s with
  | block _ body => exact hs.elim
  | routine _ _ body _ =>
    exact replays_flattenAll hs (fun st h => hn st (List.mem_cons_of_mem _ h)) m
  | motion command target args l =>
    obtain ⟨⟨path, relative, rfl⟩, place, rfl⟩ := hs
    cases hg : goal? m.store target with
    | none =>
      obtain ⟨issues, he⟩ := flattenMotion_no_goal hg (Keyword.motion path relative).text
        [("position", .var target place)] l
      rw [flatten, he]
      exact .nil
    | some goal =>
      rw [flatten, flattenMotion_goal hg]
      exact .ignored
        (Instruction.operation?_eq_none (Instruction.mem_otherCommands_motion path relative))
  | declare type name init l =>
    have hv := dataType_initialValue type name init m
    exact (replays_initialValue type name init m).append
      (.single (Instruction.operation?_declaration name type _ l)
        (Store.Operation.stores_declare _ name hv))
  | declareFields type name fields l =>
    have hv : (setFields type type.dataType.zero fields m).value.dataType = type.dataType := by
      rw [dataType_setFields, Value.dataType_zero]
    exact (replays_setFields type type.dataType.zero fields m).append
      (.single (Instruction.operation?_fields type name _ l)
        (Store.Operation.stores_declare _ name hv))
  | setField target field value l => cases hn _ List.mem_cons_self
  | ifThen condition start body l =>
    obtain ⟨issues, hc⟩ := evaluateCondition_eq condition m
    have htest := condition.replays_remember m
    rw [nodes, List.forall_mem_cons] at hn
    rw [flatten_ifThen, hc]
    dsimp only
    cases condition.holds m with
    | true => exact htest.branch (replays_flattenAll hs.2 hn.2 _) true start l
    | false => exact htest.neither l
  | ifElse condition start body elseStart elseBody l =>
    obtain ⟨issues, hc⟩ := evaluateCondition_eq condition m
    have htest := condition.replays_remember m
    rw [nodes, List.forall_mem_cons, List.forall_mem_append] at hn
    rw [flatten_ifElse, hc]
    dsimp only
    cases condition.holds m with
    | true => exact htest.branch (replays_flattenAll hs.2.1 hn.2.1 _) true start l
    | false => exact htest.branch (replays_flattenAll hs.2.2 hn.2.2 _) false elseStart l
  | wait seconds l => exact .ignored (Instruction.operation?_eq_none List.mem_cons_self)
  | evaluate e => exact (e.replays_remember m).append .nil

theorem replays_flattenAll {ss : List Statement} (hs : WellFormedAll ss)
    (hn : ∀ st ∈ nodesAll ss, st.isSetField = false) (m : Memory) :
    Replays m.store (flattenAll ss m).code (flattenAll ss m).state.store := by
  match ss with
  | [] => exact .nil
  | s :: ss =>
    rw [nodesAll, List.forall_mem_append] at hn
    rw [flattenAll, Step.code_bind, Step.state_bind]
    exact (replays_flatten hs.1 hn.1 m).append (replays_flattenAll hs.2 hn.2 _)

end

end Statement

/-- The instructions of a program that was read and assigns to no field replay to its variables.
Every assignment among them succeeds, and every value is stored as it is. -/
theorem Program.replays_to_store {tokens : List Token}
    (h : ∀ st ∈ (read tokens).1.nodes, st.isSetField = false) :
    let p := (read tokens).1
    let ops := p.flatten.code.filterMap Instruction.operation?
    Store.empty.performAll ops = p.flatten.state.store ∧ Store.empty.StoresAll ops := by
  obtain ⟨hstore, hall⟩ := Statement.replays_flattenAll (read_wellFormed tokens) h {}
  exact ⟨hstore, hall⟩

/-- A variable that starts with a text in place of an integer, and is declared again as a text with
an assignment to itself in front. -/
def redeclaration : List Token :=
  [⟨.keyword .decl, "DECL", ⟨1, 1⟩⟩, ⟨.keyword (.type .int), "INT", ⟨1, 6⟩⟩,
    ⟨.identifier, "n", ⟨1, 10⟩⟩, ⟨.assign, "=", ⟨1, 12⟩⟩, ⟨.text, "\"b\"", ⟨1, 14⟩⟩,
    ⟨.lineEnd, "\n", ⟨1, 17⟩⟩, ⟨.keyword .decl, "DECL", ⟨2, 1⟩⟩,
    ⟨.keyword (.type .char), "CHAR", ⟨2, 6⟩⟩, ⟨.identifier, "n", ⟨2, 11⟩⟩,
    ⟨.assign, "=", ⟨2, 13⟩⟩, ⟨.identifier, "n", ⟨2, 15⟩⟩, ⟨.assign, "=", ⟨2, 17⟩⟩,
    ⟨.integer, "2", ⟨2, 19⟩⟩, ⟨.lineEnd, "\n", ⟨2, 20⟩⟩, ⟨.fileEnd, "", ⟨3, 1⟩⟩]

theorem Program.replays_redeclaration :
    (∀ st ∈ (read redeclaration).1.nodes, st.isSetField = false) ∧
      let p := (read redeclaration).1
      let ops := p.flatten.code.filterMap Instruction.operation?
      p.flatten.code.map (·.command) = ["DECL_n", "ASSIGN_n", "DECL_n"] ∧
        Store.empty.performAll ops = p.flatten.state.store ∧ Store.empty.StoresAll ops := by
  have h : ∀ st ∈ (read redeclaration).1.nodes, st.isSetField = false := by decide +kernel
  have hcode : (read redeclaration).1.flatten.code.map (·.command) =
      ["DECL_n", "ASSIGN_n", "DECL_n"] := by
    decide +kernel
  exact ⟨h, hcode, replays_to_store h⟩

end ArmLang
