import ArmLang.Proofs.Program.Shape

namespace ArmLang

namespace Statement

mutual

def nodes : Statement → List Statement
  | block l body => block l body :: nodesAll body
  | routine name start body l => routine name start body l :: nodesAll body
  | ifThen condition start body l => ifThen condition start body l :: nodesAll body
  | ifElse condition start body elseStart elseBody l =>
    ifElse condition start body elseStart elseBody l :: (nodesAll body ++ nodesAll elseBody)
  | motion command target args l => [motion command target args l]
  | declare type name init l => [declare type name init l]
  | declareFields type name fields l => [declareFields type name fields l]
  | setField target field value l => [setField target field value l]
  | wait seconds l => [wait seconds l]
  | evaluate e => [evaluate e]

def nodesAll : List Statement → List Statement
  | [] => []
  | s :: ss => nodes s ++ nodesAll ss

end

mutual

theorem formed_of_mem_nodes {P : Expr → Prop} {s : Statement} (h : Formed P s) :
    ∀ st ∈ nodes s, Formed P st := by
  match s with
  | block _ _ => exact h.elim
  | routine _ _ body _ => exact List.forall_mem_cons.2 ⟨h, formed_of_mem_nodesAll h⟩
  | ifThen _ _ body _ => exact List.forall_mem_cons.2 ⟨h, formed_of_mem_nodesAll h.2⟩
  | ifElse _ _ body _ elseBody _ =>
    refine List.forall_mem_cons.2 ⟨h, List.forall_mem_append.2 ⟨?_, ?_⟩⟩
    · exact formed_of_mem_nodesAll h.2.1
    · exact formed_of_mem_nodesAll h.2.2
  | motion _ _ _ _ | declare _ _ _ _ | declareFields _ _ _ _ | setField _ _ _ _ | wait _ _
  | evaluate _ => exact List.forall_mem_singleton.2 h

theorem formed_of_mem_nodesAll {P : Expr → Prop} {ss : List Statement} (h : FormedAll P ss) :
    ∀ st ∈ nodesAll ss, Formed P st := by
  match ss with
  | [] => exact List.forall_mem_nil _
  | s :: ss =>
    exact List.forall_mem_append.2 ⟨formed_of_mem_nodes h.1, formed_of_mem_nodesAll h.2⟩

end

/-- What the shape of a statement is, whatever stands in its bodies: only variables are assigned to
and only scalars written down, what a motion command says is a motion and its target, a scalar has a
scalar type, and fields belong to the type that they are given for, or to some type. -/
def Regular : Statement → Prop
  | block _ _ => False
  | routine _ _ _ _ | wait _ _ => True
  | motion command target args _ =>
    (∃ path relative, command = (Keyword.motion path relative).text) ∧
      ∃ l, args = [("position", .var target l)]
  | declare type _ init _ => type.isStructured = false ∧ ∀ e ∈ init, e.WellFormed
  | declareFields type _ fields _ => FieldsOf type fields
  | setField _ field value _ => field ∈ Pose.fieldNames ++ Joints.fieldNames ∧ value.WellFormed
  | ifThen condition _ _ _ | ifElse condition _ _ _ _ _ => condition.WellFormed
  | evaluate e => e.WellFormed

theorem WellFormed.regular {s : Statement} (h : s.WellFormed) : s.Regular := by
  cases s with
  | block | motion | declare | declareFields | setField | evaluate => exact h
  | routine | wait => trivial
  | ifThen | ifElse => exact h.1

end Statement

def Program.nodes (p : Program) : List Statement := Statement.nodesAll p.body

theorem Program.regular_of_mem_nodes (tokens : List Token) :
    ∀ s ∈ (read tokens).1.nodes, s.Regular := by
  intro s hs
  have h : s.WellFormed := Statement.formed_of_mem_nodesAll (read_wellFormed tokens) s hs
  exact h.regular

end ArmLang
