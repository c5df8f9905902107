import ArmLang.Proofs.Program.Nodes

namespace ArmLang

structure Branch where
  start : Location
  body : List Statement

namespace Statement

/-- A conditional, which need not have a branch for when its condition does not hold. -/
def conditional (condition : Expr) (first : Branch) (other : Option Branch) (l : Location) :
    Statement :=
  match other with
  | none => ifThen condition first.start first.body l
  | some b => ifElse condition first.start first.body b.start b.body l

end Statement

inductive Shell
  | block (start : Location)
  | routine (name : String) (start l : Location)
  | thenBranch (condition : Expr) (start : Location) (other : Option Branch) (l : Location)
  | elseBranch (condition : Expr) (first : Branch) (start l : Location)

namespace Shell

open Statement

def wrap : Shell → List Statement → Statement
  | block start, ss => .block start ss
  | routine name start l, ss => .routine name start ss l
  | thenBranch condition start other l, ss => conditional condition ⟨start, ss⟩ other l
  | elseBranch condition first start l, ss => conditional condition first (some ⟨start, ss⟩) l

theorem nodesAll_subset_wrap (shell : Shell) (ss : List Statement) :
    nodesAll ss ⊆ (shell.wrap ss).nodes := by
  cases shell with
  | block | routine => exact List.subset_cons_self _ _
  | thenBranch condition start other l =>
    cases other with
    | none => exact List.subset_cons_self _ _
    | some b => exact List.subset_cons_of_subset _ (List.subset_append_left _ _)
  | elseBranch condition first start l =>
    exact List.subset_cons_of_subset _ (List.subset_append_right _ _)

end Shell

/-- A body with a gap for a statement, in it or in a body within it. -/
inductive Context
  | here (before after : List Statement)
  | within (before : List Statement) (shell : Shell) (inner : Context) (after : List Statement)

namespace Context

open Statement

def fill : Context → Statement → List Statement
  | here before after, s => before ++ s :: after
  | within before shell inner after, s => before ++ shell.wrap (inner.fill s) :: after

def behind (t : Statement) : Context → Context
  | here before after => here (t :: before) after
  | within before shell inner after => within (t :: before) shell inner after

theorem fill_behind (t : Statement) (C : Context) (s : Statement) :
    (C.behind t).fill s = t :: C.fill s := by
  cases C <;> rfl

end Context

namespace Statement

theorem nodesAll_append (ss ss' : List Statement) :
    nodesAll (ss ++ ss') = nodesAll ss ++ nodesAll ss' := by
  induction ss with
  | nil => rfl
  | cons s ss ih => rw [List.cons_append, nodesAll, nodesAll, ih, List.append_assoc]

theorem mem_nodes_self (s : Statement) : s ∈ s.nodes := by
  cases s <;> exact List.mem_cons_self

mutual

theorem exists_fill_of_mem_nodes {s t : Statement} (h : s ∈ t.nodes) :
    s = t ∨ ∃ (shell : Shell) (C : Context), shell.wrap (C.fill s) = t := by
  match t with
  | block start body =>
    apply (List.mem_cons.1 h).imp_right
    intro h
    obtain ⟨C, rfl⟩ := exists_fill_of_mem_nodesAll h
    exact ⟨.block start, C, rfl⟩
  | routine name start body l =>
    apply (List.mem_cons.1 h).imp_right
    intro h
    obtain ⟨C, rfl⟩ := exists_fill_of_mem_nodesAll h
    exact ⟨.routine name start l, C, rfl⟩
  | ifThen condition start body l =>
    apply (List.mem_cons.1 h).imp_right
    intro h
    obtain ⟨C, rfl⟩ := exists_fill_of_mem_nodesAll h
    exact ⟨.thenBranch condition start none l, C, rfl⟩
  | ifElse condition start body elseStart elseBody l =>
    apply (List.mem_cons.1 h).imp_right
    intro h
    rcases List.mem_append.1 h with h | h
    · obtain ⟨C, rfl⟩ := exists_fill_of_mem_nodesAll h
      exact ⟨.thenBranch condition start (some ⟨elseStart, elseBody⟩) l, C, rfl⟩
    · obtain ⟨C, rfl⟩ := exists_fill_of_mem_nodesAll h
      exact ⟨.elseBranch condition ⟨start, body⟩ elseStart l, C, rfl⟩
  | motion _ _ _ _ | declare _ _ _ _ | declareFields _ _ _ _ | setField _ _ _ _ | wait _ _
  | evaluate _ => exact .inl (List.mem_singleton.1 h)

theorem exists_fill_of_mem_nodesAll {s : Statement} {ss : List Statement} (h : s ∈ nodesAll ss) :
    ∃ C : Context, C.fill s = ss := by
  match ss with
  | [] => cases h
  | t :: ss =>
    rcases List.mem_append.1 h with h | h
    · obtain rfl | ⟨shell, C, rfl⟩ := exists_fill_of_mem_nodes h
      · exact ⟨.here [] ss, rfl⟩
      · exact ⟨.within [] shell C ss, rfl⟩
    · obtain ⟨C, rfl⟩ := exists_fill_of_mem_nodesAll h
      exact ⟨C.behind t, C.fill_behind t s⟩

end

theorem mem_nodesAll_fill (C : Context) (s : Statement) : s ∈ nodesAll (C.fill s) := by
  induction C with
  | here before after =>
    rw [Context.fill, nodesAll_append, nodesAll]
    exact List.mem_append_right _ (List.mem_append_left _ s.mem_nodes_self)
  | within before shell inner after ih =>
    rw [Context.fill, nodesAll_append, nodesAll]
    exact List.mem_append_right _ (List.mem_append_left _ (shell.nodesAll_subset_wrap _ ih))

/-- The statements of a body, however deep, are those that stand in a gap of it. -/
theorem mem_nodesAll_iff {s : Statement} {ss : List Statement} :
    s ∈ nodesAll ss ↔ ∃ C : Context, C.fill s = ss := by
  constructor
  · exact exists_fill_of_mem_nodesAll
  · rintro ⟨C, rfl⟩
    exact mem_nodesAll_fill C s

end Statement

end ArmLang
