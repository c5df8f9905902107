import ArmLang.Instruction.Flatten
import ArmLang.Proofs.Rendering.Basic

namespace ArmLang

-- A layout is given by where everything goes: `f` moves what is at a location somewhere else.
variable (f : Location → Location)

def Token.relocate (t : Token) : Token := { t with location := f t.location }

def Issue.relocate (i : Issue ε) : Issue ε := { i with location := f i.location }

def Instruction.relocate (i : Instruction) : Instruction := { i with location := i.location.map f }

namespace Expr

def relocate : Expr → Expr
  | literal v l => literal v (f l)
  | var name l => var name (f l)
  | unary op e l => unary op e.relocate (f l)
  | binary op a b l => binary op a.relocate b.relocate (f l)
  | assign target e l => assign target.relocate e.relocate (f l)

def locations : Expr → List Location
  | literal _ l | var _ l => [l]
  | unary _ e l => l :: e.locations
  | binary _ a b l => l :: (a.locations ++ b.locations)
  | assign target e l => l :: (target.locations ++ e.locations)

@[simp] theorem location_relocate (e : Expr) : (e.relocate f).location = f e.location := by
  cases e <;> rfl

@[simp] theorem varName?_relocate (e : Expr) : (e.relocate f).varName? = e.varName? := by
  cases e <;> rfl

theorem locations_relocate (e : Expr) : (e.relocate f).locations = e.locations.map f := by
  induction e with
  | literal v l => rfl
  | var name l => rfl
  | unary op e l ih => rw [relocate, locations, ih, locations, List.map_cons]
  | binary op a b l iha ihb =>
    rw [relocate, locations, iha, ihb, locations, List.map_cons, List.map_append]
  | assign target e l iht ihe =>
    rw [relocate, locations, iht, ihe, locations, List.map_cons, List.map_append]

theorem bare_eq_relocate (e : Expr) : e.bare = e.relocate fun _ => .unknown := by
  induction e with
  | literal v l => rfl
  | var name l => rfl
  | unary op e l ih => rw [bare, relocate, ih]
  | binary op a b l iha ihb => rw [bare, relocate, iha, ihb]
  | assign target e l iht ihe => rw [bare, relocate, iht, ihe]

end Expr

namespace Statement

def relocateFields (fields : List (String × Expr)) : List (String × Expr) :=
  fields.map fun a => (a.1, a.2.relocate f)

def fieldLocations (fields : List (String × Expr)) : List Location :=
  fields.flatMap fun a => a.2.locations

theorem fieldLocations_relocate (fields : List (String × Expr)) :
    fieldLocations (relocateFields f fields) = (fieldLocations fields).map f := by
  unfold fieldLocations relocateFields
  simp only [List.flatMap_map, List.map_flatMap, Expr.locations_relocate]

theorem bareFields_eq_relocate (fields : List (String × Expr)) :
    bareFields fields = relocateFields (fun _ => .unknown) fields := by
  unfold bareFields relocateFields
  simp only [Expr.bare_eq_relocate]

mutual

def relocate : Statement → Statement
  | block start body => block (f start) (relocateAll body)
  | routine name start body l => routine name (f start) (relocateAll body) (f l)
  | motion command target args l => motion command target (relocateFields f args) (f l)
  | declare type name init l => declare type name (init.map (Expr.relocate f)) (f l)
  | declareFields type name fields l => declareFields type name (relocateFields f fields) (f l)
  | setField target field value l => setField target field (value.relocate f) (f l)
  | ifThen condition start body l =>
    ifThen (condition.relocate f) (f start) (relocateAll body) (f l)
  | ifElse condition start body elseStart elseBody l =>
    ifElse (condition.relocate f) (f start) (relocateAll body) (f elseStart)
      (relocateAll elseBody) (f l)
  | wait seconds l => wait seconds (f l)
  | evaluate e => evaluate (e.relocate f)

def relocateAll : List Statement → List Statement
  | [] => []
  | s :: ss => relocate s :: relocateAll ss

end

mutual

def locations : Statement → List Location
  | block start body => start :: locationsAll body
  | routine _ start body l => l :: start :: locationsAll body
  | motion _ _ args l => l :: fieldLocations args
  | declare _ _ init l => l :: init.toList.flatMap Expr.locations
  | declareFields _ _ fields l => l :: fieldLocations fields
  | setField _ _ value l => l :: value.locations
  | ifThen condition start body l => l :: start :: (condition.locations ++ locationsAll body)
  | ifElse condition start body elseStart elseBody l =>
    l :: start :: elseStart ::
      (condition.locations ++ locationsAll body ++ locationsAll elseBody)
  | wait _ l => [l]
  | evaluate e => e.locations

def locationsAll : List Statement → List Location
  | [] => []
  | s :: ss => locations s ++ locationsAll ss

end

mutual

theorem locations_relocate (s : Statement) :
    (s.relocate f).locations = s.locations.map f := by
  match s with
  | block start body => simp only [relocate, locations, locationsAll_relocate, List.map_cons]
  | routine name start body l =>
    simp only [relocate, locations, locationsAll_relocate, List.map_cons]
  | motion command target args l =>
    simp only [relocate, locations, fieldLocations_relocate, List.map_cons]
  | declare type name init l =>
    cases init <;> simp [relocate, locations, Expr.locations_relocate]
  | declareFields type name fields l =>
    simp only [relocate, locations, fieldLocations_relocate, List.map_cons]
  | setField target field value l =>
    simp only [relocate, locations, Expr.locations_relocate, List.map_cons]
  | ifThen condition start body l =>
    simp only [relocate, locations, Expr.locations_relocate, locationsAll_relocate, List.map_cons,
      List.map_append]
  | ifElse condition start body elseStart elseBody l =>
    simp only [relocate, locations, Expr.locations_relocate, locationsAll_relocate, List.map_cons,
      List.map_append]
  | wait seconds l => rfl
  | evaluate e => exact e.locations_relocate f

theorem locationsAll_relocate (ss : List Statement) :
    locationsAll (relocateAll f ss) = (locationsAll ss).map f := by
  match ss with
  | [] => rfl
  | s :: ss =>
    rw [relocateAll, locationsAll, locations_relocate, locationsAll_relocate, locationsAll,
      List.map_append]

end

mutual

theorem bare_eq_relocate (s : Statement) : s.bare = s.relocate fun _ => .unknown := by
  match s with
  | block start body => rw [bare, relocate, bareAll_eq_relocate]
  | routine name start body l => rw [bare, relocate, bareAll_eq_relocate]
  | motion command target args l => rw [bare, relocate, bareFields_eq_relocate]
  | declare type name init l => rw [bare, relocate, funext Expr.bare_eq_relocate]
  | declareFields type name fields l => rw [bare, relocate, bareFields_eq_relocate]
  | setField target field value l => rw [bare, relocate, Expr.bare_eq_relocate]
  | ifThen condition start body l =>
    rw [bare, relocate, Expr.bare_eq_relocate, bareAll_eq_relocate]
  | ifElse condition start body elseStart elseBody l =>
    rw [bare, relocate, Expr.bare_eq_relocate, bareAll_eq_relocate, bareAll_eq_relocate]
  | wait seconds l => rfl
  | evaluate e => rw [bare, relocate, Expr.bare_eq_relocate]

theorem bareAll_eq_relocate (ss : List Statement) :
    bareAll ss = relocateAll (fun _ => .unknown) ss := by
  match ss with
  | [] => rfl
  | s :: ss => rw [bareAll, relocateAll, bare_eq_relocate, bareAll_eq_relocate]

end

end Statement

namespace Program

def relocate (p : Program) : Program := ⟨f p.start, Statement.relocateAll f p.body⟩

def locations (p : Program) : List Location := p.start :: Statement.locationsAll p.body

theorem locations_relocate (p : Program) : (p.relocate f).locations = p.locations.map f := by
  rw [relocate, locations, Statement.locationsAll_relocate]
  rfl

theorem bare_eq_relocate (p : Program) : p.bare = p.relocate fun _ => .unknown := by
  rw [bare, relocate, Statement.bareAll_eq_relocate]

end Program

end ArmLang
