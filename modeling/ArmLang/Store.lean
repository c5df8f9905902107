import ArmLang.Value.Conversion

namespace ArmLang

structure Symbol where
  name : String
  dataType : DataType
  value : Value
  deriving DecidableEq

/-- The declared variables, the latest declaration first. There is one scope, so a name is declared
at most once. -/
structure Store where
  symbols : List Symbol := []
  deriving DecidableEq

namespace Store

def empty : Store := {}

def find? (s : Store) (name : String) : Option Symbol := s.symbols.find? (·.name = name)

def contains (s : Store) (name : String) : Bool := (s.find? name).isSome

def value? (s : Store) (name : String) : Option Value := (s.find? name).map (·.value)

def dataType? (s : Store) (name : String) : Option DataType := (s.find? name).map (·.dataType)

def size (s : Store) : Nat := s.symbols.length

/-- Declares a variable in place of an earlier one of that name. A value of another type gives way
to the zero of the declared one. -/
def declare (s : Store) (name : String) (type : DataType) (v : Value) : Store :=
  ⟨⟨name, type, if v.dataType = type then v else type.zero⟩ ::
    s.symbols.filter (·.name ≠ name)⟩

def replace (s : Store) (name : String) (v : Value) : Store :=
  ⟨s.symbols.map fun x => if x.name = name then { x with value := v } else x⟩

def assign? (s : Store) (name : String) (v : Value) : Option Store :=
  match s.find? name with
  | some x => if x.dataType = v.dataType then some (s.replace name v) else none
  | none => none

def setField? (s : Store) (name field : String) (x : Float) : Option Store :=
  match (s.value? name).bind fun v => v.setField? field x with
  | some w => some (s.replace name w)
  | none => none

def sorted (s : Store) : List Symbol :=
  s.symbols.mergeSort fun x y => !decide (y.name < x.name)

theorem find?_declare (s : Store) (name other : String) (type : DataType) (v : Value) :
    (s.declare name type v).find? other =
      if name = other then
        some ⟨name, type, if v.dataType = type then v else type.zero⟩
      else s.find? other := by
  by_cases h : name = other
  · simp [declare, find?, h]
  · simp only [declare, find?, h, decide_false, List.find?_cons_of_neg, Bool.false_eq_true,
      not_false_eq_true, List.find?_filter, if_false]
    congr 1
    funext x
    by_cases hx : x.name = other
    · simp [hx, Ne.symm h]
    · simp [hx]

theorem find?_replace (s : Store) (name other : String) (v : Value) :
    (s.replace name v).find? other =
      if name = other then (s.find? other).map fun x => { x with value := v }
      else s.find? other := by
  obtain ⟨l⟩ := s
  simp only [replace, find?]
  induction l with
  | nil => simp
  | cons x l ih =>
    rw [List.map_cons, List.find?_cons, List.find?_cons]
    by_cases hx : x.name = name
    · by_cases ho : name = other
      · simp [hx, ho]
      · simp [hx, ho] at ih ⊢
        exact ih
    · by_cases ho : name = other
      · subst ho
        simp [hx] at ih ⊢
        exact ih
      · simp only [hx, if_false, ho] at ih ⊢
        rw [ih]

end Store

end ArmLang
