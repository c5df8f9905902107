import ArmLang.Instruction.Basic
import ArmLang.Instruction.SemanticError

namespace ArmLang

/-- What came of a step of flattening a program: a value, the state after it, and what it added to
the instructions and to the list of problems. -/
structure Effect (σ α : Type) where
  value : α
  state : σ
  code : List Instruction := []
  issues : List (Issue SemanticError) := []

def Step (σ α : Type) : Type := σ → Effect σ α

namespace Step

instance : Monad (Step σ) where
  pure a := fun s => ⟨a, s, [], []⟩
  bind m f := fun s =>
    let e := m s
    let e' := f e.value e.state
    ⟨e'.value, e'.state, e.code ++ e'.code, e.issues ++ e'.issues⟩

def get : Step σ σ := fun s => ⟨s, s, [], []⟩

def put (s : σ) : Step σ Unit := fun _ => ⟨(), s, [], []⟩

def emit (i : Instruction) : Step σ Unit := fun s => ⟨(), s, [i], []⟩

def note (e : SemanticError) (l : Location) : Step σ Unit := fun s => ⟨(), s, [], [⟨e, l⟩]⟩

theorem bind_apply (m : Step σ α) (f : α → Step σ β) (s : σ) :
    (m >>= f) s =
      ⟨(f (m s).value (m s).state).value, (f (m s).value (m s).state).state,
        (m s).code ++ (f (m s).value (m s).state).code,
        (m s).issues ++ (f (m s).value (m s).state).issues⟩ :=
  rfl

theorem pure_apply (a : α) (s : σ) : (pure a : Step σ α) s = ⟨a, s, [], []⟩ := rfl

end Step

end ArmLang
