import Mathlib

namespace ArmLang.Number

open Float.Model (UnpackedFloat)

theorem compare_magnitude_swap (m n : Nat) (e f : Int) :
    ((compare e f).then (compare m n)).swap = (compare f e).then (compare n m) := by
  rw [Ordering.swap_then, ← Std.OrientedCmp.eq_swap, ← Std.OrientedCmp.eq_swap]

theorem compare_swap (a b : UnpackedFloat) : (a.compare b).map Ordering.swap = b.compare a := by
  cases a with
  | infinity s =>
    cases b with
    | infinity t => cases s <;> cases t <;> rfl
    | _ => cases s <;> rfl
  | notANumber => cases b <;> rfl
  | zero s =>
    cases b with
    | infinity t => cases t <;> rfl
    | notANumber => rfl
    | zero t => rfl
    | finite t => cases t <;> rfl
  | finite s m e =>
    cases b with
    | infinity t => cases s <;> cases t <;> rfl
    | notANumber => cases s <;> rfl
    | zero t => cases s <;> rfl
    | finite t n f =>
      have hswap := compare_magnitude_swap m n e f
      cases s with
      | negative =>
        cases t with
        | negative => exact congrArg (fun o => some o.swap) hswap
        | positive => rfl
      | positive =>
        cases t with
        | negative => rfl
        | positive => exact congrArg some hswap

theorem compare_eq_none_iff (a b : UnpackedFloat) :
    a.compare b = none ↔ a.isNaN ∨ b.isNaN := by
  fun_cases UnpackedFloat.compare a b
  all_goals grind [UnpackedFloat.isNaN]

def parts (x : Float) : UnpackedFloat := x.toModel.unpack

variable {x y : Float}

theorem isNaN_eq (x : Float) : x.isNaN = (parts x).isNaN := rfl

theorem lt_iff : x < y ↔ (parts x).compare (parts y) = some .lt := by
  change decide ((parts x).compare (parts y) == some .lt) = true ↔ _
  rw [decide_eq_true_iff, beq_iff_eq]

theorem le_iff : x ≤ y ↔ ∃ o, (parts x).compare (parts y) = some o ∧ o.isLE := by
  change decide (((parts x).compare (parts y)).any (·.isLE) = true) = true ↔ _
  rw [decide_eq_true_iff, Option.any_eq_true]

/-- What is not less is greater or equal, unless the two cannot be compared. -/
theorem not_lt_iff : ¬ x < y ↔ y ≤ x ∨ x.isNaN ∨ y.isNaN := by
  rw [lt_iff, le_iff, isNaN_eq, isNaN_eq, ← compare_eq_none_iff,
    ← compare_swap (parts y)]
  cases (parts y).compare (parts x) with
  | none => simp
  | some o => cases o <;> simp

theorem isNaN_of_le (h : x ≤ y) : x.isNaN = false ∧ y.isNaN = false := by
  obtain ⟨o, ho, -⟩ := le_iff.1 h
  have hnone := mt (compare_eq_none_iff (parts x) (parts y)).2 (ho ▸ Option.some_ne_none o)
  rwa [not_or, Bool.not_eq_true, Bool.not_eq_true] at hnone

end ArmLang.Number
