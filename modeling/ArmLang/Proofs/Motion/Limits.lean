import ArmLang.Proofs.Motion.Trace
import ArmLang.Proofs.Number.Order

namespace ArmLang

structure Component where
  name : String
  value : Float
  min : Float
  max : Float

namespace Component

def Within (c : Component) : Prop := c.min ≤ c.value ∧ c.value ≤ c.max

def Exceeds (c : Component) : Prop := c.value < c.min ∨ c.max < c.value

def Comparable (c : Component) : Prop :=
  c.value.isNaN = false ∧ c.min.isNaN = false ∧ c.max.isNaN = false

instance (c : Component) : Decidable c.Within := inferInstanceAs (Decidable (_ ∧ _))

instance (c : Component) : Decidable c.Exceeds := inferInstanceAs (Decidable (_ ∨ _))

def refusal (c : Component) : Refusal := .outOfWorkspace c.name c.value c.min c.max

/-- A named component that has its lower and its upper limit next to it. -/
def ofPair (p : (String × Float) × (Float × Float)) : Component := ⟨p.1.1, p.1.2, p.2.1, p.2.2⟩

theorem Within.comparable {c : Component} (h : c.Within) : c.Comparable :=
  ⟨(Number.isNaN_of_le h.1).2, (Number.isNaN_of_le h.1).1, (Number.isNaN_of_le h.2).2⟩

/-- Where a value can be compared with its limits, it keeps them unless it exceeds one. -/
theorem Comparable.within_iff {c : Component} (h : c.Comparable) : c.Within ↔ ¬ c.Exceeds := by
  obtain ⟨hvalue, hmin, hmax⟩ := h
  have hlower : ¬ c.value < c.min ↔ c.min ≤ c.value := by
    rw [Number.not_lt_iff, hvalue, hmin]
    simp only [Bool.false_eq_true, or_false]
  have hupper : ¬ c.max < c.value ↔ c.value ≤ c.max := by
    rw [Number.not_lt_iff, hvalue, hmax]
    simp only [Bool.false_eq_true, or_false]
  rw [Within, Exceeds, not_or, hlower, hupper]

theorem within_iff (c : Component) : c.Within ↔ ¬ c.Exceeds ∧ c.Comparable := by
  constructor
  · intro h
    exact ⟨h.comparable.within_iff.1 h, h.comparable⟩
  · rintro ⟨hexceeds, hcomparable⟩
    exact hcomparable.within_iff.2 hexceeds

end Component

namespace Workspace

def components (w : Workspace) (target : Pose) : List Component :=
  [⟨"x", target.x, w.min.x, w.max.x⟩, ⟨"y", target.y, w.min.y, w.max.y⟩,
    ⟨"z", target.z, w.min.z, w.max.z⟩, ⟨"a", target.a, w.min.a, w.max.a⟩,
    ⟨"b", target.b, w.min.b, w.max.b⟩, ⟨"c", target.c, w.min.c, w.max.c⟩]

/-- The component is the first one to exceed a limit. -/
def FirstExceeding (cs : List Component) (c : Component) : Prop :=
  ∃ before after, cs = before ++ c :: after ∧ c.Exceeds ∧ ∀ d ∈ before, ¬ d.Exceeds

theorem violation?_eq (w : Workspace) (target : Pose) :
    w.violation? target =
      ((w.components target).find? fun c => decide c.Exceeds).map Component.refusal := by
  have hcomponents : w.components target =
      (target.fields.zip (w.min.toList.zip w.max.toList)).map Component.ofPair := rfl
  rw [hcomponents, List.find?_map, Option.map_map]
  rfl

theorem violation?_eq_none_iff {w : Workspace} {target : Pose} :
    w.violation? target = none ↔ ∀ c ∈ w.components target, ¬ c.Exceeds := by
  rw [violation?_eq, Option.map_eq_none_iff, List.find?_eq_none]
  simp

theorem violation?_eq_some_iff {w : Workspace} {target : Pose} {cause : Refusal} :
    w.violation? target = some cause ↔
      ∃ c, FirstExceeding (w.components target) c ∧ cause = c.refusal := by
  rw [violation?_eq, Option.map_eq_some_iff]
  constructor
  · rintro ⟨c, hfind, rfl⟩
    obtain ⟨hexceeds, before, after, hcomponents, hbefore⟩ := List.find?_eq_some_iff_append.1 hfind
    exact ⟨c, ⟨before, after, hcomponents, by simpa using hexceeds, by simpa using hbefore⟩, rfl⟩
  · rintro ⟨c, ⟨before, after, hcomponents, hexceeds, hbefore⟩, rfl⟩
    refine ⟨c, List.find?_eq_some_iff_append.2 ?_, rfl⟩
    exact ⟨by simpa using hexceeds, before, after, hcomponents, by simpa using hbefore⟩

end Workspace

namespace Arm

variable (arm : Arm) (target : Pose) (path : Path) (parameters : Dynamics)

theorem moveToPose_error_iff {cause : Refusal} :
    (arm.moveToPose target parameters).2 = .error cause ↔
      arm.config.workspace.violation? target = some cause := by
  cases hv : arm.config.workspace.violation? target with
  | none =>
    rw [moveToPose_accepted hv]
    exact iff_of_false nofun nofun
  | some fault =>
    rw [moveToPose_refused hv, Except.error.injEq, Option.some.injEq]

/-- A target is accepted as long as none of its components exceeds a limit, and otherwise refused
for the first one that does. So the targets that keep all limits are those that are accepted and can
be compared with the limits. -/
theorem moveToPose_checked :
    let outcome := Drive.moveToPose arm target path parameters
    let components := arm.config.workspace.components target
    (outcome.2 = .ok () ↔ ∀ c ∈ components, ¬ c.Exceeds) ∧
      (∀ cause, outcome.2 = .error cause ↔
        ∃ c, Workspace.FirstExceeding components c ∧ cause = c.refusal) ∧
      ((∀ c ∈ components, c.Within) ↔
        outcome.2 = .ok () ∧ ∀ c ∈ components, c.Comparable) := by
  intro outcome components
  have hok : outcome.2 = .ok () ↔ ∀ c ∈ components, ¬ c.Exceeds :=
    moveToPose_ok_iff.trans Workspace.violation?_eq_none_iff
  refine ⟨hok, fun cause => ?_, ?_⟩
  · exact (moveToPose_error_iff arm target parameters).trans Workspace.violation?_eq_some_iff
  · rw [hok, ← forall₂_and]
    exact forall₂_congr fun c _ => c.within_iff

/-- A component that is no number keeps no limit, and still it is accepted and becomes part of the
pose. -/
theorem moveToPose_undefined :
    let target : Pose := { x := 0.0 / 0.0 }
    let outcome := Drive.moveToPose ({} : Arm) target .lin {}
    (¬ ∀ c ∈ ({} : Workspace).components target, c.Within) ∧
      outcome.2 = .ok () ∧ outcome.1.pose.x.isNaN := by
  decide

end Arm

end ArmLang
