import ArmLang.Value.Conversion

namespace ArmLang

namespace DataType

def isNumeric : DataType → Bool
  | int | real | bool => true
  | char | pos | frame | axis => false

def isPose : DataType → Bool
  | pos | frame => true
  | int | real | bool | char | axis => false

/-- Whether the values of one type have a form in another. -/
def hasForm (source target : DataType) : Bool :=
  match target with
  | int | real | bool => source.isNumeric
  | char => !source.isStructured
  | pos | frame => source.isPose
  | axis => source = axis

end DataType

namespace Value

variable {v w : Value} {t : DataType}

theorem isSome_number? (v : Value) : v.number?.isSome = v.dataType.isNumeric := by cases v <;> rfl

theorem isSome_pose? (v : Value) : v.pose?.isSome = v.dataType.isPose := by cases v <;> rfl

/-- Nothing but the type of a value decides whether it has a form in another type. -/
theorem isSome_convert? (v : Value) (t : DataType) :
    (v.convert? t).isSome = v.dataType.hasForm t := by
  cases t with
  | real | bool =>
    rw [DataType.hasForm, ← isSome_number?]
    exact Option.isSome_map
  | pos | frame =>
    rw [DataType.hasForm, ← isSome_pose?]
    exact Option.isSome_map
  | int | char | axis => cases v <;> rfl

theorem ofTruth_bne_zero (b : Bool) : (Number.ofTruth b != 0.0) = b := by cases b <;> decide

/-- A value is its own form in its own type. That of an integer is not the detour through a real,
which does not have room for all its digits. -/
theorem convert?_dataType (v : Value) : v.convert? v.dataType = some v := by
  cases v with
  | bool b => exact congrArg (some ∘ bool) (ofTruth_bne_zero b)
  | _ => rfl

theorem convert_eq_ok_iff : v.convert t = .ok w ↔ v.convert? t = some w := by
  unfold convert
  cases v.convert? t with
  | none => simp
  | some u => simp

theorem convert_of_dataType (h : v.dataType = t) : v.convert t = .ok v := by
  subst h
  exact convert_eq_ok_iff.2 (convert?_dataType v)

theorem convert_of_hasForm (h : v.dataType.hasForm t) : ∃ w, v.convert t = .ok w := by
  rw [← isSome_convert?] at h
  obtain ⟨w, hw⟩ := Option.isSome_iff_exists.1 h
  exact ⟨w, convert_eq_ok_iff.2 hw⟩

theorem convert_of_not_hasForm (h : ¬ v.dataType.hasForm t) :
    v.convert t = .error ⟨v.dataType, t⟩ := by
  rw [← isSome_convert?, Option.not_isSome_iff_eq_none] at h
  rw [convert, h]

/-- Conversion projects all values onto those of a type: what it gives has the type and stays as it
is when converted again, and just what has the type is left as it is. Whether there is a result
depends on the two types only. A position becomes the frame with the same components, and the other
way round. -/
theorem convert_projects (v : Value) (t : DataType) :
    (∀ w, v.convert t = .ok w → w.dataType = t ∧ w.convert t = .ok w) ∧
    (v.dataType = t ↔ v.convert t = .ok v) ∧
    (v.dataType.hasForm t → ∃ w, v.convert t = .ok w) ∧
    (¬ v.dataType.hasForm t → v.convert t = .error ⟨v.dataType, t⟩) ∧
    ∀ p : Pose, (pos p).convert .frame = .ok (frame p) ∧ (frame p).convert .pos = .ok (pos p) := by
  refine ⟨?_, ⟨convert_of_dataType, dataType_convert⟩, convert_of_hasForm, convert_of_not_hasForm,
    ?_⟩
  · intro w hw
    have htype := dataType_convert hw
    exact ⟨htype, convert_of_dataType htype⟩
  · intro p
    exact ⟨rfl, rfl⟩

/-- An integer that is no binary64 number, no number at all, and what these become. -/
theorem convert_projects_past_real :
    let n : Value := int 9007199254740993
    let x : Value := real (0.0 / 0.0)
    (n.dataType = .int ∧ n.convert .int = .ok n) ∧
      (x.dataType = .real ∧ x.convert .real = .ok x) ∧
      (n.convert .real = .ok (real 9007199254740992.0) ∧
        (real 9007199254740992.0).convert .real = .ok (real 9007199254740992.0)) ∧
      (¬ x.dataType.hasForm .axis ∧ x.convert .axis = .error ⟨.real, .axis⟩) := by
  intro n x
  have hn : n.convert .real = .ok (real 9007199254740992.0) :=
    convert_eq_ok_iff.2 (by decide +kernel)
  have haxis : ¬ x.dataType.hasForm .axis := by decide
  exact ⟨⟨rfl, (convert_projects n .int).2.1.1 rfl⟩, ⟨rfl, (convert_projects x .real).2.1.1 rfl⟩,
    ⟨hn, ((convert_projects n .real).1 _ hn).2⟩, haxis, (convert_projects x .axis).2.2.2.1 haxis⟩

end Value

end ArmLang
