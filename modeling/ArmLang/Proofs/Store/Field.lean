import ArmLang.Proofs.Instruction.Report
import ArmLang.Proofs.Store.Replay

namespace ArmLang

def overwrite (field : String) (x : Float) (f : String × Float) : String × Float :=
  if f.1 = field then (f.1, x) else f

theorem Pose.fields_set? {p q : Pose} {field : String} {x : Float}
    (h : p.set? field x = some q) : q.fields = p.fields.map (overwrite field x) := by
  unfold set? at h
  split at h <;> cases h <;> rfl

theorem Joints.fields_set? {j k : Joints} {field : String} {x : Float}
    (h : j.set? field x = some k) : k.fields = j.fields.map (overwrite field x) := by
  unfold set? at h
  split at h <;> cases h <;> rfl

namespace Value

def fields : Value → List (String × Float)
  | pos p | frame p => p.fields
  | axis j => j.fields
  | _ => []

theorem map_fst_fields (v : Value) : v.fields.map (·.1) = v.dataType.fieldNames := by
  cases v <;> rfl

theorem fields_setField? {v w : Value} {field : String} {x : Float}
    (h : v.setField? field x = some w) : w.fields = v.fields.map (overwrite field x) := by
  cases v with
  | pos p | frame p =>
    obtain ⟨q, hq, rfl⟩ := Option.map_eq_some_iff.1 h
    exact Pose.fields_set? hq
  | axis j =>
    obtain ⟨k, hk, rfl⟩ := Option.map_eq_some_iff.1 h
    exact Joints.fields_set? hk
  | int | real | bool | char => cases h

end Value

namespace Store

/-- The one store is the other but for one field of one variable, which has the new number. -/
structure FieldSet (s : Store) (name : String) (type : DataType) (field : String) (x : Float)
    (t : Store) : Prop where
  target : ∃ v w, s.value? name = some v ∧ t.value? name = some w ∧ v.dataType = type ∧
    w.dataType = type ∧ v.fields.map (·.1) = type.fieldNames ∧
    w.fields = v.fields.map (overwrite field x)
  others : ∀ other, other ≠ name → t.find? other = s.find? other
  types : ∀ other, t.dataType? other = s.dataType? other

variable {s : Store} {name field : String} {type : DataType}

theorem Consistent.exists_value {s : Store} (hs : s.Consistent)
    (h : s.dataType? name = some type) : ∃ v, s.value? name = some v ∧ v.dataType = type := by
  rw [hs.dataType?_eq] at h
  exact Option.map_eq_some_iff.1 h

/-- A field of the declared type can be set, and nothing else changes then. -/
theorem Consistent.setField?_of_mem (hs : s.Consistent) (h : s.dataType? name = some type)
    (hfield : field ∈ type.fieldNames) (x : Float) :
    ∃ t, s.setField? name field x = some t ∧ s.FieldSet name type field x t := by
  obtain ⟨v, hv, rfl⟩ := hs.exists_value h
  obtain ⟨w, hw⟩ := Option.isSome_iff_exists.1 ((v.isSome_setField? field x).2 hfield)
  refine ⟨s.replace name w, ?_, ?_, ?_, ?_⟩
  · rw [Store.setField?, hv, Option.bind_some, hw]
  · exact ⟨v, w, hv, value?_replace h w, rfl, Value.dataType_setField? hw, v.map_fst_fields,
      Value.fields_setField? hw⟩
  · intro other hne
    rw [find?_replace, if_neg hne.symm]
  · exact fun other => s.dataType?_replace name other w

theorem Consistent.setField?_of_not_mem (hs : s.Consistent) (h : s.dataType? name = some type)
    (hfield : field ∉ type.fieldNames) (x : Float) : s.setField? name field x = none := by
  obtain ⟨v, hv, rfl⟩ := hs.exists_value h
  have hw : v.setField? field x = none := by
    rw [← Option.not_isSome_iff_eq_none, v.isSome_setField?]
    exact hfield
  rw [Store.setField?, hv, Option.bind_some, hw]

end Store

theorem Expr.number_of_some {v : Value} {x : Float} (h : v.number? = some x) (l : Location)
    (s : σ) : number v l s = ⟨some x, s, [], []⟩ := by
  rw [number, h]
  rfl

theorem Expr.number_of_none {v : Value} (h : v.number? = none) (l : Location) (s : σ) :
    number v l s = ⟨none, s, [], [⟨.notNumeric v.dataType, l⟩]⟩ := by
  rw [number, h]
  rfl

namespace Statement

variable {m : Memory} {target field : String} {value : Expr} {type : DataType} {x : Float}

theorem flattenSetField_undeclared (h : m.store.dataType? target = none) (field : String)
    (value : Expr) (l : Location) :
    flattenSetField target field value l m = ⟨(), m, [], [⟨.undefinedVariable target, l⟩]⟩ := by
  rw [flattenSetField, Step.get_bind, h]
  rfl

theorem flattenSetField_no_fields (h : m.store.dataType? target = some type)
    (ht : type.isStructured = false) (field : String) (value : Expr) (l : Location) :
    flattenSetField target field value l m = ⟨(), m, [], [⟨.noFields field target type, l⟩]⟩ := by
  rw [flattenSetField, Step.get_bind, h]
  dsimp only
  rw [ht]
  rfl

def storeField (target field : String) (type : DataType) (l : Location) :
    Option Float → Step Memory Unit
  | none => pure ()
  | some x => do
    let m ← Step.get
    match m.store.setField? target field x with
    | some s => Step.put { m with store := s }
    | none => Step.note (.noSuchField field type) l

theorem storeField_some {t : Store} (h : m.store.setField? target field x = some t)
    (type : DataType) (l : Location) :
    storeField target field type l (some x) m = ⟨(), { m with store := t }, [], []⟩ := by
  rw [storeField, Step.get_bind, h]
  rfl

theorem storeField_none (h : m.store.setField? target field x = none) (type : DataType)
    (l : Location) :
    storeField target field type l (some x) m =
      ⟨(), m, [], [⟨.noSuchField field type, l⟩]⟩ := by
  rw [storeField, Step.get_bind, h]
  rfl

theorem flattenSetField_structured (h : m.store.dataType? target = some type)
    (ht : type.isStructured = true) (field : String) (value : Expr) (l : Location) :
    flattenSetField target field value l m =
      (value.remember >>= fun v => Expr.number v value.location >>=
        storeField target field type l) m := by
  rw [flattenSetField, Step.get_bind, h]
  dsimp only
  rw [ht]
  rfl

theorem flattenSetField_no_number (h : m.store.dataType? target = some type)
    (ht : type.isStructured = true) (hx : (value.remember m).value.number? = none)
    (field : String) (l : Location) :
    let e := value.remember m
    flattenSetField target field value l m =
      ⟨(), e.state, e.code, e.issues ++ [⟨.notNumeric e.value.dataType, value.location⟩]⟩ := by
  intro e
  rw [flattenSetField_structured h ht, Step.bind_apply, Step.bind_apply, Expr.number_of_none hx]
  exact congrArg (Effect.mk _ _ · _) (List.append_nil _)

theorem flattenSetField_stored {t : Store} (h : m.store.dataType? target = some type)
    (ht : type.isStructured = true) (hx : (value.remember m).value.number? = some x)
    (hs : (value.remember m).state.store.setField? target field x = some t) (l : Location) :
    let e := value.remember m
    flattenSetField target field value l m =
      ⟨(), { e.state with store := t }, e.code, e.issues⟩ := by
  intro e
  rw [flattenSetField_structured h ht, Step.bind_apply, Step.bind_apply, Expr.number_of_some hx,
    storeField_some hs]
  exact congrArg₂ (Effect.mk _ _) (List.append_nil _) (List.append_nil _)

theorem flattenSetField_refused (h : m.store.dataType? target = some type)
    (ht : type.isStructured = true) (hx : (value.remember m).value.number? = some x)
    (hs : (value.remember m).state.store.setField? target field x = none) (l : Location) :
    let e := value.remember m
    flattenSetField target field value l m =
      ⟨(), e.state, e.code, e.issues ++ [⟨.noSuchField field type, l⟩]⟩ := by
  intro e
  rw [flattenSetField_structured h ht, Step.bind_apply, Step.bind_apply, Expr.number_of_some hx,
    storeField_none hs]
  exact congrArg (Effect.mk _ _ · _) (List.append_nil _)

end Statement

/-- An assignment to a field of a variable that has no fields does nothing but report that. Else its
right side is evaluated, and then the one component is set if there is such a field and a number for
it; if not, there is one more problem, and what the right side left is left as it is. -/
theorem Statement.setField_sets_one (before : List Store.Operation) (last : Value)
    (target field : String) (value : Expr) (l : Location) :
    let m : Memory := ⟨Store.empty.performAll before, last⟩
    let r := (setField target field value l).flatten m
    let e := value.remember m
    (m.store.dataType? target = none → r = ⟨(), m, [], [⟨.undefinedVariable target, l⟩]⟩) ∧
      ∀ type, m.store.dataType? target = some type →
        (type.isStructured = false → r = ⟨(), m, [], [⟨.noFields field target type, l⟩]⟩) ∧
        (type.isStructured = true →
          (e.value.number? = none →
            r = ⟨(), e.state, e.code,
              e.issues ++ [⟨.notNumeric e.value.dataType, value.location⟩]⟩) ∧
          ∀ x, e.value.number? = some x →
            (field ∉ type.fieldNames →
              r = ⟨(), e.state, e.code, e.issues ++ [⟨.noSuchField field type, l⟩]⟩) ∧
            (field ∈ type.fieldNames →
              ∃ t, e.state.store.FieldSet target type field x t ∧
                r = ⟨(), { e.state with store := t }, e.code, e.issues⟩)) := by
  intro m r e
  have hm : m.store.Consistent := Store.consistent_empty.performAll before
  have he : e.state.store.Consistent := Expr.consistent_evaluate hm value
  refine ⟨fun h => flattenSetField_undeclared h field value l, fun type h => ⟨?_, ?_⟩⟩
  · exact fun ht => flattenSetField_no_fields h ht field value l
  · intro ht
    have htype : e.state.store.dataType? target = some type :=
      (value.dataType?_evaluate m.store target).trans h
    refine ⟨fun hx => flattenSetField_no_number h ht hx field l, fun x hx => ⟨?_, ?_⟩⟩
    · intro hfield
      exact flattenSetField_refused h ht hx (he.setField?_of_not_mem htype hfield x) l
    · intro hfield
      obtain ⟨t, hset, hchange⟩ := he.setField?_of_mem htype hfield x
      exact ⟨t, hchange, flattenSetField_stored h ht hx hset l⟩

/-- The number comes of an assignment, which cuts it: `p.x = n = 7.9`. -/
theorem Statement.setField_sets_one_cut :
    let before : List Store.Operation :=
      [.declare "p" .pos (.pos .zero), .declare "n" .int (.int 0)]
    let m : Memory := ⟨Store.empty.performAll before, .real 0.0⟩
    let value := Expr.assign (.var "n" ⟨1, 7⟩) (.literal (.real 7.9) ⟨1, 11⟩) ⟨1, 7⟩
    let e := value.remember m
    e.value.number? = some 7.0 ∧ ∃ t, e.state.store.FieldSet "p" .pos "x" 7.0 t ∧
      (setField "p" "x" value ⟨1, 1⟩).flatten m =
        ⟨(), ⟨t, .int 7⟩, [Expr.assignment "n" (.int 7) ⟨1, 7⟩], []⟩ := by
  intro before m value e
  have hnumber : e.value.number? = some 7.0 := by decide +kernel
  obtain ⟨-, htype⟩ := setField_sets_one before (.real 0.0) "p" "x" value ⟨1, 1⟩
  obtain ⟨-, hset⟩ := (htype .pos (by decide)).2 rfl
  obtain ⟨t, ht, hr⟩ := (hset 7.0 hnumber).2 (by decide)
  exact ⟨hnumber, t, ht, hr⟩

end ArmLang
