import ArmLang.Store

namespace ArmLang.Store

/-- What can be done to a store. An assignment or a field update that does not fit changes
nothing. -/
inductive Operation
  | clear
  | declare (name : String) (type : DataType) (v : Value)
  | assign (name : String) (v : Value)
  | setField (name field : String) (x : Float)

def perform (s : Store) : Operation → Store
  | .clear => .empty
  | .declare name type v => s.declare name type v
  | .assign name v => (s.assign? name v).getD s
  | .setField name field x => (s.setField? name field x).getD s

def performAll (s : Store) (ops : List Operation) : Store := ops.foldl perform s

@[simp] theorem performAll_cons (s : Store) (op : Operation) (ops : List Operation) :
    s.performAll (op :: ops) = (s.perform op).performAll ops := rfl

@[simp] theorem performAll_append (s : Store) (ops ops' : List Operation) :
    s.performAll (ops ++ ops') = (s.performAll ops).performAll ops' :=
  List.foldl_append ..

/-- Every variable holds a value of its declared type. Names have to be distinct for that to last:
an assignment looks at the first variable of a name and replaces all of them. -/
structure Consistent (s : Store) : Prop where
  distinct : (s.symbols.map (·.name)).Nodup
  typed : ∀ x ∈ s.symbols, x.value.dataType = x.dataType

theorem mem_of_find? {s : Store} {name : String} {x : Symbol} (h : s.find? name = some x) :
    x ∈ s.symbols ∧ x.name = name := by
  refine ⟨List.mem_of_find?_eq_some h, ?_⟩
  simpa using List.find?_some h

theorem Consistent.find?_eq {s : Store} (h : s.Consistent) {x : Symbol} (hx : x ∈ s.symbols) :
    s.find? x.name = some x := by
  obtain ⟨l⟩ := s
  have hd : (l.map (·.name)).Nodup := h.distinct
  clear h
  change x ∈ l at hx
  change l.find? _ = _
  induction l with
  | nil => cases hx
  | cons y l ih =>
    rw [List.map_cons, List.nodup_cons] at hd
    rcases List.mem_cons.1 hx with rfl | hx
    · simp
    · have hne : y.name ≠ x.name := fun he => hd.1 (he ▸ List.mem_map_of_mem hx)
      rw [List.find?_cons_of_neg (by simpa using hne)]
      exact ih hd.2 hx

theorem Consistent.dataType?_eq {s : Store} (h : s.Consistent) (name : String) :
    s.dataType? name = (s.value? name).map Value.dataType := by
  unfold dataType? value?
  cases hx : s.find? name with
  | none => rfl
  | some x => simp [h.typed x (mem_of_find? hx).1]

theorem consistent_empty : Store.empty.Consistent := by
  constructor
  · exact List.nodup_nil
  · intro x hx
    cases hx

theorem Consistent.declare {s : Store} (h : s.Consistent) (name : String) (type : DataType)
    (v : Value) : (s.declare name type v).Consistent := by
  constructor
  · rw [Store.declare, List.map_cons, List.nodup_cons]
    constructor
    · simp
    · exact h.distinct.sublist (List.filter_sublist.map _)
  · intro x hx
    rcases List.mem_cons.1 hx with rfl | hx
    · dsimp only
      split
      · assumption
      · exact Value.dataType_zero type
    · exact h.typed x (List.mem_filter.1 hx).1

theorem Consistent.replace {s : Store} (h : s.Consistent) {name : String} {x : Symbol} {v : Value}
    (hx : s.find? name = some x) (hv : v.dataType = x.dataType) :
    (s.replace name v).Consistent := by
  have hmap : (s.replace name v).symbols.map (·.name) = s.symbols.map (·.name) := by
    rw [Store.replace, List.map_map]
    apply List.map_congr_left
    intro y _
    dsimp only [Function.comp]
    split <;> rfl
  constructor
  · rw [hmap]
    exact h.distinct
  · intro y hy
    obtain ⟨z, hz, rfl⟩ := List.mem_map.1 hy
    split
    · next hn =>
      have he : x = z := by
        have hf := h.find?_eq hz
        rw [hn, hx] at hf
        exact Option.some.inj hf
      rw [← he]
      exact hv
    · exact h.typed z hz

theorem Consistent.assign? {s s' : Store} (h : s.Consistent) {name : String} {v : Value}
    (hs : s.assign? name v = some s') : s'.Consistent := by
  unfold Store.assign? at hs
  split at hs
  · next x hx =>
    split at hs
    · next ht =>
      cases hs
      exact h.replace hx ht.symm
    · cases hs
  · cases hs

theorem Consistent.setField? {s s' : Store} (h : s.Consistent) {name field : String} {x : Float}
    (hs : s.setField? name field x = some s') : s'.Consistent := by
  unfold Store.setField? at hs
  split at hs
  · next w hw =>
    cases hs
    obtain ⟨v, hv, hvw⟩ := Option.bind_eq_some_iff.1 hw
    obtain ⟨y, hy, rfl⟩ := Option.map_eq_some_iff.1 hv
    have ht : w.dataType = y.dataType := by
      rw [Value.dataType_setField? hvw, h.typed y (mem_of_find? hy).1]
    exact h.replace hy ht
  · cases hs

theorem Consistent.getD {s : Store} (h : s.Consistent) {o : Option Store}
    (ho : ∀ s', o = some s' → s'.Consistent) : (o.getD s).Consistent := by
  cases o with
  | none => exact h
  | some s' => exact ho s' rfl

/-- No operation, whatever its arguments, leaves a value of another type than the declared one. -/
theorem Consistent.perform {s : Store} (h : s.Consistent) (op : Operation) :
    (s.perform op).Consistent := by
  cases op with
  | clear => exact consistent_empty
  | declare name type v => exact h.declare name type v
  | assign name v => exact h.getD fun _ hs => h.assign? hs
  | setField name field x => exact h.getD fun _ hs => h.setField? hs

theorem Consistent.performAll {s : Store} (h : s.Consistent) (ops : List Operation) :
    (s.performAll ops).Consistent := by
  induction ops generalizing s with
  | nil => exact h
  | cons op ops ih => exact ih (h.perform op)

end ArmLang.Store
