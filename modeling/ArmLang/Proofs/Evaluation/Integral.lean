import ArmLang.Proofs.Store.Replay

namespace ArmLang

def Value.whole : Value → Int
  | int n => n.toInt
  | _ => 0

namespace Expr

/-- Made of integers, of variables declared as such, of negations and of assignments to such
variables. -/
inductive Integral (s : Store) : Expr → Prop
  | literal : Integral s (literal (.int n) l)
  | var : s.dataType? name = some .int → Integral s (var name l)
  | negate : Integral s e → Integral s (unary .negate e l)
  | assign : s.dataType? name = some .int → Integral s e →
      Integral s (assign (.var name place) e l)

def whole (s : Store) : Expr → Int
  | literal v _ => v.whole
  | var name _ => (s.value? name).elim 0 Value.whole
  | unary _ e _ => -e.whole s
  | binary _ _ _ _ => 0
  | assign _ e _ => e.whole s

def wrapped (s : Store) (e : Expr) : Value := .int (Int64.ofInt (e.whole s))

/-- The assignments in an integral expression from the inside out, each of the whole number on its
right. -/
def wrappedAssignments (s : Store) : Expr → List Instruction
  | unary _ e _ => e.wrappedAssignments s
  | assign (.var name place) e _ =>
    e.wrappedAssignments s ++ [assignment name (e.wrapped s) place]
  | _ => []

variable {s : Store} {e : Expr}

theorem wrapped_literal (n : Int64) (l : Location) :
    (literal (.int n) l).wrapped s = .int n :=
  congrArg Value.int n.ofInt_toInt

theorem wrapped_var (hs : s.Consistent) (h : s.dataType? name = some .int) (l : Location) :
    s.value? name = some ((var name l).wrapped s) := by
  rw [hs.dataType?_eq] at h
  obtain ⟨v, hv, ht⟩ := Option.map_eq_some_iff.1 h
  cases v with
  | int n => rw [wrapped, whole, hv, Option.elim_some, Value.whole, Int64.ofInt_toInt]
  | real | bool | char | pos | frame | axis => cases ht

theorem wrapped_negate (e : Expr) (l : Location) :
    (unary .negate e l).wrapped s = UnaryOp.negate.result (e.wrapped s) :=
  congrArg Value.int (Int64.ofInt_neg _)

/-- The value of an integral expression and those that its assignments store are its whole numbers
in 64 bits, and nothing is reported. -/
theorem evaluate_integral (hs : s.Consistent) (h : e.Integral s) :
    (e.evaluate s).value = e.wrapped s ∧ (e.evaluate s).code = e.wrappedAssignments s ∧
      (e.evaluate s).issues = [] := by
  induction h with
  | literal =>
    rw [wrapped_literal]
    exact ⟨rfl, rfl, rfl⟩
  | @var name l h =>
    rw [evaluate, Step.get_bind, wrapped_var hs h l]
    exact ⟨rfl, rfl, rfl⟩
  | @negate e l _ ih =>
    obtain ⟨hvalue, hcode, hissues⟩ := ih
    rw [evaluate, Step.bind_apply, hvalue, hcode, hissues, wrapped_negate]
    exact ⟨rfl, List.append_nil _, rfl⟩
  | assign h _ ih =>
    obtain ⟨hvalue, hcode, hissues⟩ := ih
    rw [evaluate_assign rfl h, Step.bind_apply, hvalue, hcode, hissues, assignValue_ok rfl]
    exact ⟨rfl, rfl, rfl⟩

theorem value?_assign_integral {name : String} (hs : s.Consistent) (h : e.Integral s)
    (hname : s.dataType? name = some .int) (place l : Location) :
    ((assign (.var name place) e l).evaluate s).state.value? name = some (e.wrapped s) := by
  have htype := (e.dataType?_evaluate s name).trans hname
  rw [evaluate_assign rfl hname, Step.state_bind, (evaluate_integral hs h).1,
    assignValue_ok (w := e.wrapped s) rfl]
  dsimp only
  rw [Store.assign?_of_dataType htype, Option.getD_some, Store.value?_replace htype]

end Expr

namespace Statement

theorem flatten_declare_integral {m : Memory} {e : Expr} (hs : m.store.Consistent)
    (h : e.Integral m.store) (name : String) (l : Location) :
    let v := e.wrapped m.store
    flatten (declare .int name (some e) l) m =
      ⟨(), ⟨(e.evaluate m.store).state.declare name .int v, v⟩, (e.evaluate m.store).code ++
        [⟨"DECL_" ++ name, [("type", .char "INT"), ("value", v)], l⟩], []⟩ := by
  intro v
  obtain ⟨hvalue, hcode, hissues⟩ := Expr.evaluate_integral hs h
  have hr : e.remember m =
      ⟨v, ⟨(e.evaluate m.store).state, v⟩, (e.evaluate m.store).code, []⟩ := by
    rw [Expr.remember, hvalue, hissues]
  have hv : initialValue .int name (some e) m = e.remember m := by
    rw [initialValue, Step.bind_apply, hr]
    exact congrArg (Effect.mk _ _ · _) (List.append_nil _)
  rw [flatten, Step.bind_apply, hv, hr]
  rfl

end Statement

/-- Integers are kept as they are, however large: an expression of integer literals, integer
variables, negations and assignments has the whole number it stands for as its value, in two's
complement where 64 bits do not hold it, and an integer variable that is assigned such an expression
or declared with it stores and emits that number. -/
theorem integral_exact (before : List Store.Operation) {e : Expr}
    (h : e.Integral (Store.empty.performAll before)) :
    let s := Store.empty.performAll before
    let v := Value.int (Int64.ofInt (e.whole s))
    let writes := e.wrappedAssignments s
    e.evaluate s = ⟨v, s.performAll (writes.filterMap (·.operation?)), writes, []⟩ ∧
      (∀ name place l, s.dataType? name = some .int →
        let r := (Expr.assign (.var name place) e l).evaluate s
        r.value = v ∧ r.state.value? name = some v ∧ r.issues = [] ∧
          r.code = writes ++ [Expr.assignment name v place]) ∧
      ∀ m name l, m.store = s →
        let r := (Statement.declare .int name (some e) l).flatten m
        r.state.store.find? name = some ⟨name, .int, v⟩ ∧ r.issues = [] ∧
          r.code = writes ++ [⟨"DECL_" ++ name, [("type", .char "INT"), ("value", v)], l⟩] := by
  intro s v writes
  have hs : s.Consistent := Store.consistent_empty.performAll before
  obtain ⟨hvalue, hcode, hissues⟩ := Expr.evaluate_integral hs h
  refine ⟨?_, ?_, ?_⟩
  · have hstate := (e.replays_evaluate s).performAll
    rw [hcode] at hstate
    rw [hstate]
    exact congr (congrArg₂ (Effect.mk · (e.evaluate s).state) hvalue hcode) hissues
  · intro name place l hname r
    have hassign : (Expr.assign (.var name place) e l).Integral s := .assign hname h
    obtain ⟨hvalue, hcode, hissues⟩ := Expr.evaluate_integral hs hassign
    exact ⟨hvalue, Expr.value?_assign_integral hs h hname place l, hissues, hcode⟩
  · rintro ⟨_, last⟩ name l rfl r
    have hr := Statement.flatten_declare_integral (m := ⟨s, last⟩) hs h name l
    have hstore : r.state.store = (e.evaluate s).state.declare name .int v :=
      congrArg (·.state.store) hr
    have hwrites : (e.evaluate s).code = writes := hcode
    refine ⟨?_, congrArg Effect.issues hr, ?_⟩
    · rw [hstore, Store.find?_declare]
      exact if_pos rfl
    · rw [← hwrites]
      exact congrArg Effect.code hr

/-- The least integer has no negative in 64 bits: `m = -n` sets `m` to it again. -/
theorem integral_exact_negated_minimum :
    let before : List Store.Operation :=
      [.declare "n" .int (.int Int64.minValue), .declare "m" .int (.int 0)]
    let s := Store.empty.performAll before
    let e := Expr.assign (.var "m" ⟨1, 1⟩) (.unary .negate (.var "n" ⟨1, 6⟩) ⟨1, 5⟩) ⟨1, 1⟩
    e.Integral s ∧ e.whole s = 9223372036854775808 ∧
      (e.evaluate s).state.value? "m" = some (.int Int64.minValue) ∧
      (e.evaluate s).code = [Expr.assignment "m" (.int Int64.minValue) ⟨1, 1⟩] := by
  intro before s e
  have he : e.Integral s := .assign (by decide) (.negate (.var (by decide)))
  obtain ⟨heffect, -⟩ := integral_exact before he
  refine ⟨he, by decide, ?_, ?_⟩
  · rw [heffect]
    decide +kernel
  · rw [heffect]
    decide

end ArmLang
