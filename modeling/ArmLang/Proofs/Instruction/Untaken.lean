import ArmLang.Proofs.Flattening
import ArmLang.Proofs.Program.Context

namespace ArmLang

open Statement

namespace Shell

/-- What is remembered where the body is entered, if it is. -/
def enter? : Shell → Memory → Option Memory
  | block _, m | routine _ _ _, m => some m
  | thenBranch condition _ _ _, m =>
    let test := evaluateCondition condition m
    if test.value then some test.state else none
  | elseBranch condition _ _ _, m =>
    let test := evaluateCondition condition m
    if test.value then none else some test.state

end Shell

/-- What is remembered where the gap is reached when a body is flattened, if it is. -/
def Context.reach? : Context → Memory → Option Memory
  | here before _, m => some (flattenAll before m).state
  | within before shell inner _, m => (shell.enter? (flattenAll before m).state).bind inner.reach?

/-- However they are filled in, the steps `whole` come from `m` to `m'` in the same way, go on with
`part` and end in the same way. -/
def Reaches (whole part : ι → Step Memory Unit) (m m' : Memory) : Prop :=
  ∃ before after : Step Memory Unit, (before m).state = m' ∧
    ∀ i, whole i m = (before >>= fun _ => part i >>= fun _ => after) m

namespace Reaches

variable {ι κ : Type} {whole part : ι → Step Memory Unit} {m m' m'' : Memory}

theorem comp (h : Reaches whole part m m') (f : κ → ι) :
    Reaches (whole ∘ f) (part ∘ f) m m' := by
  obtain ⟨before, after, hm, heq⟩ := h
  exact ⟨before, after, hm, fun k => heq (f k)⟩

theorem trans {piece : ι → Step Memory Unit} (h : Reaches whole part m m')
    (h' : Reaches part piece m' m'') : Reaches whole piece m m'' := by
  obtain ⟨before, after, rfl, heq⟩ := h
  obtain ⟨before', after', rfl, heq'⟩ := h'
  refine ⟨before >>= fun _ => before', after' >>= fun _ => after, rfl, fun i => ?_⟩
  simp only [heq i, Step.bind_apply, heq' i, List.append_assoc]

/-- The whole is as it is by its part. -/
theorem congr (h : Reaches whole part m m') {i j : ι} (hpart : part i m' = part j m') :
    whole i m = whole j m := by
  obtain ⟨before, after, rfl, heq⟩ := h
  rw [heq i, heq j, Step.bind_apply, Step.bind_apply _ _ m, Step.bind_apply, hpart]
  rfl

theorem code_infix (h : Reaches whole part m m') (i : ι) :
    (part i m').code <:+: (whole i m).code := by
  obtain ⟨before, after, rfl, heq⟩ := h
  rw [heq i]
  exact ⟨(before m).code, (after (part i (before m).state).state).code, List.append_assoc ..⟩

theorem code_eq (h : Reaches whole part m m') {i j : ι} (hwhole : whole i m = whole j m)
    (hstate : (part i m').state = (part j m').state) : (part i m').code = (part j m').code := by
  obtain ⟨before, after, rfl, heq⟩ := h
  have hcode := congrArg Effect.code ((heq i).symm.trans (hwhole.trans (heq j)))
  simp only [Step.code_bind, hstate] at hcode
  exact List.append_cancel_right (List.append_cancel_left hcode)

end Reaches

theorem reaches_body (before after : List Statement) (m : Memory) :
    Reaches (fun s => flattenAll (before ++ s :: after)) flatten m (flattenAll before m).state := by
  refine ⟨flattenAll before, flattenAll after, rfl, fun s => ?_⟩
  have h : flattenAll (before ++ s :: after) =
      flattenAll before >>= fun _ => flatten s >>= fun _ => flattenAll after := by
    rw [flattenAll_append, flattenAll]
  exact congrFun h m

namespace Statement

variable {condition : Expr} {m : Memory}

/-- With a condition that holds it makes no difference what the other branch is. -/
theorem flatten_conditional_true (h : (evaluateCondition condition m).value = true)
    (first : Branch) (other : Option Branch) (l : Location) :
    flatten (conditional condition first other l) m =
      let test := evaluateCondition condition m
      let branch := flattenAll first.body test.state
      ⟨(), branch.state, test.code ++ ifStart true l :: ⟨"THEN_BLOCK", [], first.start⟩ ::
        (branch.code ++ [ifEnd l]), test.issues ++ branch.issues⟩ := by
  rw [← holds_eq_value] at h
  cases other with
  | none => rw [conditional, flatten_ifThen, h]; rfl
  | some b => rw [conditional, flatten_ifElse, h]; rfl

theorem flatten_conditional_false (h : (evaluateCondition condition m).value = false)
    (first b : Branch) (l : Location) :
    flatten (conditional condition first (some b) l) m =
      let test := evaluateCondition condition m
      let branch := flattenAll b.body test.state
      ⟨(), branch.state, test.code ++ ifStart false l :: ⟨"ELSE_BLOCK", [], b.start⟩ ::
        (branch.code ++ [ifEnd l]), test.issues ++ branch.issues⟩ := by
  rw [← holds_eq_value] at h
  rw [conditional, flatten_ifElse, h]
  rfl

theorem flatten_conditional_none (h : (evaluateCondition condition m).value = false)
    (first : Branch) (l : Location) :
    flatten (conditional condition first none l) m =
      let test := evaluateCondition condition m
      ⟨(), test.state, test.code ++ [ifStart false l, ifEnd l], test.issues⟩ := by
  rw [← holds_eq_value] at h
  rw [conditional, flatten_ifThen, h]
  rfl

theorem flatten_conditional_first (h : (evaluateCondition condition m).value = false)
    (first first' : Branch) (other : Option Branch) (l : Location) :
    flatten (conditional condition first other l) m =
      flatten (conditional condition first' other l) m := by
  cases other with
  | none => rw [flatten_conditional_none h, flatten_conditional_none h]
  | some b => rw [flatten_conditional_false h, flatten_conditional_false h]

end Statement

namespace Shell

theorem reaches_of_enter? {shell : Shell} {m m' : Memory} (h : shell.enter? m = some m') :
    Reaches (fun ss => flatten (shell.wrap ss)) flattenAll m m' := by
  cases shell with
  | block | routine =>
    cases h
    refine ⟨pure (), pure (), rfl, fun ss => ?_⟩
    simp only [wrap, flatten, Step.bind_apply, Step.pure_apply, List.nil_append, List.append_nil]
  | thenBranch condition start other l =>
    obtain ⟨htest, hm⟩ := Option.ite_none_right_eq_some.1 h
    cases hm
    refine ⟨evaluateCondition condition >>= fun _ =>
      Step.emit (ifStart true l) >>= fun _ => Step.emit ⟨"THEN_BLOCK", [], start⟩,
      Step.emit (ifEnd l), rfl, fun ss => ?_⟩
    simp only [wrap, flatten_conditional_true htest, Step.bind_apply, Step.emit]
    simp
  | elseBranch condition first start l =>
    obtain ⟨htest, hm⟩ := Option.ite_none_left_eq_some.1 h
    cases hm
    refine ⟨evaluateCondition condition >>= fun _ =>
      Step.emit (ifStart false l) >>= fun _ => Step.emit ⟨"ELSE_BLOCK", [], start⟩,
      Step.emit (ifEnd l), rfl, fun ss => ?_⟩
    simp only [wrap, flatten_conditional_false (Bool.eq_false_iff.2 htest),
      Step.bind_apply, Step.emit]
    simp

theorem flatten_of_enter?_eq_none {shell : Shell} {m : Memory} (h : shell.enter? m = none)
    (ss ss' : List Statement) : flatten (shell.wrap ss) m = flatten (shell.wrap ss') m := by
  cases shell with
  | block | routine => cases h
  | thenBranch condition start other l =>
    have htest : (evaluateCondition condition m).value = false := by simpa [enter?] using h
    exact flatten_conditional_first htest ⟨start, ss⟩ ⟨start, ss'⟩ other l
  | elseBranch condition first start l =>
    have htest : (evaluateCondition condition m).value = true := by simpa [enter?] using h
    rw [wrap, wrap, flatten_conditional_true htest, flatten_conditional_true htest]

end Shell

namespace Context

theorem reaches_of_reach? {C : Context} {m m' : Memory} (h : C.reach? m = some m') :
    Reaches (fun s => flattenAll (C.fill s)) flatten m m' := by
  induction C generalizing m with
  | here before after =>
    cases h
    exact reaches_body before after m
  | within before shell inner after ih =>
    obtain ⟨entered, henter, hinner⟩ := Option.bind_eq_some_iff.1 h
    have hbody := (reaches_body before after m).comp fun s => shell.wrap (inner.fill s)
    have hshell := (Shell.reaches_of_enter? henter).comp inner.fill
    exact (hbody.trans hshell).trans (ih hinner)

theorem flattenAll_fill_of_reach?_eq_none {C : Context} {m : Memory} (h : C.reach? m = none)
    (s s' : Statement) : flattenAll (C.fill s) m = flattenAll (C.fill s') m := by
  induction C generalizing m with
  | here => cases h
  | within before shell inner after ih =>
    apply ((reaches_body before after m).comp fun s => shell.wrap (inner.fill s)).congr
    cases henter : shell.enter? (flattenAll before m).state with
    | none => exact Shell.flatten_of_enter?_eq_none henter _ _
    | some entered =>
      rw [reach?, henter] at h
      exact ((Shell.reaches_of_enter? henter).comp inner.fill).congr (ih h)

/-- What is reached makes a difference, as it does whether there is a wait or nothing. -/
theorem flattenAll_fill_ne_of_reach? {C : Context} {m m' : Memory} (h : C.reach? m = some m') :
    flattenAll (C.fill (wait 0.0 .unknown)) m ≠ flattenAll (C.fill (block .unknown [])) m := by
  intro he
  have hcode : (flatten (wait 0.0 .unknown) m').code = (flatten (block .unknown []) m').code :=
    (reaches_of_reach? h).code_eq he rfl
  rw [flatten, flatten] at hcode
  cases hcode

end Context

namespace Program

/-- What flattening leaves out of a program makes no difference to it. A statement stands in a gap of
the program, and it is reached unless nothing depends on what stands there; if it is a conditional
and is reached, nothing depends on the branch that it does not take. -/
theorem flatten_replaced (p : Program) (s : Statement) :
    (s ∈ p.nodes ↔ ∃ C : Context, C.fill s = p.body) ∧
      ∀ C : Context, C.fill s = p.body →
        let replaced (s' : Statement) := ({ p with body := C.fill s' } : Program).flatten
        (C.reach? {} = none ↔ ∀ s', replaced s' = p.flatten) ∧
          ∀ m, C.reach? {} = some m →
            (Statement.flatten s m).code <:+: p.flatten.code ∧
              ∀ condition first other l, s = conditional condition first other l →
                if (evaluateCondition condition m).value then
                  ∀ other', replaced (conditional condition first other' l) = p.flatten
                else ∀ first', replaced (conditional condition first' other l) = p.flatten := by
  refine ⟨mem_nodesAll_iff, fun C hs => ?_⟩
  intro replaced
  have hp : p.flatten = replaced s := by
    unfold replaced
    rw [hs]
  refine ⟨⟨?_, ?_⟩, ?_⟩
  · intro h s'
    rw [hp]
    exact Context.flattenAll_fill_of_reach?_eq_none h s' s
  · intro hsame
    cases h : C.reach? {} with
    | none => rfl
    | some m =>
      have he := (hsame (wait 0.0 .unknown)).trans (hsame (block .unknown [])).symm
      exact absurd he (Context.flattenAll_fill_ne_of_reach? h)
  · intro m h
    have hreaches := Context.reaches_of_reach? h
    rw [hp]
    refine ⟨hreaches.code_infix s, ?_⟩
    rintro condition first other l rfl
    split
    · next htest =>
      intro other'
      apply hreaches.congr
      rw [flatten_conditional_true htest, flatten_conditional_true htest]
    · next htest =>
      intro first'
      apply hreaches.congr
      exact flatten_conditional_first (Bool.eq_false_iff.2 htest) first' first other l

/-- A gap in a routine behind the declaration of a variable that is not zero. -/
def routineGap : Context :=
  .within [.declare .int "x" (some (.literal (.int 1) .unknown)) .unknown]
    (.routine "r" .unknown .unknown) (.here [] [.wait 3.0 .unknown]) []

/-- What the variable is put to in the gap. -/
def routineChoice (other : Option Branch) : Statement :=
  conditional (.var "x" .unknown) ⟨.unknown, [.wait 1.0 .unknown]⟩ other .unknown

theorem flatten_replaced_routine :
    let other : Branch := ⟨.unknown, [.wait 2.0 .unknown]⟩
    let p : Program := ⟨.unknown, routineGap.fill (routineChoice (some other))⟩
    let m : Memory := ⟨Store.empty.declare "x" .int (.int 1), .int 1⟩
    routineGap.reach? {} = some m ∧ (evaluateCondition (.var "x" .unknown) m).value ∧
      ({ p with body := routineGap.fill (routineChoice none) } : Program).flatten = p.flatten := by
  intro other p m
  have hm : routineGap.reach? {} = some m := by decide +kernel
  have htest : (evaluateCondition (.var "x" .unknown) m).value := by decide +kernel
  have hreplaced := (((flatten_replaced p (routineChoice (some other))).2 routineGap rfl).2 m hm).2
    (.var "x" .unknown) ⟨.unknown, [.wait 1.0 .unknown]⟩ (some other) .unknown rfl
  rw [if_pos htest] at hreplaced
  exact ⟨hm, htest, hreplaced none⟩

end Program

end ArmLang
