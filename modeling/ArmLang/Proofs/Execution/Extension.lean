import ArmLang.Controller

namespace ArmLang.Controller

inductive Input
  | trigger (event : String)
  | convert (mode : Mode)

/-- What comes of an input: whether a transition fitted, which is asked of events only, the mode
that is reached, and the handlers that are called on the way, each with the notice it hears. -/
structure Response where
  answer : Option Bool
  mode : Mode
  called : List (Notice × String)
  deriving DecidableEq

def called (c : Controller) (notices : List Notice) : List (Notice × String) :=
  notices.filterMap fun n => (c.handler? n).map fun label => (n, label)

def perform (c : Controller) : Input → Controller × Response
  | .trigger event => match c.trigger? event with
    | some (after, notices) => (after, ⟨some true, after.mode, c.called notices⟩)
    | none => (c, ⟨some false, c.mode, []⟩)
  | .convert mode => match c.convert mode with
    | (after, notices) => (after, ⟨none, after.mode, c.called notices⟩)

def responses : Controller → List Input → List Response
  | _, [] => []
  | c, i :: is => (c.perform i).2 :: (c.perform i).1.responses is

def extend (c : Controller) (more : List Transition) : Controller := more.foldl addTransition c

/-- What an input has to come to. The first transition from the mode on an event decides; the
handlers called are those for leaving the old mode, for entering the new one and for its action. -/
inductive Answers (c : Controller) : Input → Response → Prop
  | matched {before after : List Transition} {t : Transition} :
    c.transitions = before ++ t :: after → t.source = c.mode →
    (∀ u ∈ before, u.source = c.mode → u.event ≠ t.event) →
    Answers c (.trigger t.event)
      ⟨some true, t.target, c.called [⟨.exit, c.mode⟩, ⟨.entry, t.target⟩, ⟨.action, t.target⟩]⟩
  | unmatched {event : String} : (∀ t ∈ c.transitions, t.source = c.mode → t.event ≠ event) →
    Answers c (.trigger event) ⟨some false, c.mode, []⟩
  | converted {mode : Mode} :
    Answers c (.convert mode)
      ⟨none, mode, c.called [⟨.exit, c.mode⟩, ⟨.entry, mode⟩, ⟨.action, mode⟩]⟩

/-- What a run has to come to: each input is answered in the mode that the one before led to. -/
inductive Answered : Controller → List Input → List Response → Prop
  | nil {c : Controller} : Answered c [] []
  | cons {c : Controller} {i : Input} {is : List Input} {r : Response} {rs : List Response} :
    Answers c i r → Answered { c with mode := r.mode } is rs → Answered c (i :: is) (r :: rs)

/-- Where an event is refused the mode stays the one before, and no handler is called. -/
def Steady : Mode → List Response → Prop
  | _, [] => True
  | mode, r :: rs => (r.answer = some false → r.mode = mode ∧ r.called = []) ∧ Steady r.mode rs

variable {c : Controller}

theorem answers_perform (c : Controller) (i : Input) : Answers c i (c.perform i).2 := by
  cases i with
  | convert mode => exact .converted
  | trigger event =>
    cases h : c.transitions.find? fun t => t.source = c.mode ∧ t.event = event with
    | none =>
      have hperform : c.perform (.trigger event) = (c, ⟨some false, c.mode, []⟩) := by
        simp only [perform, trigger?, target?, h, Option.map_none]
      rw [hperform]
      exact .unmatched (by simpa using h)
    | some t =>
      have hperform : (c.perform (.trigger event)).2 =
          ⟨some true, t.target, c.called (conversion c.mode t.target)⟩ := by
        simp only [perform, trigger?, target?, h, Option.map_some]
        rfl
      obtain ⟨hfits, before, after, htable, hbefore⟩ := List.find?_eq_some_iff_append.1 h
      obtain ⟨hsource, rfl⟩ := of_decide_eq_true hfits
      rw [hperform]
      refine .matched htable hsource fun u hu hu' he => ?_
      simpa [hu', he] using hbefore u hu

theorem perform_fst (c : Controller) (i : Input) :
    (c.perform i).1 = { c with mode := (c.perform i).2.mode } := by
  cases i with
  | convert mode => rfl
  | trigger event =>
    cases h : c.target? event with
    | none => simp only [perform, trigger?, h, Option.map_none]
    | some mode => simp only [perform, trigger?, h, Option.map_some]; rfl

theorem answered_responses (c : Controller) (is : List Input) : Answered c is (c.responses is) := by
  induction is generalizing c with
  | nil => exact .nil
  | cons i is ih =>
    refine .cons (answers_perform c i) ?_
    rw [← perform_fst]
    exact ih (c.perform i).1

theorem Answered.steady {is : List Input} {rs : List Response} (h : Answered c is rs) :
    Steady c.mode rs := by
  induction h with
  | nil => trivial
  | cons hr _ ih =>
    refine ⟨?_, ih⟩
    intro hanswer
    cases hr with
    | matched | converted => cases hanswer
    | unmatched => exact ⟨rfl, rfl⟩

theorem extend_eq (c : Controller) (more : List Transition) :
    c.extend more = { c with transitions := c.transitions ++ more } := by
  induction more generalizing c with
  | nil => rw [List.append_nil]; rfl
  | cons t more ih => exact (ih _).trans (by rw [addTransition, List.append_assoc]; rfl)

theorem target?_extend {event : String} {mode : Mode} (h : c.target? event = some mode)
    (more : List Transition) : (c.extend more).target? event = some mode := by
  obtain ⟨t, ht, rfl⟩ := Option.map_eq_some_iff.1 h
  rw [extend_eq, target?, List.find?_append, ht]
  rfl

/-- An input that is not refused comes to the same whatever transitions are added. -/
theorem perform_extend {i : Input} (h : (c.perform i).2.answer ≠ some false)
    (more : List Transition) :
    (c.extend more).perform i = ((c.perform i).1.extend more, (c.perform i).2) := by
  have hconvert (mode : Mode) : (c.extend more).perform (.convert mode) =
      ((c.convert mode).1.extend more, (c.perform (.convert mode)).2) := by
    rw [extend_eq, extend_eq]
    rfl
  cases i with
  | convert mode => exact hconvert mode
  | trigger event =>
    cases ht : c.target? event with
    | none => simp [perform, trigger?, ht] at h
    | some mode =>
      have htrigger {d : Controller} (hd : d.target? event = some mode) :
          d.perform (.trigger event) = ((d.perform (.convert mode)).1,
            { (d.perform (.convert mode)).2 with answer := some true }) := by
        rw [perform, trigger?, hd]
        rfl
      rw [htrigger (target?_extend ht more), hconvert, htrigger ht]
      rfl

theorem responses_extend {is : List Input}
    (h : ∀ r ∈ c.responses is, r.answer ≠ some false) (more : List Transition) :
    (c.extend more).responses is = c.responses is := by
  induction is generalizing c with
  | nil => rfl
  | cons i is ih =>
    rw [responses, List.forall_mem_cons] at h
    rw [responses, responses, perform_extend h.1 more, ih h.2]

/-- Every run is what the transitions, in their order, and the handlers make of it. So further
transitions change nothing about a run in which no event is refused: the answers, the modes that are
reached and the handlers that are called, in order, stay the same. In any run, an event that is
refused changes nothing. -/
theorem extension_conservative (c : Controller) (is : List Input) :
    Answered c is (c.responses is) ∧
    ((∀ r ∈ c.responses is, r.answer ≠ some false) →
      ∀ more, (c.extend more).responses is = c.responses is) ∧
    Steady c.mode (c.responses is) := by
  have hanswered := answered_responses c is
  exact ⟨hanswered, responses_extend, hanswered.steady⟩

/-- A second transition from idling on the same event, and one on an event that nobody caused. -/
theorem extension_conservative_stop :
    let handlers := [(⟨.exit, .idle⟩, "left"), (⟨.action, .stopped⟩, "stopped")]
    let c : Controller := { standard with handlers }
    let is : List Input := [.trigger startEvent, .convert .waiting, .trigger stopEvent]
    let more : List Transition := [⟨.idle, .emergency, startEvent⟩, ⟨.waiting, .idle, resetEvent⟩]
    (∀ r ∈ c.responses is, r.answer ≠ some false) ∧
      (c.extend more).responses is =
        [⟨some true, .running, [(⟨.exit, .idle⟩, "left")]⟩, ⟨none, .waiting, []⟩,
          ⟨some true, .stopped, [(⟨.action, .stopped⟩, "stopped")]⟩] := by
  intro handlers c is more
  have hanswer : ∀ r ∈ c.responses is, r.answer ≠ some false := by decide
  have hextend := (extension_conservative c is).2.1 hanswer more
  exact ⟨hanswer, hextend.trans (by decide)⟩

end ArmLang.Controller
