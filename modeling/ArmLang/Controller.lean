namespace ArmLang

/-- What the machine that drives the arm is doing. -/
inductive Mode
  | idle
  | running
  | waiting
  | stopped
  | emergency
  deriving DecidableEq, Repr, Inhabited

namespace Mode

def all : List Mode := [idle, running, waiting, stopped, emergency]

def name : Mode → String
  | idle => "IDLE"
  | running => "RUNNING"
  | waiting => "WAITING"
  | stopped => "STOPPED"
  | emergency => "EMERGENCY"

/-- The name of the mode within a sentence. -/
def title : Mode → String
  | idle => "Idle"
  | running => "Running"
  | waiting => "Waiting"
  | stopped => "Stopped"
  | emergency => "Emergency"

end Mode

structure Transition where
  source : Mode
  target : Mode
  event : String
  deriving DecidableEq, Repr

inductive Moment
  | exit
  | entry
  | action
  deriving DecidableEq, Repr

/-- A mode is left or entered; its action follows its entry. -/
structure Notice where
  moment : Moment
  mode : Mode
  deriving DecidableEq, Repr

/-- The mode with the events that can change it and the handlers that hear of changes. A handler is
known by its label, and there is at most one for each notice. -/
structure Controller where
  mode : Mode := .idle
  transitions : List Transition := []
  handlers : List (Notice × String) := []
  deriving DecidableEq

namespace Controller

def startEvent : String := "start"

def completeEvent : String := "complete"

def stopEvent : String := "stop"

def emergencyEvent : String := "emergency"

def resetEvent : String := "reset"

def standard : Controller where
  transitions :=
    [⟨.idle, .running, startEvent⟩, ⟨.running, .stopped, stopEvent⟩,
      ⟨.running, .emergency, emergencyEvent⟩, ⟨.running, .idle, completeEvent⟩,
      ⟨.waiting, .stopped, stopEvent⟩, ⟨.waiting, .emergency, emergencyEvent⟩,
      ⟨.stopped, .idle, resetEvent⟩, ⟨.emergency, .idle, resetEvent⟩]

def addTransition (c : Controller) (t : Transition) : Controller :=
  { c with transitions := c.transitions ++ [t] }

/-- Registers a handler in place of an earlier one for the same notice. -/
def on (c : Controller) (n : Notice) (label : String) : Controller :=
  { c with handlers := (n, label) :: c.handlers.filter (·.1 ≠ n) }

def handler? (c : Controller) (n : Notice) : Option String := c.handlers.lookup n

/-- What is given notice of when one mode gives way to another. -/
def conversion (source target : Mode) : List Notice :=
  [⟨.exit, source⟩, ⟨.entry, target⟩, ⟨.action, target⟩]

/-- Goes over to a mode, whatever the transitions. -/
def convert (c : Controller) (mode : Mode) : Controller × List Notice :=
  ({ c with mode }, conversion c.mode mode)

/-- Starts over in a mode, which is entered without another being left. -/
def restart (c : Controller) (mode : Mode) : Controller × List Notice :=
  ({ c with mode }, [⟨.entry, mode⟩])

/-- Where an event leads: the first transition from the mode on the event decides. -/
def target? (c : Controller) (event : String) : Option Mode :=
  (c.transitions.find? fun t => t.source = c.mode ∧ t.event = event).map (·.target)

/-- Takes an event. Where no transition fits, there is no change. -/
def trigger? (c : Controller) (event : String) : Option (Controller × List Notice) :=
  (c.target? event).map c.convert

end Controller

end ArmLang
