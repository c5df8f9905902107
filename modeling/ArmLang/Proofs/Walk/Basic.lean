import ArmLang.Program.Read

namespace ArmLang

/-- A place in a list of tokens with the problems noted so far. The furthest place that was looked
at or moved to is kept as well. -/
structure Cursor where
  position : Nat := 0
  noted : List (Issue GrammarError) := []
  reached : Nat := 0

/-- Something that goes along a list of tokens with a cursor. Nothing comes of it if it goes on for
ever, or looks for a token where there is none. -/
abbrev Walk := ReaderT (List Token) (ExceptT (Issue GrammarError) (StateT Cursor Option))

namespace Walk

theorem bind_apply (w : Walk α) (f : α → Walk β) (tokens : List Token) (c : Cursor) :
    (w >>= f) tokens c = match w tokens c with
      | none => none
      | some (.ok a, c') => f a tokens c'
      | some (.error issue, c') => some (.error issue, c') := by
  change (w tokens c).bind _ = _
  cases w tokens c with
  | none => rfl
  | some p =>
    obtain ⟨outcome, c'⟩ := p
    cases outcome with
    | ok a => rfl
    | error issue => rfl

/-- The token at a place, which has to be one of the list. -/
def lookAt (i : Nat) : Walk Token := fun tokens c =>
  tokens[i]?.map fun t => (.ok t, { c with reached := max c.reached i })

def peek : Walk Token := do
  lookAt (← get).position

def peekNext : Walk Token := do
  lookAt ((← get).position + 1)

def previous : Walk Token := fun tokens c =>
  match c.position with
  | 0 => none
  | i + 1 => lookAt i tokens c

def atEnd : Walk Bool := do
  return (← peek).kind = .fileEnd

def moveOn : Walk Unit := fun _ c =>
  some (.ok (), { c with position := c.position + 1, reached := max c.reached (c.position + 1) })

def advance : Walk Token := do
  let t ← peek
  if !(← atEnd) then moveOn
  return t

def failAt (e : GrammarError) (l : Location) : Walk α := throw ⟨e, l⟩

def failHere (e : GrammarError) : Walk α := do
  failAt e (← peek).location

def noteAt (e : GrammarError) (l : Location) : Walk Unit := fun _ c =>
  some (.ok (), { c with noted := c.noted ++ [⟨e, l⟩] })

def noteHere (e : GrammarError) : Walk Unit := do
  noteAt e (← peek).location

def acceptAny (p : Kind → Bool) : Walk (Option Token) := do
  if p (← peek).kind && !(← atEnd) then return some (← advance) else return none

def accept (k : Kind) : Walk Bool := do
  if (← peek).kind = k && !(← atEnd) then
    moveOn
    return true
  else return false

def acceptOrNote (k : Kind) (e : GrammarError) : Walk Unit := do
  if !(← accept k) then noteHere e

def expect (k : Kind) (e : GrammarError) : Walk Token := do
  if (← peek).kind = k then advance else failHere e

/-- Passes over the next token, and over the rest of the line unless that was its end. -/
abbrev synchronizeRule (synchronize : Walk Unit) : Walk Unit := do
  if !(← atEnd) then
    if (← advance).kind ≠ .lineEnd then synchronize

-- Here and below, a rule that goes back to itself has itself as an argument. Handed over as a term
-- it would leave its place in the file in the definition, hence the step.
def synchronize : Walk Unit := synchronizeRule (by apply synchronize)
partial_fixpoint

end Walk

end ArmLang
