import ArmLang.Program.GrammarError

namespace ArmLang

/-- The result of reading something off the front of a token list: what was read, or the problem
that made reading it impossible, how many tokens were used up, and the problems noted on the way
that did not stop the reading. -/
structure Reading (α : Type) where
  outcome : Except (Issue GrammarError) α
  used : Nat
  noted : List (Issue GrammarError)

namespace Reading

def value (a : α) : Reading α := ⟨.ok a, 0, []⟩

def failure (e : GrammarError) (l : Location) : Reading α := ⟨.error ⟨e, l⟩, 0, []⟩

def after (n : Nat) (r : Reading α) : Reading α := { r with used := n + r.used }

/-- Reads on with what was read, or stops at the problem. -/
def andThen (r : Reading α) (f : α → Reading β) : Reading β :=
  match r.outcome with
  | .error e => ⟨.error e, r.used, r.noted⟩
  | .ok a =>
    let q := f a
    ⟨q.outcome, r.used + q.used, r.noted ++ q.noted⟩

def map (f : α → β) (r : Reading α) : Reading β := r.andThen fun a => value (f a)

theorem after_after (r : Reading α) (m n : Nat) : (r.after m).after n = r.after (n + m) := by
  unfold after
  rw [Nat.add_assoc]

theorem after_ok (a : α) (m n : Nat) : after m ⟨.ok a, n, []⟩ = ⟨.ok a, m + n, []⟩ := rfl

theorem andThen_ok (a : α) (n : Nat) (f : α → Reading β) :
    andThen ⟨.ok a, n, []⟩ f = (f a).after n :=
  rfl

theorem map_ok (f : α → β) (a : α) (n : Nat) : map f ⟨.ok a, n, []⟩ = ⟨.ok (f a), n, []⟩ := rfl

/-- The value together with a problem that does not keep it from being used. -/
def noting (a : α) (e : GrammarError) (l : Location) : Reading α := ⟨.ok a, 0, [⟨e, l⟩]⟩

end Reading

/-- The place of the next token; `stop` is the end of the file. -/
def nextLocation (stop : Location) : List Token → Location
  | [] => stop
  | t :: _ => t.location

/-- Something that reads off the front of a token list that ends at a given place. -/
def Reader (α : Type) : Type := Location → List Token → Reading α

namespace Reader

instance : Monad Reader where
  pure a := fun _ _ => .value a
  bind r f := fun stop s =>
    (r stop s).andThen fun a => f a stop (s.drop (r stop s).used)

def fail (e : GrammarError) : Reader α := fun stop s => .failure e (nextLocation stop s)

def failAt (e : GrammarError) (l : Location) : Reader α := fun _ _ => .failure e l

def note (e : GrammarError) : Reader Unit := fun stop s => .noting () e (nextLocation stop s)

def expect (k : Kind) (e : GrammarError) : Reader Token := fun stop s =>
  match s with
  | t :: _ => if t.kind = k then ⟨.ok t, 1, []⟩ else .failure e t.location
  | [] => .failure e stop

def accept (k : Kind) : Reader Bool := fun _ s =>
  match s with
  | t :: _ => if t.kind = k then ⟨.ok true, 1, []⟩ else .value false
  | [] => .value false

def acceptOrNote (k : Kind) (e : GrammarError) : Reader Unit := do
  if !(← accept k) then note e

theorem bind_apply (r : Reader α) (f : α → Reader β) (stop : Location) (s : List Token) :
    (r >>= f) stop s = (r stop s).andThen fun a => f a stop (s.drop (r stop s).used) :=
  rfl

theorem pure_apply (a : α) (stop : Location) (s : List Token) :
    (pure a : Reader α) stop s = .value a :=
  rfl

end Reader

end ArmLang
