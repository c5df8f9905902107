import ArmLang.Proofs.Layout.Basic
import ArmLang.Proofs.Program.Combinators

namespace ArmLang

variable {f : Location → Location} {g : α → β}

@[simp] theorem Token.kind_relocate (t : Token) : (t.relocate f).kind = t.kind := rfl

@[simp] theorem Token.text_relocate (t : Token) : (t.relocate f).text = t.text := rfl

@[simp] theorem Token.location_relocate (t : Token) : (t.relocate f).location = f t.location := rfl

theorem nextLocation_relocate (stop : Location) (s : List Token) :
    nextLocation (f stop) (s.map (Token.relocate f)) = f (nextLocation stop s) := by
  cases s <;> rfl

def Reading.relocate (f : Location → Location) (g : α → β) (r : Reading α) : Reading β :=
  ⟨match r.outcome with
    | .ok a => .ok (g a)
    | .error i => .error (i.relocate f), r.used, r.noted.map (Issue.relocate f)⟩

namespace Reader

/-- What `r` reads off tokens is what `r'` reads off them elsewhere, only that it is there. -/
def Moves (f : Location → Location) (g : α → β) (r : Reader α) (r' : Reader β) (stop : Location)
    (s : List Token) : Prop :=
  r' (f stop) (s.map (Token.relocate f)) = (r stop s).relocate f g

variable {stop : Location} {s : List Token}

theorem moves_pure {a : α} {b : β} (h : g a = b) : Moves f g (pure a) (pure b) stop s := by
  subst h
  rfl

theorem moves_ite {p : Prop} [Decidable p] {r t : Reader α} {r' t' : Reader β}
    (hr : p → Moves f g r r' stop s) (ht : ¬ p → Moves f g t t' stop s) :
    Moves f g (if p then r else t) (if p then r' else t') stop s := by
  split
  · next h => exact hr h
  · next h => exact ht h

theorem moves_failAt (e : GrammarError) (l : Location) :
    Moves f g (failAt e l) (failAt e (f l)) stop s :=
  rfl

theorem moves_noteAt (e : GrammarError) (l : Location) :
    Moves f id (noteAt e l) (noteAt e (f l)) stop s :=
  rfl

theorem moves_fail (e : GrammarError) : Moves f g (fail e) (fail e) stop s := by
  unfold Moves fail
  rw [nextLocation_relocate]
  rfl

theorem moves_note (e : GrammarError) : Moves f id (note e) (note e) stop s := by
  unfold Moves note
  rw [nextLocation_relocate]
  rfl

theorem moves_here : Moves f f here here stop s := by
  unfold Moves here
  rw [nextLocation_relocate]
  rfl

theorem moves_expect (k : Kind) (e : GrammarError) :
    Moves f (Token.relocate f) (expect k e) (expect k e) stop s := by
  cases s with
  | nil => rfl
  | cons t s =>
    change (if t.kind = k then _ else _) = Reading.relocate f _ (if t.kind = k then _ else _)
    split
    · rfl
    · rfl

theorem moves_accept (k : Kind) : Moves f id (accept k) (accept k) stop s := by
  cases s with
  | nil => rfl
  | cons t s =>
    change (if t.kind = k then _ else _) = Reading.relocate f _ (if t.kind = k then _ else _)
    split
    · rfl
    · rfl

theorem Moves.bind_of_ok {r : Reader α} {r' : Reader β} {k : α → Reader γ} {k' : β → Reader δ}
    {h : γ → δ} (hr : Moves f g r r' stop s)
    (hk : ∀ a n noted, r stop s = ⟨.ok a, n, noted⟩ →
      Moves f h (k a) (k' (g a)) stop (s.drop n)) :
    Moves f h (r >>= k) (r' >>= k') stop s := by
  unfold Moves at hr hk ⊢
  rw [bind_apply, hr, bind_apply]
  generalize r stop s = q at hk ⊢
  obtain ⟨outcome, n, noted⟩ := q
  cases outcome with
  | error i => rfl
  | ok a =>
    unfold Reading.andThen Reading.relocate
    dsimp only
    rw [← List.map_drop, hk a n noted rfl, List.map_append]
    rfl

theorem Moves.bind {r : Reader α} {r' : Reader β} {k : α → Reader γ} {k' : β → Reader δ}
    {h : γ → δ} (hr : Moves f g r r' stop s)
    (hk : ∀ a n, Moves f h (k a) (k' (g a)) stop (s.drop n)) :
    Moves f h (r >>= k) (r' >>= k') stop s :=
  hr.bind_of_ok fun a n _ _ => hk a n

theorem Moves.map {r : Reader α} {r' : Reader β} {k : α → γ} {k' : β → δ} {h : γ → δ}
    (hr : Moves f g r r' stop s) (hk : ∀ a, h (k a) = k' (g a)) :
    Moves f h (r >>= fun a => pure (k a)) (r' >>= fun b => pure (k' b)) stop s :=
  hr.bind fun a _ => moves_pure (hk a)

theorem moves_expect_bind {k : Kind} (e : GrammarError) {r : Token → Reader γ}
    {r' : Token → Reader δ} {h : γ → δ}
    (hr : ∀ t l, s = t :: l → Moves f h (r t) (r' (t.relocate f)) stop l) :
    Moves f h (expect k e >>= r) (expect k e >>= r') stop s := by
  apply (moves_expect k e).bind_of_ok
  intro t n noted ht
  unfold expect at ht
  split at ht
  · next u l =>
    split at ht
    · cases ht
      exact hr t l rfl
    · cases ht
  · cases ht

theorem moves_accept_bind {k : Kind} {r : Bool → Reader γ} {r' : Bool → Reader δ} {h : γ → δ}
    (htrue : ∀ t l, s = t :: l → Moves f h (r true) (r' true) stop l)
    (hfalse : Moves f h (r false) (r' false) stop s) :
    Moves f h (accept k >>= r) (accept k >>= r') stop s := by
  apply (moves_accept k).bind_of_ok
  intro present n noted hp
  unfold accept at hp
  split at hp
  · next t l =>
    split at hp
    · cases hp
      exact htrue t l rfl
    · cases hp
      exact hfalse
  · cases hp
    exact hfalse

theorem moves_acceptOrNote (k : Kind) (e : GrammarError) :
    Moves f id (acceptOrNote k e) (acceptOrNote k e) stop s := by
  apply (moves_accept k).bind
  intro present n
  cases present with
  | true => exact moves_pure rfl
  | false => exact moves_note e

theorem moves_peek_bind {k k' : Option Token → Reader α} {g : α → α}
    (h : Moves f g (k s.head?) (k' (s.head?.map (Token.relocate f))) stop s) :
    Moves f g (peek >>= k) (peek >>= k') stop s := by
  unfold Moves
  rw [peek_bind, peek_bind, List.head?_map]
  exact h

theorem moves_peekNext_bind {k k' : Option Token → Reader α} {g : α → α}
    (h : Moves f g (k s.tail.head?) (k' (s.tail.head?.map (Token.relocate f))) stop s) :
    Moves f g (peekNext >>= k) (peekNext >>= k') stop s := by
  unfold Moves
  rw [peekNext_bind, peekNext_bind, ← List.map_tail, List.head?_map]
  exact h

theorem moves_skip_bind {r : Reader α} {r' : Reader β} (t : Token) (h : Moves f g r r' stop s) :
    Moves f g (skip >>= fun _ => r) (skip >>= fun _ => r') stop (t :: s) := by
  unfold Moves at h ⊢
  rw [List.map_cons, skip_bind, h, skip_bind]
  rfl

end Reader

end ArmLang
