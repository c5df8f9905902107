import ArmLang.Proofs.Program.Combinators
import ArmLang.Proofs.Walk.Parser

namespace ArmLang

structure Cursor.Within (last : Nat) (c : Cursor) : Prop where
  position : c.position ≤ last
  reached : c.reached ≤ last

/-- A list of tokens, cut at the first mark of its end. -/
structure Tape where
  front : List Token
  mark : Token
  rest : List Token
  goesOn : ∀ t ∈ front, t.kind ≠ .fileEnd
  ends : mark.kind = .fileEnd

namespace Tape

def tokens (x : Tape) : List Token := x.front ++ x.mark :: x.rest

def last (x : Tape) : Nat := x.front.length

def look (x : Tape) (n : Nat) : Token := x.front[n]?.getD x.mark

variable {x : Tape} {n : Nat}

theorem getElem?_tokens (h : n ≤ x.last) : x.tokens[n]? = some (x.look n) := by
  rcases Nat.lt_or_eq_of_le h with hlt | rfl
  · rw [tokens, List.getElem?_append_left hlt, look, List.getElem?_eq_getElem hlt]
    rfl
  · rw [tokens, look, last]
    simp

theorem lt_of_front {t : Token} (h : x.front[n]? = some t) : n < x.last :=
  (List.getElem?_eq_some_iff.1 h).1

theorem look_of_front {t : Token} (h : x.front[n]? = some t) : x.look n = t := by
  rw [look, h]
  rfl

theorem look_last (x : Tape) : x.look x.last = x.mark := by
  simp [look, last]

theorem eq_last_of_front (hn : n ≤ x.last) (h : x.front[n]? = none) : n = x.last :=
  Nat.le_antisymm hn (List.getElem?_eq_none_iff.1 h)

theorem kind_of_front {t : Token} (h : x.front[n]? = some t) : t.kind ≠ .fileEnd :=
  x.goesOn t (List.mem_of_getElem? h)

theorem drop_of_front {t : Token} (h : x.front[n]? = some t) :
    x.front.drop n = t :: x.front.drop (n + 1) := by
  obtain ⟨hn, rfl⟩ := List.getElem?_eq_some_iff.1 h
  exact List.drop_eq_getElem_cons hn

theorem drop_last (x : Tape) : x.front.drop x.last = [] := List.drop_length

theorem nextLocation_drop (h : n ≤ x.last) :
    nextLocation x.mark.location (x.front.drop n) = (x.look n).location := by
  rcases Nat.lt_or_eq_of_le h with hlt | rfl
  · have ht := List.getElem?_eq_getElem hlt
    rw [drop_of_front ht, look_of_front ht]
    rfl
  · rw [drop_last, look_last]
    rfl

def reading (x : Tape) (r : Reader α) (n : Nat) : Reading α := r x.mark.location (x.front.drop n)

/-- Going on from a place gives what is read there. The cursor moves past the tokens that are used
up, the same problems are noted, and nothing behind the mark is looked at. -/
def Agrees (x : Tape) (n : Nat) (w : Walk α) (r : Reader α) : Prop :=
  ∀ c : Cursor, c.position = n → c.Within x.last →
    n + (x.reading r n).used ≤ x.last ∧ ∃ reached ≤ x.last,
      w x.tokens c = some ((x.reading r n).outcome,
        ⟨n + (x.reading r n).used, c.noted ++ (x.reading r n).noted, reached⟩)

theorem Agrees.of_reading {w : Walk α} {r r' : Reader α} (h : x.Agrees n w r)
    (hr : x.reading r' n = x.reading r n) : x.Agrees n w r' := by
  unfold Agrees
  rw [hr]
  exact h

theorem Agrees.bind {w : Walk α} {r : Reader α} {f : α → Walk β} {g : α → Reader β}
    (h : x.Agrees n w r)
    (hf : ∀ a, (x.reading r n).outcome = .ok a → x.Agrees (n + (x.reading r n).used) (f a) (g a)) :
    x.Agrees n (w >>= f) (r >>= g) := by
  intro c hc hin
  obtain ⟨hle, k, hk, hw⟩ := h c hc hin
  have hbind : x.reading (r >>= g) n =
      (x.reading r n).andThen fun a => x.reading (g a) (n + (x.reading r n).used) := by
    unfold reading
    rw [Reader.bind_apply]
    apply Reading.andThen_congr
    intro a
    rw [List.drop_drop]
  rw [hbind, Walk.bind_apply, hw, Reading.andThen]
  cases ho : (x.reading r n).outcome with
  | error e => exact ⟨hle, k, hk, rfl⟩
  | ok a =>
    obtain ⟨hle', k', hk', hfw⟩ := hf a ho ⟨n + (x.reading r n).used, _, k⟩ rfl ⟨hle, hk⟩
    dsimp only
    rw [hfw, ← Nat.add_assoc, ← List.append_assoc]
    exact ⟨hle', k', hk', rfl⟩

theorem agrees_cases {w : Walk α} {r : Reader α}
    (hfront : ∀ t, x.front[n]? = some t → x.Agrees n w r)
    (hlast : n = x.last → x.front[n]? = none → x.Agrees n w r) : x.Agrees n w r := by
  intro c hc hin
  cases ht : x.front[n]? with
  | none => exact hlast (eq_last_of_front (hc ▸ hin.position) ht) ht c hc hin
  | some t => exact hfront t ht c hc hin

theorem agrees_of_le {w : Walk α} {r : Reader α} (h : n ≤ x.last → x.Agrees n w r) :
    x.Agrees n w r := by
  intro c hc hin
  exact h (hc ▸ hin.position) c hc hin

theorem reading_of_front {t : Token} (h : x.front[n]? = some t) (r : Reader α) :
    x.reading r n = r x.mark.location (t :: x.front.drop (n + 1)) := by
  rw [reading, drop_of_front h]

theorem reading_last (x : Tape) (r : Reader α) : x.reading r x.last = r x.mark.location [] := by
  rw [reading, drop_last]

def returns (a : α) (m : Nat) : Reader α := fun _ _ => ⟨.ok a, m, []⟩

theorem agrees_returns {w : Walk α} {a : α} {m : Nat} (hm : n + m ≤ x.last)
    (h : ∀ c : Cursor, c.position = n → c.Within x.last →
      ∃ reached ≤ x.last, w x.tokens c = some (.ok a, ⟨n + m, c.noted, reached⟩)) :
    x.Agrees n w (returns a m) := by
  intro c hc hin
  obtain ⟨k, hk, hw⟩ := h c hc hin
  refine ⟨hm, k, hk, ?_⟩
  rw [hw]
  simp [reading, returns]

theorem Agrees.then {w : Walk α} {a : α} {m : Nat} {f : α → Walk β} {r : Reader β}
    (hw : x.Agrees n w (returns a m)) (hf : x.Agrees (n + m) (f a) r) :
    x.Agrees n (w >>= f) (returns a m >>= fun _ => r) := by
  apply hw.bind
  intro b hb
  cases hb
  exact hf

theorem Agrees.look {w : Walk α} {a : α} {f : α → Walk β} {r : Reader β}
    (hw : x.Agrees n w (returns a 0)) (hf : x.Agrees n (f a) r) : x.Agrees n (w >>= f) r :=
  (hw.then hf).of_reading (Reading.after_zero _).symm

theorem agrees_pure (a : α) : x.Agrees n (pure a) (pure a) := by
  apply agrees_of_le
  intro hn
  apply agrees_returns hn
  intro c hc hin
  subst hc
  exact ⟨c.reached, hin.reached, rfl⟩

theorem agrees_lookAt {i : Nat} (hi : i ≤ x.last) :
    x.Agrees n (Walk.lookAt i) (returns (x.look i) 0) := by
  apply agrees_of_le
  intro hn
  apply agrees_returns hn
  intro c hc hin
  subst hc
  refine ⟨max c.reached i, Nat.max_le.2 ⟨hin.reached, hi⟩, ?_⟩
  rw [Walk.lookAt, getElem?_tokens hi]
  rfl

theorem agrees_peek : x.Agrees n Walk.peek (returns (x.look n) 0) := by
  intro c hc hin
  subst hc
  exact agrees_lookAt hin.position c rfl hin

theorem agrees_peekNext (h : n < x.last) :
    x.Agrees n Walk.peekNext (returns (x.look (n + 1)) 0) := by
  intro c hc hin
  subst hc
  exact agrees_lookAt h c rfl hin

theorem agrees_previous {t : Token} (h : x.front[n]? = some t) :
    x.Agrees (n + 1) Walk.previous (returns t 0) := by
  intro c hc hin
  have hlook := agrees_lookAt (Nat.le_of_lt (lt_of_front h)) c hc hin
  rw [look_of_front h] at hlook
  rw [Walk.previous, hc]
  exact hlook

theorem agrees_atEnd : x.Agrees n Walk.atEnd (returns (decide (n = x.last)) 0) := by
  apply agrees_cases
  · intro t ht
    apply agrees_peek.look
    have hend : decide ((x.look n).kind = .fileEnd) = decide (n = x.last) := by
      rw [look_of_front ht]
      simp [kind_of_front ht, Nat.ne_of_lt (lt_of_front ht)]
    rw [hend]
    exact agrees_pure _
  · intro hlast _
    subst hlast
    apply agrees_peek.look
    have hend : decide ((x.look x.last).kind = .fileEnd) = decide (x.last = x.last) := by
      simp [look_last, x.ends]
    rw [hend]
    exact agrees_pure _

theorem agrees_moveOn (h : n < x.last) : x.Agrees n Walk.moveOn (returns () 1) := by
  apply agrees_returns h
  intro c hc hin
  subst hc
  exact ⟨max c.reached (c.position + 1), Nat.max_le.2 ⟨hin.reached, h⟩, rfl⟩

theorem agrees_advance {t : Token} (h : x.front[n]? = some t) :
    x.Agrees n Walk.advance (returns t 1) := by
  have hlt := lt_of_front h
  apply agrees_peek.look
  apply agrees_atEnd.look
  rw [look_of_front h, decide_eq_false (Nat.ne_of_lt hlt)]
  have hmoved : x.Agrees n (Walk.moveOn >>= fun _ => pure t) (returns () 1 >>= fun _ => pure t) :=
    (agrees_moveOn hlt).then (agrees_pure t)
  exact hmoved

theorem agrees_failAt (e : GrammarError) (l : Location) :
    x.Agrees n (Walk.failAt e l : Walk α) (Reader.failAt e l) := by
  intro c hc hin
  subst hc
  refine ⟨hin.position, c.reached, hin.reached, ?_⟩
  simp [reading, Reader.failAt, Reading.failure]
  rfl

theorem agrees_failHere (e : GrammarError) :
    x.Agrees n (Walk.failHere e : Walk α) (Reader.fail e) := by
  apply agrees_of_le
  intro hn
  apply agrees_peek.look
  apply (agrees_failAt e (x.look n).location).of_reading
  rw [← nextLocation_drop hn]
  rfl

theorem agrees_noteAt (e : GrammarError) (l : Location) :
    x.Agrees n (Walk.noteAt e l) (Reader.noteAt e l) := by
  intro c hc hin
  subst hc
  exact ⟨hin.position, c.reached, hin.reached, rfl⟩

theorem agrees_noteHere (e : GrammarError) : x.Agrees n (Walk.noteHere e) (Reader.note e) := by
  apply agrees_of_le
  intro hn
  apply agrees_peek.look
  apply (agrees_noteAt e (x.look n).location).of_reading
  rw [← nextLocation_drop hn]
  rfl

theorem agrees_acceptAny_taken {p : Kind → Bool} {t : Token} (h : x.front[n]? = some t)
    (hp : p t.kind = true) : x.Agrees n (Walk.acceptAny p) (returns (some t) 1) := by
  apply agrees_peek.look
  apply agrees_atEnd.look
  rw [look_of_front h, hp, decide_eq_false (Nat.ne_of_lt (lt_of_front h))]
  have htaken : x.Agrees n (Walk.advance >>= fun t => pure (some t))
      (returns t 1 >>= fun _ => pure (some t)) :=
    (agrees_advance h).then (agrees_pure (some t))
  exact htaken

theorem agrees_acceptAny_left {p : Kind → Bool}
    (h : ∀ t, x.front[n]? = some t → p t.kind = false) :
    x.Agrees n (Walk.acceptAny p) (returns none 0) := by
  have hnone : x.Agrees n (pure none : Walk (Option Token)) (returns none 0) := agrees_pure none
  apply agrees_peek.look
  apply agrees_atEnd.look
  apply agrees_cases
  · intro t ht
    rw [look_of_front ht, h t ht]
    exact hnone
  · intro hlast _
    rw [decide_eq_true hlast, Bool.not_true, Bool.and_false]
    exact hnone

theorem agrees_taken {p : Kind → Bool} {t : Token} {f : Option Token → Walk α} {r : Reader α}
    (h : x.front[n]? = some t) (hp : p t.kind = true) (hf : x.Agrees (n + 1) (f (some t)) r) :
    x.Agrees n (Walk.acceptAny p >>= f) (Reader.skip >>= fun _ => r) :=
  (agrees_acceptAny_taken h hp).then hf

theorem agrees_left {p : Kind → Bool} {f : Option Token → Walk α} {r : Reader α}
    (h : ∀ t, x.front[n]? = some t → p t.kind = false) (hf : x.Agrees n (f none) r) :
    x.Agrees n (Walk.acceptAny p >>= f) r :=
  (agrees_acceptAny_left h).look hf

theorem taken_or_left (x : Tape) (n : Nat) (p : Kind → Bool) :
    (∃ t, x.front[n]? = some t ∧ p t.kind = true) ∨
      ∀ t, x.front[n]? = some t → p t.kind = false := by
  cases x.front[n]? with
  | none =>
    right
    intro t ht
    cases ht
  | some t =>
    cases hp : p t.kind with
    | true => exact .inl ⟨t, rfl, hp⟩
    | false =>
      right
      intro t' ht
      cases ht
      exact hp

theorem agrees_accept_taken {k : Kind} {t : Token} (h : x.front[n]? = some t) (hk : t.kind = k) :
    x.Agrees n (Walk.accept k) (returns true 1) := by
  have hlt := lt_of_front h
  apply agrees_peek.look
  apply agrees_atEnd.look
  rw [look_of_front h, decide_eq_true hk, decide_eq_false (Nat.ne_of_lt hlt)]
  have htaken : x.Agrees n (Walk.moveOn >>= fun _ => pure true)
      (returns () 1 >>= fun _ => pure true) :=
    (agrees_moveOn hlt).then (agrees_pure true)
  exact htaken

theorem agrees_accept_left {k : Kind} (h : ∀ t, x.front[n]? = some t → t.kind ≠ k) :
    x.Agrees n (Walk.accept k) (returns false 0) := by
  have hfalse : x.Agrees n (pure false : Walk Bool) (returns false 0) := agrees_pure false
  apply agrees_peek.look
  apply agrees_atEnd.look
  apply agrees_cases
  · intro t ht
    rw [look_of_front ht, decide_eq_false (h t ht)]
    exact hfalse
  · intro hlast _
    rw [decide_eq_true hlast, Bool.not_true, Bool.and_false]
    exact hfalse

theorem agrees_accept_bind {k : Kind} {f : Bool → Walk α} {g : Bool → Reader α}
    (htrue : ∀ t, x.front[n]? = some t → t.kind = k → x.Agrees (n + 1) (f true) (g true))
    (hfalse : x.Agrees n (f false) (g false)) :
    x.Agrees n (Walk.accept k >>= f) (Reader.accept k >>= g) := by
  have hleft (h : ∀ t, x.front[n]? = some t → t.kind ≠ k)
      (hr : x.reading (Reader.accept k) n = .value false) :
      x.Agrees n (Walk.accept k >>= f) (Reader.accept k >>= g) := by
    apply ((agrees_accept_left h).of_reading hr).bind
    intro b hb
    rw [hr] at hb ⊢
    cases hb
    exact hfalse
  apply agrees_cases
  · intro t ht
    by_cases hk : t.kind = k
    · have hr : x.reading (Reader.accept k) n = ⟨.ok true, 1, []⟩ := by
        rw [reading_of_front ht]
        exact if_pos hk
      apply ((agrees_accept_taken ht hk).of_reading hr).bind
      intro b hb
      rw [hr] at hb ⊢
      cases hb
      exact htrue t ht hk
    · apply hleft
      · intro t' ht'
        rw [ht] at ht'
        cases ht'
        exact hk
      · rw [reading_of_front ht]
        exact if_neg hk
  · intro hlast _
    subst hlast
    apply hleft
    · intro t ht
      exact absurd (lt_of_front ht) (Nat.lt_irrefl _)
    · rw [reading_last]
      rfl

theorem agrees_acceptOrNote (k : Kind) (e : GrammarError) :
    x.Agrees n (Walk.acceptOrNote k e) (Reader.acceptOrNote k e) := by
  apply agrees_accept_bind
  · intro t _ _
    exact agrees_pure ()
  · exact agrees_noteHere e

theorem agrees_expect {k : Kind} (hk : k ≠ .fileEnd) (e : GrammarError) :
    x.Agrees n (Walk.expect k e) (Reader.expect k e) := by
  apply agrees_cases
  · intro t ht
    apply agrees_peek.look
    rw [look_of_front ht]
    split
    · next h =>
      apply (agrees_advance ht).of_reading
      rw [reading_of_front ht]
      exact if_pos h
    · next h =>
      apply (agrees_failHere e).of_reading
      rw [reading_of_front ht, reading_of_front ht]
      exact if_neg h
  · intro hlast _
    subst hlast
    apply agrees_peek.look
    have hmark : x.mark.kind ≠ k := by
      rw [x.ends]
      exact hk.symm
    rw [look_last, if_neg hmark]
    apply (agrees_failHere e).of_reading
    rw [reading_last, reading_last]
    rfl

theorem front_of_expect {k : Kind} {e : GrammarError} {t : Token}
    (h : (x.reading (Reader.expect k e) n).outcome = .ok t) :
    x.front[n]? = some t ∧ t.kind = k ∧ (x.reading (Reader.expect k e) n).used = 1 := by
  unfold reading Reader.expect at h ⊢
  split at h
  · next u rest hdrop =>
    have hu : x.front[n]? = some u := by
      rw [← List.head?_drop, hdrop]
      rfl
    split at h
    · next hk =>
      cases h
      exact ⟨hu, hk, by rw [if_pos hk]⟩
    · cases h
  · cases h

theorem agrees_expect_bind {k : Kind} (hk : k ≠ .fileEnd) (e : GrammarError)
    {f : Token → Walk α} {g : Token → Reader α}
    (h : ∀ t, x.front[n]? = some t → t.kind = k → x.Agrees (n + 1) (f t) (g t)) :
    x.Agrees n (Walk.expect k e >>= f) (Reader.expect k e >>= g) := by
  apply (agrees_expect hk e).bind
  intro t ht
  obtain ⟨ht, hkind, hused⟩ := front_of_expect ht
  rw [hused]
  exact h t ht hkind

theorem agrees_reader_peek {w : Walk α} {g : Option Token → Reader α}
    (h : x.Agrees n w (g x.front[n]?)) : x.Agrees n w (Reader.peek >>= g) := by
  apply h.of_reading
  unfold reading
  rw [Reader.peek_bind, List.head?_drop]

theorem Agrees.map {w : Walk α} {r : Reader α} (h : x.Agrees n w r) (f : α → β) :
    x.Agrees n (w >>= fun a => pure (f a)) (r >>= fun a => pure (f a)) := by
  apply h.bind
  intro a _
  exact agrees_pure (f a)

end Tape

end ArmLang
