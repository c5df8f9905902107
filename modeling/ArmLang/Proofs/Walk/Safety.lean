import ArmLang.Proofs.Walk.Body

namespace ArmLang

namespace Tape

open Statement

variable {x : Tape}

theorem agrees_round {n : Nat} (h : n < x.last) : x.Agrees n Walk.round roundReader :=
  agrees_round_of_declaration (agrees_declaration (List.getElem?_eq_getElem h))

theorem round_advances {c : Cursor} (hin : c.Within x.last) (hlt : c.position < x.last) :
    ∃ o c', Walk.round x.tokens c = some (.ok o, c') ∧ c.position < c'.position ∧
      c'.Within x.last := by
  obtain ⟨hle, k, hk, hw⟩ := agrees_round hlt c rfl hin
  obtain ⟨o, n, noted, hpos, hround⟩ := exists_round x.mark.location x.front[c.position]
    (x.front.drop (c.position + 1))
  rw [reading_of_front (List.getElem?_eq_getElem hlt), hround] at hle hw
  exact ⟨o, _, hw, Nat.lt_add_of_pos_right hpos, hle, hk⟩

theorem body_ends (nested : Bool) {c : Cursor} (hin : c.Within x.last) :
    ∃ ss c', Walk.body nested x.tokens c = some (.ok ss, c') ∧ c.position ≤ c'.position ∧
      c'.Within x.last ∧ (c'.position = x.last ∨
        nested ∧ ∃ t, x.tokens[c'.position]? = some t ∧ closesBody t.kind) := by
  obtain ⟨hle, k, hk, hw⟩ := agrees_body nested c.position c rfl hin
  have hstop := drop_readBody nested x.mark.location (x.front.drop c.position)
  refine ⟨_, _, hw, Nat.le_add_right .., ⟨hle, hk⟩, ?_⟩
  have hused : (x.reading (bodyReader nested) c.position).used =
      (readBody nested x.mark.location (x.front.drop c.position)).used := rfl
  rw [List.drop_drop, ← hused, List.head?_drop] at hstop
  generalize c.position + (x.reading (bodyReader nested) c.position).used = m at hle hstop
  cases ht : x.front[m]? with
  | none =>
    left
    exact eq_last_of_front hle ht
  | some t =>
    right
    rw [ht, Option.all_some, Bool.and_eq_true] at hstop
    refine ⟨hstop.1, t, ?_, hstop.2⟩
    rw [getElem?_tokens hle, look_of_front ht]

theorem program_ends (x : Tape) :
    let b := readBody false x.mark.location x.front
    ∃ c : Cursor, Walk.program x.tokens {} =
      some (.ok ⟨nextLocation x.mark.location x.front, b.statements⟩, c) ∧
        c.noted = b.noted ∧ c.position = x.last ∧ c.reached ≤ x.last := by
  have hprogram : x.Agrees 0 Walk.program
      (Reader.here >>= fun l => bodyReader false >>= fun ss => pure ⟨l, ss⟩) := by
    apply agrees_here
    apply (agrees_body false 0).bind
    intro ss _
    exact agrees_pure _
  have hreading : x.reading
      (Reader.here >>= fun l => bodyReader false >>= fun ss => pure (⟨l, ss⟩ : Program)) 0 =
      let b := readBody false x.mark.location x.front
      ⟨.ok ⟨nextLocation x.mark.location x.front, b.statements⟩, b.used, b.noted⟩ := by
    rw [reading, Reader.here_bind, bodyReader_map]
    rfl
  obtain ⟨hle, k, hk, hw⟩ := hprogram {} rfl ⟨Nat.zero_le _, Nat.zero_le _⟩
  rw [hreading] at hle hw
  have hstop := drop_readBody false x.mark.location x.front
  refine ⟨_, hw, rfl, ?_, hk⟩
  rw [List.head?_drop] at hstop
  dsimp only at hle ⊢
  rw [Nat.zero_add] at hle ⊢
  cases ht : x.front[(readBody false x.mark.location x.front).used]? with
  | none => exact eq_last_of_front hle ht
  | some t =>
    rw [ht] at hstop
    cases hstop

end Tape

namespace Walk

open Program

def markIndex (tokens : List Token) : Nat := (marked tokens).findIdx (·.kind = .fileEnd)

/-- The tokens that a program is read off go on up to the first mark of the end, and there is
one. -/
theorem exists_tape (tokens : List Token) :
    ∃ x : Tape, x.tokens = marked tokens ∧
      x.front = (significant tokens).takeWhile (·.kind ≠ .fileEnd) ∧
        x.mark.location = endLocation (significant tokens) := by
  unfold marked
  dsimp only
  generalize significant tokens = s
  cases hfind : s.find? (·.kind = .fileEnd) with
  | none =>
    have hs : ∀ t ∈ s, t.kind ≠ .fileEnd := by simpa using hfind
    have hfront : s.takeWhile (·.kind ≠ .fileEnd) = s := by
      have h : (s ++ []).takeWhile (·.kind ≠ Kind.fileEnd) = s ++ [] :=
        List.takeWhile_append_of_pos fun t ht => decide_eq_true (hs t ht)
      rwa [List.append_nil] at h
    unfold endLocation
    rw [hfind, hfront]
    cases hlast : s.getLast? with
    | none =>
      obtain rfl := List.getLast?_eq_none_iff.1 hlast
      exact ⟨⟨[], ⟨.fileEnd, "", ⟨1, 1⟩⟩, [], hs, rfl⟩, rfl, rfl, rfl⟩
    | some t =>
      dsimp only
      rw [if_neg (hs t (List.mem_of_getLast? hlast))]
      exact ⟨⟨s, ⟨.fileEnd, "", ⟨t.location.line + 1, 1⟩⟩, [], hs, rfl⟩, rfl, rfl, rfl⟩
  | some m =>
    obtain ⟨hm, front, rest, rfl, hfront⟩ := List.find?_eq_some_iff_append.1 hfind
    have hm : m.kind = .fileEnd := of_decide_eq_true hm
    have hfront : ∀ t ∈ front, t.kind ≠ .fileEnd := by simpa using hfront
    have htake : (front ++ m :: rest).takeWhile (·.kind ≠ .fileEnd) = front := by
      rw [List.takeWhile_append_of_pos fun t ht => decide_eq_true (hfront t ht),
        List.takeWhile_cons_of_neg (by simp [hm]), List.append_nil]
    unfold endLocation
    rw [hfind, htake]
    obtain ⟨t, ht⟩ := Option.isSome_iff_exists.1
      (List.getLast?_isSome.2 (List.append_ne_nil_of_right_ne_nil front (List.cons_ne_nil m rest)))
    rw [ht]
    dsimp only
    split
    · exact ⟨⟨front, m, rest, hfront, hm⟩, rfl, rfl, rfl⟩
    · have htokens : front ++ m :: (rest ++ [⟨.fileEnd, "", ⟨t.location.line + 1, 1⟩⟩]) =
          front ++ m :: rest ++ [⟨.fileEnd, "", ⟨t.location.line + 1, 1⟩⟩] := by
        rw [List.append_assoc, List.cons_append]
      exact ⟨⟨front, m, _, hfront, hm⟩, htokens, rfl, rfl⟩

theorem markIndex_eq {x : Tape} {tokens : List Token} (h : x.tokens = marked tokens) :
    markIndex tokens = x.last := by
  have hfront : x.front.findIdx (·.kind = .fileEnd) = x.front.length := by
    rw [List.findIdx_eq_length]
    intro t ht
    exact decide_eq_false (x.goesOn t ht)
  rw [markIndex, ← h, Tape.tokens, List.findIdx_append, hfront, if_neg (Nat.lt_irrefl _),
    List.findIdx_cons, decide_eq_true x.ends]
  exact Nat.zero_add _

/-- Reading a program off its tokens with a cursor is safe: it ends on the mark with what is read off
the tokens as a list, each round in front of the mark gets nearer to it, and so every body ends.
Nothing behind the mark is ever looked at. -/
structure Safe (tokens : List Token) : Prop where
  program : ∃ c : Cursor, Walk.program (marked tokens) {} = some (.ok (read tokens).1, c) ∧
    c.noted = (read tokens).2 ∧ c.position = markIndex tokens ∧ c.reached ≤ markIndex tokens
  round : ∀ c : Cursor, c.Within (markIndex tokens) → c.position < markIndex tokens →
    ∃ o c', Walk.round (marked tokens) c = some (.ok o, c') ∧ c.position < c'.position ∧
      c'.Within (markIndex tokens)
  body : ∀ (nested : Bool) (c : Cursor), c.Within (markIndex tokens) →
    ∃ ss c', Walk.body nested (marked tokens) c = some (.ok ss, c') ∧ c.position ≤ c'.position ∧
      c'.Within (markIndex tokens) ∧ (c'.position = markIndex tokens ∨
        nested ∧ ∃ t, (marked tokens)[c'.position]? = some t ∧ Statement.closesBody t.kind)

theorem safe (tokens : List Token) : Safe tokens := by
  obtain ⟨x, htokens, hfront, hmark⟩ := exists_tape tokens
  have hlast := markIndex_eq htokens
  constructor
  case round =>
    intro c hin hlt
    rw [hlast] at hin hlt ⊢
    rw [← htokens]
    exact Tape.round_advances hin hlt
  case body =>
    intro nested c hin
    rw [hlast] at hin ⊢
    rw [← htokens]
    exact Tape.body_ends nested hin
  case program =>
    have hread : read tokens =
        let b := Statement.readBody false x.mark.location x.front
        (⟨nextLocation x.mark.location x.front, b.statements⟩, b.noted) := by
      unfold Program.read
      dsimp only
      rw [hfront, hmark]
    rw [hlast, hread, ← htokens]
    exact x.program_ends

end Walk

namespace Program

/-- Nothing behind the first mark of the end is read. -/
theorem read_cut {mark : Token} (hmark : mark.kind = .fileEnd) (before after : List Token) :
    read (before ++ mark :: after) = read (before ++ [mark]) := by
  have hsignificant (after) : significant (before ++ mark :: after) =
      significant before ++ mark :: significant after := by
    simp [significant, hmark]
  have hwindow : (significant (before ++ mark :: after)).takeWhile (·.kind ≠ .fileEnd) =
      (significant (before ++ [mark])).takeWhile (·.kind ≠ .fileEnd) := by
    rw [hsignificant, hsignificant]
    simp [List.takeWhile_append, hmark]
  have hend (after) : endLocation (significant (before ++ mark :: after)) =
      (((significant before).find? (·.kind = .fileEnd)).getD mark).location := by
    rw [hsignificant, endLocation, List.find?_append, List.find?_cons, decide_eq_true hmark]
    cases (significant before).find? (·.kind = .fileEnd) with
    | none => rfl
    | some t => rfl
  unfold read
  dsimp only
  rw [hwindow, hend, hend]

end Program

/-- Whatever the tokens, a program is read off them safely, and nothing behind the first mark of the
end matters to it. -/
theorem Walk.safe_and_cut :
    (∀ tokens, Safe tokens) ∧
      ∀ mark : Token, mark.kind = .fileEnd → ∀ before after,
        Program.read (before ++ mark :: after) = Program.read (before ++ [mark]) := by
  constructor
  · exact safe
  · intro mark hmark before after
    exact Program.read_cut hmark before after

/-- A declaration that breaks off, with a mark of the end in its middle and none behind it. -/
def brokenDeclaration : List Token :=
  [⟨.keyword .decl, "DECL", ⟨1, 1⟩⟩, ⟨.fileEnd, "", ⟨1, 6⟩⟩, ⟨.identifier, "x", ⟨1, 7⟩⟩]

theorem safe_brokenDeclaration :
    Walk.Safe brokenDeclaration ∧ (Program.read brokenDeclaration).2 = [⟨.noDataType, ⟨1, 6⟩⟩] ∧
      Program.read brokenDeclaration = Program.read (brokenDeclaration.take 2) := by
  refine ⟨Walk.safe_and_cut.1 _, by decide +kernel, ?_⟩
  exact Walk.safe_and_cut.2 ⟨.fileEnd, "", ⟨1, 6⟩⟩ rfl (brokenDeclaration.take 1)
    [⟨.identifier, "x", ⟨1, 7⟩⟩]

end ArmLang
