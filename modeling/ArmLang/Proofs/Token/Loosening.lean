import ArmLang.Proofs.Token.Lexeme

namespace ArmLang

open Text (isNameStart isNameChar isWordChar isSolid)

namespace Shape

/-- A word operator is spelled like a name, and no shapes but its own and that of names begin as it
does. -/
theorem table_word {s : String} {k : Kind} (h : (word s, k) ∈ table) :
    name.Matches s.toList ∧
      ∀ p ∈ table, ∀ c ∈ s.toList.head?, p.1.begins c → p.1 = word s ∨ p.1 = name := by
  have hall : ∀ p ∈ table, ∀ s ∈ p.1.literal?, p.1 = word s →
      s.toList.head?.any isNameStart ∧ s.toList.all isNameChar ∧
      ∀ q ∈ table, s.toList.head?.any q.1.begins → q.1 = word s ∨ q.1 = name := by
    decide
  obtain ⟨hstart, hs, hbegins⟩ := hall _ h s rfl rfl
  obtain ⟨c, hc, hstart⟩ := (Option.any_eq_true ..).1 hstart
  obtain ⟨cs, hcs⟩ := List.head?_eq_some_iff.1 hc
  rw [List.all_eq_true, hcs, List.forall_mem_cons] at hs
  refine ⟨⟨c, cs, hstart, hs.2, hcs⟩, fun p hp d hd hp' => hbegins p hp ?_⟩
  rwa [hd, Option.any_some]

theorem ends_of_not_word {shape : Shape} (h : ∀ s, shape ≠ word s) (rest : List Char) :
    shape.Ends rest :=
  fun s hs => absurd hs (h s)

theorem ends_name (rest : List Char) : name.Ends rest :=
  ends_of_not_word (by simp) rest

theorem ends_of_length? {shape : Shape} {w rest : List Char}
    (h : shape.length? (w ++ rest) = some w.length) : shape.Ends rest := by
  rintro s rfl c hc
  rw [length?] at h
  split at h
  · next hs =>
    have hend := (Bool.and_eq_true_iff.1 hs).2
    rw [Option.some.inj h, List.drop_left, hc] at hend
    simpa using hend
  · cases h

theorem length?_quoted_append {w : List Char} (h : quoted.Matches w) (rest : List Char) :
    quoted.length? (w ++ rest) = some w.length := by
  obtain ⟨body, hbody, rfl⟩ := h
  exact congrArg (Option.map (· + 1)) (closingLength?_append hbody rest)

theorem length_le_of_length? {shape : Shape} {cs u rest : List Char} {n : Nat}
    (h : shape.length? cs = some n) (hu : shape.Matches u) (hcs : cs = u ++ rest)
    (hends : shape.Ends rest) : u.length ≤ n := by
  obtain ⟨m, hm, hle⟩ := length?_append hu hends
  rw [← hcs, h] at hm
  cases hm
  exact hle

end Shape

namespace Token

/-- Whatever solid text is at the start of the second text is at the start of the first one, too. -/
def Loosens (cs ds : List Char) : Prop :=
  ∀ u, (∀ c ∈ u, isSolid c) → u <+: ds → u <+: cs

theorem Loosens.append {cs ds : List Char} (h : Loosens cs ds) (w : List Char) :
    Loosens (w ++ cs) (w ++ ds) := by
  intro u hu hprefix
  rcases List.prefix_or_prefix_of_prefix hprefix (List.prefix_append w ds) with huw | ⟨v, rfl⟩
  · exact huw.trans (List.prefix_append w cs)
  · rw [List.prefix_append_right_inj] at hprefix ⊢
    exact h v (fun c hc => hu c (List.mem_append_right w hc)) hprefix

theorem Loosens.ends {cs ds : List Char} (h : Loosens cs ds) {shape : Shape}
    (hends : shape.Ends cs) : shape.Ends ds := by
  intro s hs c hc
  rw [← Bool.not_eq_true]
  intro hword
  obtain ⟨ds, rfl⟩ := List.head?_eq_some_iff.1 hc
  have hsolid : ∀ d ∈ [c], isSolid d :=
    List.forall_mem_singleton.2 (Text.isSolid_of_isWordChar hword)
  obtain ⟨rest, rfl⟩ := h [c] hsolid ⟨ds, rfl⟩
  have hfalse := hends s hs c rfl
  rw [hword] at hfalse
  cases hfalse

variable {shape : Shape} {k : Kind} {w cs ds : List Char}

theorem Decides.not_begins_semicolon (h : Decides shape k (w ++ cs) w.length)
    (hk : k ≠ .semicolon) : shape.begins ';' = false := by
  have hall : ∀ p ∈ Shape.table, p.2 ≠ .semicolon → p.1.begins ';' = false := by decide
  exact hall _ h.mem_table hk

theorem Decides.fits_loosened (h : Decides shape k (w ++ cs) w.length) (hk : k ≠ .semicolon)
    (hloose : Loosens cs ds) : shape.length? (w ++ ds) = some w.length := by
  have hw := h.matches_left
  have hends := hloose.ends (Shape.ends_of_length? h.fits)
  rcases Shape.table_solid _ h.mem_table with hs | hs | hs
  · dsimp only at hs
    subst hs
    exact absurd (h.not_begins_semicolon hk) (by decide)
  · dsimp only at hs
    subst hs
    exact Shape.length?_quoted_append hw ds
  · by_cases hword : ∃ s, shape = .word s
    · obtain ⟨s, rfl⟩ := hword
      cases hw
      rw [Shape.length?_word_append s (hends s rfl), String.length_toList]
    · rw [not_exists] at hword
      obtain ⟨n, hn, hle⟩ := Shape.length?_append hw hends
      obtain ⟨u, rest, hu, rfl, hmatch⟩ := Shape.length?_matches hn
      obtain ⟨rest', hrest⟩ := hloose.append w u (hmatch.solid hs) ⟨rest, hu.symm⟩
      have hle' := Shape.length_le_of_length? h.fits hmatch hrest.symm
        (Shape.ends_of_not_word hword rest')
      rw [hn, Nat.le_antisymm hle' hle]

/-- Where a name is found, no name character is behind it. -/
theorem Decides.name_maximal (h : Decides .name k (w ++ cs) w.length) :
    ∀ c ∈ cs.head?, isNameChar c = false := by
  intro c hc
  obtain ⟨cs, rfl⟩ := List.head?_eq_some_iff.1 hc
  obtain ⟨d, ds, hd, hds, rfl⟩ := h.matches_left
  rw [← Bool.not_eq_true]
  intro hname
  have hlonger : Shape.name.Matches (d :: (ds ++ [c])) := by
    refine ⟨d, ds ++ [c], hd, ?_, rfl⟩
    exact List.forall_mem_append.2 ⟨hds, List.forall_mem_singleton.2 hname⟩
  have happend : d :: ds ++ c :: cs = d :: (ds ++ [c]) ++ cs := by simp
  have hle := Shape.length_le_of_length? h.fits hlonger happend (Shape.ends_name cs)
  rw [List.length_cons, List.length_append, List.length_singleton, List.length_cons] at hle
  omega

/-- A word operator that does not fit because of the character behind it does not come to fit. -/
theorem Decides.word_loosened (h : Decides shape k (w ++ cs) w.length)
    (hnext : ∀ c ∈ cs.head?, isWordChar c → isNameChar c) {s : String} {k' : Kind}
    (hp : (Shape.word s, k') ∈ Shape.table) (hnone : (Shape.word s).length? (w ++ cs) = none)
    {rest rest' : List Char} (hds : w ++ ds = s.toList ++ rest) (hcs : w ++ cs = s.toList ++ rest')
    (hends : (Shape.word s).Ends rest) : (Shape.word s).Ends rest' := by
  obtain ⟨hname, hbegins⟩ := Shape.table_word hp
  -- The lexeme begins like the operator, so it is a name, and a name takes all of the operator.
  obtain rfl : shape = .name := by
    obtain ⟨c, w, rfl, hc⟩ := Shape.table_begins h.mem_table h.matches_left
    obtain ⟨d, ds, -, -, hs⟩ := hname
    have hhead : c ∈ s.toList.head? := by
      rw [hs] at hcs ⊢
      rw [(List.cons.inj hcs).1]
      rfl
    rcases hbegins _ h.mem_table c hhead hc with hshape | hshape
    · rw [← hshape, h.fits] at hnone
      cases hnone
    · exact hshape
  have hle := Shape.length_le_of_length? h.fits hname hcs (Shape.ends_name rest')
  obtain ⟨v, rfl⟩ := List.prefix_of_prefix_length_le ⟨rest', hcs.symm⟩ ⟨cs, rfl⟩ hle
  rw [List.append_assoc] at hds hcs
  obtain rfl := List.append_cancel_left hds
  obtain rfl := List.append_cancel_left hcs
  cases v with
  | cons d v => exact hends
  | nil =>
    intro _ _ c hc
    rw [← Bool.not_eq_true]
    intro hword
    have hchar := h.name_maximal c hc
    rw [hnext c hc hword] at hchar
    cases hchar

/-- A shape that did not fit does not come to fit when the text behind a lexeme is loosened. -/
theorem Decides.none_loosened (h : Decides shape k (w ++ cs) w.length) (hk : k ≠ .semicolon)
    (hloose : Loosens cs ds) (hnext : ∀ c ∈ cs.head?, isWordChar c → isNameChar c)
    {p : Shape × Kind} (hp : p ∈ Shape.table) (hnone : p.1.length? (w ++ cs) = none) :
    p.1.length? (w ++ ds) = none := by
  obtain ⟨c, w, rfl, hbegins⟩ := Shape.table_begins h.mem_table h.matches_left
  cases hfits : p.1.length? (c :: w ++ ds) with
  | none => rfl
  | some n =>
    exfalso
    obtain ⟨u, rest, hds, rfl, hu⟩ := Shape.length?_matches hfits
    obtain ⟨d, u, rfl, hd⟩ := Shape.table_begins hp hu
    obtain rfl : c = d := (List.cons.inj hds).1
    rcases Shape.table_solid _ hp with hs | hs | hs
    · rw [hs] at hd
      have hc : ';' = c := by simpa [Shape.begins] using hd
      rw [← hc, h.not_begins_semicolon hk] at hbegins
      cases hbegins
    · rw [hs] at hd hnone
      have hall : ∀ p ∈ Shape.table, p.1.begins '"' → p.1 = .quoted := by decide
      have hc : c = '"' := by simpa [Shape.begins] using hd
      rw [← hall _ h.mem_table (hc ▸ hbegins), h.fits] at hnone
      cases hnone
    · obtain ⟨rest', hcs⟩ := hloose.append (c :: w) _ (hu.solid hs) ⟨rest, hds.symm⟩
      have hends : p.1.Ends rest' := by
        obtain ⟨shape', k'⟩ := p
        by_cases hword : ∃ s, shape' = .word s
        · obtain ⟨s, rfl⟩ := hword
          have hends := Shape.ends_of_length? (hds ▸ hfits)
          rw [show c :: u = s.toList from hu] at hds hcs
          exact h.word_loosened hnext hp hnone hds hcs.symm hends
        · exact Shape.ends_of_not_word (not_exists.1 hword) rest'
      exact Shape.length?_append_ne_none hu hends (hcs ▸ hnone)

/-- A lexeme stays what it is when the text behind it is loosened, as long as nothing but a name
goes on with a word character. -/
theorem lexeme_loosened {kind : Kind} (h : lexeme (w ++ cs) = (kind, w.length))
    (hinvalid : kind ≠ .invalid) (hsemicolon : kind ≠ .semicolon)
    (hnext : ∀ c ∈ cs.head?, isWordChar c → isNameChar c) (hloose : Loosens cs ds) :
    lexeme (w ++ ds) = (kind, w.length) := by
  cases hl : lexeme? (w ++ cs) with
  | none =>
    rw [lexeme_eq_of_none hl] at h
    exact absurd (Prod.mk.inj h).1.symm hinvalid
  | some p =>
    rw [lexeme_eq_of_lexeme? hl] at h
    subst h
    obtain ⟨shape, k, hdecides, hkind⟩ := lexeme?_eq_some_iff.1 hl
    rw [List.take_left] at hkind
    have hk : k ≠ .semicolon := by
      rintro rfl
      exact hsemicolon hkind
    obtain ⟨before, after, htable, hbefore⟩ := hdecides.first
    apply lexeme_eq_of_lexeme?
    rw [lexeme?_eq_some_iff, List.take_left]
    refine ⟨shape, k, ⟨hdecides.fits_loosened hk hloose, before, after, htable, ?_⟩, hkind⟩
    intro p hp
    have hmem : p ∈ Shape.table := htable ▸ List.mem_append_left _ hp
    exact hdecides.none_loosened hk hloose hnext hmem (hbefore p hp)

end Token

end ArmLang
