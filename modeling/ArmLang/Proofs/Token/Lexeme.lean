import ArmLang.Proofs.Token.Table
import ArmLang.Token.Scan

namespace ArmLang.Token

open Text (isBlank)

/-- The shape that the lexeme at the start of a text has: it fits, and none before it in the table
does. -/
structure Decides (shape : Shape) (k : Kind) (cs : List Char) (n : Nat) : Prop where
  fits : shape.length? cs = some n
  first : ∃ before after, Shape.table = before ++ (shape, k) :: after ∧
    ∀ p ∈ before, p.1.length? cs = none

theorem lexeme?_eq_some_iff {cs : List Char} {kind : Kind} {n : Nat} :
    lexeme? cs = some (kind, n) ↔
      ∃ shape k, Decides shape k cs n ∧ kind = reclassify k (cs.take n) := by
  rw [lexeme?, List.findSome?_eq_some_iff]
  constructor
  · rintro ⟨before, ⟨shape, k⟩, after, htable, hfits, hbefore⟩
    obtain ⟨m, hm, hkind⟩ := Option.map_eq_some_iff.1 hfits
    cases hkind
    refine ⟨shape, k, ⟨hm, before, after, htable, ?_⟩, rfl⟩
    exact fun p hp => Option.map_eq_none_iff.1 (hbefore p hp)
  · rintro ⟨shape, k, ⟨hfits, before, after, htable, hbefore⟩, rfl⟩
    refine ⟨before, (shape, k), after, htable, ?_, ?_⟩
    · dsimp only
      rw [hfits, Option.map_some]
    · intro p hp
      dsimp only
      rw [hbefore p hp, Option.map_none]

theorem Decides.mem_table {shape : Shape} {k : Kind} {cs : List Char} {n : Nat}
    (h : Decides shape k cs n) : (shape, k) ∈ Shape.table := by
  obtain ⟨before, after, htable, -⟩ := h.first
  rw [htable]
  exact List.mem_append_right _ List.mem_cons_self

theorem decides_of_unique {shape : Shape} {k : Kind} {cs : List Char} {n : Nat}
    (hp : (shape, k) ∈ Shape.table)
    (hother : ∀ q ∈ Shape.table, q = (shape, k) ∨ q.1.length? cs = none)
    (hfits : shape.length? cs = some n) : Decides shape k cs n := by
  obtain ⟨before, after, htable, hbefore⟩ := List.eq_append_cons_of_mem hp
  refine ⟨hfits, before, after, htable, ?_⟩
  intro q hq
  rcases hother q (htable ▸ List.mem_append_left _ hq) with rfl | hnone
  · exact absurd hq hbefore
  · exact hnone

theorem decides_of_begins {shape : Shape} {k : Kind} {c : Char} {cs : List Char} {n : Nat}
    (hp : (shape, k) ∈ Shape.table) (honly : ∀ q ∈ Shape.table, q.1.begins c → q = (shape, k))
    (hfits : shape.length? (c :: cs) = some n) : Decides shape k (c :: cs) n := by
  apply decides_of_unique hp ?_ hfits
  intro q hq
  cases hbegins : q.1.begins c with
  | true => exact .inl (honly q hq hbegins)
  | false => exact .inr (Shape.length?_eq_none_of_begins hq hbegins cs)

theorem Decides.matches {shape : Shape} {k : Kind} {cs : List Char} {n : Nat}
    (h : Decides shape k cs n) :
    ∃ c w rest, cs = c :: w ++ rest ∧ n = w.length + 1 ∧ shape.begins c ∧
      shape.Matches (c :: w) := by
  obtain ⟨w, rest, rfl, rfl, hw⟩ := Shape.length?_matches h.fits
  obtain ⟨c, w, rfl, hc⟩ := Shape.table_begins h.mem_table hw
  exact ⟨c, w, rest, rfl, rfl, hc, hw⟩

theorem Decides.matches_left {shape : Shape} {k : Kind} {w cs : List Char}
    (h : Decides shape k (w ++ cs) w.length) : shape.Matches w := by
  obtain ⟨u, rest, happend, hlength, hu⟩ := Shape.length?_matches h.fits
  rwa [(List.append_inj happend hlength).1]

/-- A name can turn out to be a reserved word; nothing else changes its kind. -/
theorem reclassify_cases (k : Kind) (cs : List Char) :
    reclassify k cs = k ∨ k = .identifier ∧ ∃ w, reclassify k cs = .keyword w := by
  unfold reclassify
  split
  · next hk =>
    split
    · next w _ => exact .inr ⟨hk, w, rfl⟩
    · exact .inl hk.symm
  · exact .inl rfl

theorem lexeme_eq_of_lexeme? {cs : List Char} {p : Kind × Nat} (h : lexeme? cs = some p) :
    lexeme cs = p := by
  rw [lexeme, h, Option.getD_some]

theorem lexeme_eq_of_none {cs : List Char} (h : lexeme? cs = none) :
    lexeme cs = (.invalid, (cs.takeWhile (!isBlank ·)).length) := by
  rw [lexeme, h, Option.getD_none]

theorem lexeme_kind (cs : List Char) :
    (lexeme cs).1 = .invalid ∨ (∃ w, (lexeme cs).1 = .keyword w) ∨
      ∃ p ∈ Shape.table, (lexeme cs).1 = p.2 := by
  cases h : lexeme? cs with
  | none => exact .inl (by rw [lexeme_eq_of_none h])
  | some p =>
    obtain ⟨shape, k, hdecides, hkind⟩ := lexeme?_eq_some_iff.1 h
    rw [lexeme_eq_of_lexeme? h, hkind]
    rcases reclassify_cases k (cs.take p.2) with hk | ⟨-, w, hk⟩
    · exact .inr (.inr ⟨(shape, k), hdecides.mem_table, hk⟩)
    · exact .inr (.inl ⟨w, hk⟩)

theorem lexeme_not_end (cs : List Char) : (lexeme cs).1 ≠ .lineEnd ∧ (lexeme cs).1 ≠ .fileEnd := by
  have htable : ∀ p ∈ Shape.table, p.2 ≠ .lineEnd ∧ p.2 ≠ .fileEnd := by decide
  rcases lexeme_kind cs with h | ⟨w, h⟩ | ⟨p, hp, h⟩
  · simp [h]
  · simp [h]
  · rw [h]
    exact htable p hp

/-- A lexeme takes at least one character and no more than there are. -/
theorem lexeme_cons {c : Char} (hc : isBlank c = false) (cs : List Char) :
    ∃ kind w rest, cs = w ++ rest ∧ lexeme (c :: cs) = (kind, w.length + 1) := by
  cases h : lexeme? (c :: cs) with
  | none =>
    refine ⟨.invalid, cs.takeWhile (!isBlank ·), cs.dropWhile (!isBlank ·),
      List.takeWhile_append_dropWhile.symm, ?_⟩
    rw [lexeme_eq_of_none h, List.takeWhile_cons_of_pos (by simp [hc]), List.length_cons]
  | some p =>
    obtain ⟨shape, k, hdecides, -⟩ := lexeme?_eq_some_iff.1 h
    obtain ⟨d, w, rest, hcs, hn, -⟩ := hdecides.matches
    cases hcs
    refine ⟨p.1, w, rest, rfl, ?_⟩
    rw [lexeme_eq_of_lexeme? h, ← hn]

theorem lexeme_semicolon (cs : List Char) : lexeme (';' :: cs) = (.semicolon, 1) := rfl

theorem lexeme_eq_semicolon {cs : List Char} (h : (lexeme cs).1 = .semicolon) :
    ∃ rest, cs = ';' :: rest := by
  have htable : ∀ p ∈ Shape.table, p.2 = .semicolon → p.1 = .exact ";" := by decide
  cases hl : lexeme? cs with
  | none =>
    rw [lexeme_eq_of_none hl] at h
    cases h
  | some p =>
    obtain ⟨shape, k, hdecides, hkind⟩ := lexeme?_eq_some_iff.1 hl
    rw [lexeme_eq_of_lexeme? hl, hkind] at h
    rcases reclassify_cases k (cs.take p.2) with hk | ⟨-, w, hk⟩
    · have hshape := htable _ hdecides.mem_table (hk.symm.trans h)
      obtain ⟨c, w, rest, rfl, -, -, hw⟩ := hdecides.matches
      dsimp only at hshape
      subst hshape
      cases hw
      exact ⟨rest, rfl⟩
    · rw [hk] at h
      cases h

/-- The characters past ASCII begin no lexeme. -/
theorem lexeme?_eq_none_of_wide {c : Char} (h : 128 ≤ c.toNat) (cs : List Char) :
    lexeme? (c :: cs) = none := by
  cases hl : lexeme? (c :: cs) with
  | none => rfl
  | some p =>
    obtain ⟨shape, k, hdecides, -⟩ := lexeme?_eq_some_iff.1 hl
    obtain ⟨d, w, rest, hcs, -, hbegins, -⟩ := hdecides.matches
    cases hcs
    have hlt := Shape.begins_ascii hdecides.mem_table hbegins
    omega

/-- A lexeme does not end with a blank. -/
theorem lexeme_last {kind : Kind} {w cs : List Char} (h : lexeme (w ++ cs) = (kind, w.length)) :
    ∀ c ∈ w.getLast?, isBlank c = false := by
  intro c hlast
  cases hl : lexeme? (w ++ cs) with
  | none =>
    rw [lexeme_eq_of_none hl] at h
    have htake := List.append_inj (List.takeWhile_append_dropWhile ..) (Prod.mk.inj h).2
    have hall := List.all_eq_true.1 (List.all_takeWhile (p := (!isBlank ·)) (l := w ++ cs))
    rw [htake.1] at hall
    simpa using hall c (List.mem_of_getLast? hlast)
  | some p =>
    rw [lexeme_eq_of_lexeme? hl] at h
    subst h
    obtain ⟨shape, k, hdecides, -⟩ := lexeme?_eq_some_iff.1 hl
    have hw := hdecides.matches_left
    rcases Shape.table_solid _ hdecides.mem_table with hs | hs | hs
    · dsimp only at hs
      subst hs
      cases hw
      cases hlast
      rfl
    · dsimp only at hs
      subst hs
      obtain ⟨body, hbody, rfl⟩ := hw
      rw [List.getLast?_cons, hbody.last] at hlast
      cases hlast
      rfl
    · exact Text.not_isBlank_of_isSolid (hw.solid hs c (List.mem_of_getLast? hlast))

end ArmLang.Token
