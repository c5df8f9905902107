import ArmLang.Token.Shape
import Mathlib.Data.List.Basic

namespace ArmLang.Shape

open Text (isDigit isNameStart isNameChar isWordChar)

def IsDigits (ds : List Char) : Prop := ds ≠ [] ∧ ∀ c ∈ ds, isDigit c

inductive Exponent : List Char → Prop
  | missing : Exponent []
  | signed {mark : Char} {sign ds : List Char} : mark = 'e' ∨ mark = 'E' →
    sign ∈ [[], ['+'], ['-']] → IsDigits ds → Exponent (mark :: (sign ++ ds))

inductive Closing : List Char → Prop
  | close : Closing ['"']
  | plain {c : Char} {cs : List Char} : c ≠ '"' → c ≠ '\\' → Closing cs → Closing (c :: cs)
  | escape {c : Char} {cs : List Char} : c ≠ '\n' → Closing cs → Closing ('\\' :: c :: cs)

/-- The pieces of text that have a shape, whatever follows them. -/
def Matches : Shape → List Char → Prop
  | exact s, w | word s, w => w = s.toList
  | numbered s, w => ∃ ds, IsDigits ds ∧ w = s.toList ++ (ds ++ [']'])
  | real, w => ∃ ds fs e, IsDigits ds ∧ IsDigits fs ∧ Exponent e ∧ w = ds ++ '.' :: (fs ++ e)
  | integer, w => IsDigits w
  | quoted, w => ∃ body, Closing body ∧ w = '"' :: body
  | name, w => ∃ c cs, isNameStart c ∧ (∀ d ∈ cs, isNameChar d) ∧ w = c :: cs

theorem digitCount_append {ds : List Char} (h : ∀ c ∈ ds, isDigit c) (rest : List Char) :
    digitCount (ds ++ rest) = ds.length + digitCount rest := by
  rw [digitCount, List.takeWhile_append_of_pos h, List.length_append, digitCount]

theorem digitCount_cons {c : Char} (h : isDigit c = false) (rest : List Char) :
    digitCount (c :: rest) = 0 := by
  rw [digitCount, List.takeWhile_cons_of_neg (by simp [h]), List.length_nil]

/-- Text begins with the digits that are counted. -/
theorem exists_digits (cs : List Char) :
    ∃ ds rest, cs = ds ++ rest ∧ digitCount cs = ds.length ∧ ∀ c ∈ ds, isDigit c := by
  refine ⟨cs.takeWhile isDigit, cs.dropWhile isDigit, List.takeWhile_append_dropWhile.symm, rfl, ?_⟩
  exact List.all_eq_true.1 List.all_takeWhile

theorem isDigits_of_length_pos {ds : List Char} (hpos : ds.length ≠ 0) (h : ∀ c ∈ ds, isDigit c) :
    IsDigits ds := by
  refine ⟨?_, h⟩
  rintro rfl
  exact hpos rfl

theorem IsDigits.length_pos {ds : List Char} (h : IsDigits ds) : 0 < ds.length :=
  List.length_pos_iff.2 h.1

def signLength : List Char → Nat
  | '+' :: _ | '-' :: _ => 1
  | _ => 0

theorem exponentLength_mark {mark : Char} (h : mark = 'e' ∨ mark = 'E') (cs : List Char) :
    exponentLength (mark :: cs) =
      let digits := digitCount (cs.drop (signLength cs))
      if digits = 0 then 0 else 1 + signLength cs + digits :=
  if_pos h

theorem exponentLength_other {c : Char} (h : ¬ (c = 'e' ∨ c = 'E')) (cs : List Char) :
    exponentLength (c :: cs) = 0 :=
  if_neg h

theorem exists_sign (cs : List Char) :
    ∃ sign rest, cs = sign ++ rest ∧ signLength cs = sign.length ∧ sign ∈ [[], ['+'], ['-']] := by
  unfold signLength
  split
  · next rest => exact ⟨['+'], rest, rfl, rfl, by simp⟩
  · next rest => exact ⟨['-'], rest, rfl, rfl, by simp⟩
  · exact ⟨[], cs, rfl, rfl, by simp⟩

theorem signLength_append {sign ds : List Char} (hsign : sign ∈ [[], ['+'], ['-']])
    (hds : IsDigits ds) (rest : List Char) : signLength (sign ++ (ds ++ rest)) = sign.length := by
  obtain ⟨c, ds, rfl⟩ := List.exists_cons_of_ne_nil hds.1
  have hc : isDigit c := hds.2 c List.mem_cons_self
  simp only [List.mem_cons, List.not_mem_nil, or_false] at hsign
  rcases hsign with rfl | rfl | rfl
  · unfold signLength
    split
    · next h =>
      cases (List.cons.inj h).1
      cases hc
    · next h =>
      cases (List.cons.inj h).1
      cases hc
    · rfl
  · rfl
  · rfl

theorem exponentLength_matches (cs : List Char) :
    ∃ e rest, cs = e ++ rest ∧ exponentLength cs = e.length ∧ Exponent e := by
  have hmissing (h : exponentLength cs = 0) :
      ∃ e rest, cs = e ++ rest ∧ exponentLength cs = e.length ∧ Exponent e :=
    ⟨[], cs, rfl, h, .missing⟩
  cases cs with
  | nil => exact hmissing rfl
  | cons mark cs =>
    by_cases hm : mark = 'e' ∨ mark = 'E'
    · obtain ⟨sign, rest, rfl, hs, hsign⟩ := exists_sign cs
      obtain ⟨ds, rest, rfl, hcount, hds⟩ := exists_digits rest
      have hlength := exponentLength_mark hm (sign ++ (ds ++ rest))
      rw [hs, List.drop_left, hcount] at hlength
      by_cases hpos : ds.length = 0
      · exact hmissing (hlength.trans (if_pos hpos))
      · refine ⟨mark :: (sign ++ ds), rest, by simp, ?_,
          .signed hm hsign (isDigits_of_length_pos hpos hds)⟩
        rw [hlength, if_neg hpos, List.length_cons, List.length_append]
        omega
    · exact hmissing (exponentLength_other hm cs)

theorem length_le_exponentLength {e : List Char} (h : Exponent e) (rest : List Char) :
    e.length ≤ exponentLength (e ++ rest) := by
  cases h with
  | missing => exact Nat.zero_le _
  | @signed mark sign ds hm hsign hds =>
    have hpos := hds.length_pos
    rw [List.cons_append, List.append_assoc, exponentLength_mark hm, signLength_append hsign hds,
      List.drop_left, digitCount_append hds.2]
    dsimp only
    rw [if_neg (by omega), List.length_cons, List.length_append]
    omega

theorem closingLength?_matches {cs : List Char} {n : Nat} (h : closingLength? cs = some n) :
    ∃ body rest, cs = body ++ rest ∧ n = body.length ∧ Closing body := by
  fun_induction closingLength? cs generalizing n with
  | case1 => cases h
  | case2 cs =>
    cases h
    exact ⟨['"'], cs, rfl, rfl, .close⟩
  | case3 => cases h
  | case4 cs => cases h
  | case5 c cs hc ih =>
    obtain ⟨m, hm, rfl⟩ := Option.map_eq_some_iff.1 h
    obtain ⟨body, rest, rfl, rfl, hbody⟩ := ih hm
    exact ⟨'\\' :: c :: body, rest, rfl, rfl, .escape hc hbody⟩
  | case6 c cs hquote hlast hescape ih =>
    have hslash : c ≠ '\\' := by
      intro hc
      cases cs with
      | nil => exact hlast hc rfl
      | cons d cs => exact hescape d cs hc rfl
    obtain ⟨m, hm, rfl⟩ := Option.map_eq_some_iff.1 h
    obtain ⟨body, rest, rfl, rfl, hbody⟩ := ih hm
    exact ⟨c :: body, rest, rfl, rfl, .plain hquote hslash hbody⟩

theorem closingLength?_append {body : List Char} (h : Closing body) (rest : List Char) :
    closingLength? (body ++ rest) = some body.length := by
  induction h with
  | close => rfl
  | @plain c cs hquote hescape _ ih =>
    rw [List.cons_append, closingLength?]
    · rw [ih]
      rfl
    all_goals simp_all
  | @escape c cs hc _ ih =>
    rw [List.cons_append, List.cons_append, closingLength?, if_neg hc, ih]
    rfl

theorem Closing.last {body : List Char} (h : Closing body) : body.getLast? = some '"' := by
  induction h with
  | close => rfl
  | plain _ _ _ ih => rw [List.getLast?_cons, ih]; rfl
  | escape _ _ ih => rw [List.getLast?_cons, List.getLast?_cons, ih]; rfl

theorem realLength?_dot {ds cs : List Char} (hds : ∀ c ∈ ds, isDigit c) :
    realLength? (ds ++ '.' :: cs) =
      if ds.length = 0 ∨ digitCount cs = 0 then none
      else some (ds.length + 1 + digitCount cs + exponentLength (cs.drop (digitCount cs))) := by
  have hcount : digitCount (ds ++ '.' :: cs) = ds.length := by
    rw [digitCount_append hds, digitCount_cons (by decide), Nat.add_zero]
  unfold realLength?
  dsimp only
  rw [hcount, List.drop_left]
  rfl

theorem realLength?_no_dot {cs : List Char} (h : (cs.drop (digitCount cs)).head? ≠ some '.') :
    realLength? cs = none := by
  unfold realLength?
  dsimp only
  split
  · next hdrop => simp [hdrop] at h
  · rfl

theorem realLength?_matches {cs : List Char} {n : Nat} (h : realLength? cs = some n) :
    ∃ w rest, cs = w ++ rest ∧ n = w.length ∧ Matches real w := by
  obtain ⟨ds, rest, rfl, hcount, hds⟩ := exists_digits cs
  by_cases hdot : rest.head? = some '.'
  · obtain ⟨rest, rfl⟩ := List.head?_eq_some_iff.1 hdot
    obtain ⟨fs, rest, rfl, hfraction, hfs⟩ := exists_digits rest
    rw [realLength?_dot hds, hfraction, List.drop_left] at h
    split at h
    · cases h
    · next hpos =>
      rw [not_or] at hpos
      obtain ⟨e, rest, rfl, he, hexponent⟩ := exponentLength_matches rest
      cases h
      refine ⟨ds ++ '.' :: (fs ++ e), rest, by simp, ?_, ds, fs, e,
        isDigits_of_length_pos hpos.1 hds, isDigits_of_length_pos hpos.2 hfs, hexponent, rfl⟩
      simp only [he, List.length_append, List.length_cons]
      omega
  · rw [realLength?_no_dot (by rwa [hcount, List.drop_left])] at h
    cases h

theorem realLength?_append {ds fs e : List Char} (hds : IsDigits ds) (hfs : IsDigits fs)
    (he : Exponent e) (rest : List Char) :
    ∃ n, realLength? (ds ++ '.' :: (fs ++ e) ++ rest) = some n ∧
      (ds ++ '.' :: (fs ++ e)).length ≤ n := by
  have hd := hds.length_pos
  have hf := hfs.length_pos
  rw [List.append_assoc, List.cons_append, List.append_assoc, realLength?_dot hds.2,
    digitCount_append hfs.2, if_neg (by omega)]
  refine ⟨_, rfl, ?_⟩
  have hexponent := length_le_exponentLength he rest
  rw [List.length_append, List.length_cons, List.length_append]
  cases he with
  | missing =>
    rw [List.length_nil]
    omega
  | @signed mark _ _ hm =>
    have hmark : isDigit mark = false := by
      rcases hm with rfl | rfl <;> rfl
    rw [List.cons_append] at hexponent ⊢
    rw [digitCount_cons hmark]
    simp only [Nat.add_zero, List.drop_left]
    omega

theorem length?_exact_append (s : String) (rest : List Char) :
    (exact s).length? (s.toList ++ rest) = some s.length :=
  if_pos (List.isPrefixOf_iff_prefix.2 (List.prefix_append ..))

theorem length?_word_append (s : String) {rest : List Char}
    (h : ∀ c ∈ rest.head?, isWordChar c = false) :
    (word s).length? (s.toList ++ rest) = some s.length := by
  have hs : s.toList.isPrefixOf (s.toList ++ rest) :=
    List.isPrefixOf_iff_prefix.2 (List.prefix_append ..)
  have hdrop : (s.toList ++ rest).drop s.length = rest := by
    rw [← String.length_toList, List.drop_left]
  have hend : rest.head?.any isWordChar = false := by
    cases hr : rest.head? with
    | none => rfl
    | some c => exact h c hr
  apply if_pos
  rw [hs, hdrop, hend]
  rfl

theorem length?_numbered_append (s : String) {ds : List Char} (hds : ∀ c ∈ ds, isDigit c)
    (rest : List Char) :
    (numbered s).length? (s.toList ++ (ds ++ ']' :: rest)) =
      if ds.length = 0 then none else some (s.length + ds.length + 1) := by
  have hs : s.toList.isPrefixOf (s.toList ++ (ds ++ ']' :: rest)) :=
    List.isPrefixOf_iff_prefix.2 (List.prefix_append ..)
  have hdrop : (s.toList ++ (ds ++ ']' :: rest)).drop s.length = ds ++ ']' :: rest := by
    rw [← String.length_toList, List.drop_left]
  have hcount : digitCount (ds ++ ']' :: rest) = ds.length := by
    rw [digitCount_append hds, digitCount_cons (by decide), Nat.add_zero]
  refine (if_pos hs).trans ?_
  rw [hdrop, hcount, List.drop_left]
  rfl

theorem length?_numbered_matches {s : String} {cs : List Char} {n : Nat}
    (h : (numbered s).length? cs = some n) :
    ∃ w rest, cs = w ++ rest ∧ n = w.length ∧ (numbered s).Matches w := by
  by_cases hs : s.toList <+: cs
  · obtain ⟨rest, rfl⟩ := hs
    obtain ⟨ds, rest, rfl, hcount, hds⟩ := exists_digits rest
    by_cases hbracket : rest.head? = some ']'
    · obtain ⟨rest, rfl⟩ := List.head?_eq_some_iff.1 hbracket
      rw [length?_numbered_append s hds] at h
      split at h
      · cases h
      · next hpos =>
        cases h
        refine ⟨s.toList ++ (ds ++ [']']), rest, by simp, ?_, ds,
          isDigits_of_length_pos hpos hds, rfl⟩
        simp only [List.length_append, List.length_cons, List.length_nil, String.length_toList]
        omega
    · rw [length?, if_pos (List.isPrefixOf_iff_prefix.2 (List.prefix_append ..)),
        ← String.length_toList, List.drop_left, hcount] at h
      dsimp only at h
      rw [List.drop_left] at h
      split at h
      · exact absurd rfl hbracket
      · cases h
  · rw [length?, if_neg (mt List.isPrefixOf_iff_prefix.1 hs)] at h
    cases h

/-- What is found at the start of a text has the shape. -/
theorem length?_matches {shape : Shape} {cs : List Char} {n : Nat}
    (h : shape.length? cs = some n) :
    ∃ w rest, cs = w ++ rest ∧ n = w.length ∧ shape.Matches w := by
  cases shape with
  | exact s =>
    rw [length?] at h
    split at h
    · next hs =>
      cases h
      obtain ⟨rest, rfl⟩ := List.isPrefixOf_iff_prefix.1 hs
      exact ⟨s.toList, rest, rfl, String.length_toList.symm, rfl⟩
    · cases h
  | word s =>
    rw [length?] at h
    split at h
    · next hs =>
      cases h
      obtain ⟨rest, rfl⟩ := List.isPrefixOf_iff_prefix.1 (Bool.and_eq_true_iff.1 hs).1
      exact ⟨s.toList, rest, rfl, String.length_toList.symm, rfl⟩
    · cases h
  | numbered s => exact length?_numbered_matches h
  | real => exact realLength?_matches h
  | integer =>
    obtain ⟨ds, rest, rfl, hcount, hds⟩ := exists_digits cs
    rw [length?, hcount] at h
    split at h
    · cases h
    · next hpos =>
      cases h
      exact ⟨ds, rest, rfl, rfl, isDigits_of_length_pos hpos hds⟩
  | quoted =>
    rw [length?.eq_def] at h
    dsimp only at h
    split at h
    · next rest =>
      obtain ⟨m, hm, rfl⟩ := Option.map_eq_some_iff.1 h
      obtain ⟨body, rest, rfl, rfl, hbody⟩ := closingLength?_matches hm
      exact ⟨'"' :: body, rest, rfl, rfl, body, hbody, rfl⟩
    · cases h
  | name =>
    rw [length?.eq_def] at h
    dsimp only at h
    split at h
    · next c rest =>
      split at h
      · next hc =>
        cases h
        refine ⟨c :: rest.takeWhile isNameChar, rest.dropWhile isNameChar, ?_, Nat.add_comm ..,
          c, _, hc, ?_, rfl⟩
        · rw [List.cons_append, List.takeWhile_append_dropWhile]
        · exact List.all_eq_true.1 List.all_takeWhile
      · cases h
    · cases h

def Ends (shape : Shape) (rest : List Char) : Prop :=
  ∀ s, shape = word s → ∀ c ∈ rest.head?, isWordChar c = false

/-- A piece that has the shape is found at the start of a text, if not a longer one. -/
theorem length?_append {shape : Shape} {w rest : List Char} (h : shape.Matches w)
    (hends : shape.Ends rest) : ∃ n, shape.length? (w ++ rest) = some n ∧ w.length ≤ n := by
  cases shape with
  | exact s =>
    cases h
    exact ⟨s.length, length?_exact_append s rest, Nat.le_of_eq String.length_toList⟩
  | word s =>
    cases h
    exact ⟨s.length, length?_word_append s (hends s rfl), Nat.le_of_eq String.length_toList⟩
  | numbered s =>
    obtain ⟨ds, hds, rfl⟩ := h
    have hpos := hds.length_pos
    refine ⟨s.length + ds.length + 1, ?_, ?_⟩
    · rw [List.append_assoc, List.append_assoc, List.singleton_append,
        length?_numbered_append s hds.2, if_neg (by omega)]
    · simp only [List.length_append, List.length_cons, List.length_nil, String.length_toList]
      omega
  | real =>
    obtain ⟨ds, fs, e, hds, hfs, he, rfl⟩ := h
    exact realLength?_append hds hfs he rest
  | integer =>
    have hpos := IsDigits.length_pos h
    rw [length?, digitCount_append h.2, if_neg (by omega)]
    exact ⟨_, rfl, Nat.le_add_right ..⟩
  | quoted =>
    obtain ⟨body, hbody, rfl⟩ := h
    refine ⟨body.length + 1, ?_, Nat.le_refl _⟩
    exact congrArg (Option.map (· + 1)) (closingLength?_append hbody rest)
  | name =>
    obtain ⟨c, cs, hc, hcs, rfl⟩ := h
    refine ⟨_, if_pos hc, ?_⟩
    change (c :: cs).length ≤ 1 + ((cs ++ rest).takeWhile isNameChar).length
    rw [List.takeWhile_append_of_pos hcs, List.length_append, List.length_cons]
    omega

/-- Where a piece that has the shape begins a text, one is found. -/
theorem length?_append_ne_none {shape : Shape} {w rest : List Char} (h : shape.Matches w)
    (hends : shape.Ends rest) : shape.length? (w ++ rest) ≠ none := by
  obtain ⟨n, hn, -⟩ := length?_append h hends
  rw [hn]
  exact Option.some_ne_none n

end ArmLang.Shape
