import ArmLang.Proofs.Text.Classes
import ArmLang.Proofs.Token.Language

namespace ArmLang.Shape

open Text (isDigit isNameStart isNameChar isSolid_of_isNameChar isSolid_of_isDigit
  isNameChar_of_isNameStart)

def literal? : Shape → Option String
  | exact s | word s | numbered s => some s
  | _ => none

def isSolid : Shape → Bool
  | exact s | word s | numbered s => s.toList.all Text.isSolid
  | real | integer | name => true
  | quoted => false

def begins (shape : Shape) (c : Char) : Bool :=
  match shape with
  | exact s | word s | numbered s => s.toList.head? == some c
  | real | integer => isDigit c
  | quoted => c == '"'
  | name => isNameStart c

theorem table_literal : ∀ p ∈ table, ∀ s ∈ p.1.literal?, s.toList.head?.any (·.toNat < 128) := by
  decide

theorem table_solid : ∀ p ∈ table, p.1 = exact ";" ∨ p.1 = quoted ∨ p.1.isSolid := by
  decide

theorem Exponent.solid {e : List Char} (h : Exponent e) : ∀ c ∈ e, Text.isSolid c := by
  cases h with
  | missing => simp
  | @signed mark sign ds hm hsign hds =>
    intro c hc
    simp only [List.mem_cons, List.mem_append, List.not_mem_nil, or_false] at hc hsign
    rcases hc with rfl | hc | hc
    · rcases hm with rfl | rfl <;> decide
    · rcases hsign with rfl | rfl | rfl
      · cases hc
      · cases List.mem_singleton.1 hc
        decide
      · cases List.mem_singleton.1 hc
        decide
    · exact isSolid_of_isDigit (hds.2 c hc)

theorem Matches.solid {shape : Shape} {w : List Char} (hs : shape.isSolid) (h : shape.Matches w) :
    ∀ c ∈ w, Text.isSolid c := by
  cases shape with
  | exact s | word s =>
    cases h
    exact List.all_eq_true.1 hs
  | numbered s =>
    obtain ⟨ds, hds, rfl⟩ := h
    intro c hc
    rcases List.mem_append.1 hc with hc | hc
    · exact List.all_eq_true.1 hs c hc
    · rcases List.mem_append.1 hc with hc | hc
      · exact isSolid_of_isDigit (hds.2 c hc)
      · cases List.mem_singleton.1 hc
        decide
  | real =>
    obtain ⟨ds, fs, e, hds, hfs, he, rfl⟩ := h
    intro c hc
    rcases List.mem_append.1 hc with hc | hc
    · exact isSolid_of_isDigit (hds.2 c hc)
    · rcases List.mem_cons.1 hc with rfl | hc
      · decide
      · rcases List.mem_append.1 hc with hc | hc
        · exact isSolid_of_isDigit (hfs.2 c hc)
        · exact he.solid c hc
  | integer => exact fun c hc => isSolid_of_isDigit (h.2 c hc)
  | quoted => cases hs
  | name =>
    obtain ⟨c, cs, hc, hcs, rfl⟩ := h
    intro d hd
    rcases List.mem_cons.1 hd with rfl | hd
    · exact isSolid_of_isNameChar (isNameChar_of_isNameStart hc)
    · exact isSolid_of_isNameChar (hcs d hd)

theorem Matches.begins {shape : Shape} {w : List Char} (hs : ∀ s ∈ shape.literal?, s.toList ≠ [])
    (h : shape.Matches w) : ∃ c cs, w = c :: cs ∧ shape.begins c := by
  cases shape with
  | exact s | word s =>
    cases h
    obtain ⟨c, cs, hc⟩ := List.exists_cons_of_ne_nil (hs s rfl)
    exact ⟨c, cs, hc, by simp [Shape.begins, hc]⟩
  | numbered s =>
    obtain ⟨ds, hds, rfl⟩ := h
    obtain ⟨c, cs, hc⟩ := List.exists_cons_of_ne_nil (hs s rfl)
    exact ⟨c, cs ++ (ds ++ [']']), by rw [hc, List.cons_append], by simp [Shape.begins, hc]⟩
  | real =>
    obtain ⟨ds, fs, e, hds, hfs, he, rfl⟩ := h
    obtain ⟨c, ds, rfl⟩ := List.exists_cons_of_ne_nil hds.1
    exact ⟨c, _, rfl, hds.2 c List.mem_cons_self⟩
  | integer =>
    obtain ⟨c, ds, rfl⟩ := List.exists_cons_of_ne_nil h.1
    exact ⟨c, ds, rfl, h.2 c List.mem_cons_self⟩
  | quoted =>
    obtain ⟨body, hbody, rfl⟩ := h
    exact ⟨'"', body, rfl, rfl⟩
  | name =>
    obtain ⟨c, cs, hc, hcs, rfl⟩ := h
    exact ⟨c, cs, rfl, hc⟩

theorem table_begins {shape : Shape} {k : Kind} {w : List Char} (hp : (shape, k) ∈ table)
    (h : shape.Matches w) : ∃ c cs, w = c :: cs ∧ shape.begins c := by
  apply h.begins
  intro s hs
  have hany := table_literal _ hp s hs
  intro hnil
  rw [hnil] at hany
  cases hany

theorem length?_eq_none_of_begins {shape : Shape} {k : Kind} {c : Char} (hp : (shape, k) ∈ table)
    (h : shape.begins c = false) (cs : List Char) : shape.length? (c :: cs) = none := by
  cases hlength : shape.length? (c :: cs) with
  | none => rfl
  | some n =>
    obtain ⟨w, rest, hcs, -, hw⟩ := length?_matches hlength
    obtain ⟨d, w, rfl, hd⟩ := table_begins hp hw
    cases hcs
    rw [h] at hd
    cases hd

theorem begins_ascii {shape : Shape} {k : Kind} {c : Char} (hp : (shape, k) ∈ table)
    (h : shape.begins c) : c.toNat < 128 := by
  have hliteral := table_literal _ hp
  cases shape with
  | exact s | word s | numbered s =>
    have hc : s.toList.head? = some c := by simpa [begins] using h
    have hany := hliteral s rfl
    rw [hc, Option.any_some] at hany
    exact of_decide_eq_true hany
  | real | integer => exact Text.toNat_lt_of_isNameChar (by simp_all [begins, isNameChar])
  | quoted =>
    have hc : c = '"' := by simpa [begins] using h
    subst hc
    decide
  | name => exact Text.toNat_lt_of_isNameChar (isNameChar_of_isNameStart h)

end ArmLang.Shape
