import ArmLang.Number.Numeral
import ArmLang.Proofs.Text.Classes
import ArmLang.Proofs.Token.Language

namespace ArmLang

open Shape (IsDigits Exponent)
open Text (isDigit)

theorem Shape.Exponent.isDigit_head {e : List Char} (h : Exponent e) :
    ∀ c ∈ e.head?, isDigit c = false := by
  cases h with
  | missing => exact nofun
  | signed hmark =>
    rintro c ⟨⟩
    obtain rfl | rfl := hmark
    · rfl
    · rfl

namespace Number

variable {ds fs e : List Char}

theorem natural?_of_isDigits (h : IsDigits ds) : natural? ds = some (digitsValue ds) :=
  if_pos ⟨h.1, List.all_eq_true.2 h.2⟩

theorem splitSign_of_isDigit {c : Char} (hc : isDigit c) (cs : List Char) :
    splitSign (c :: cs) = (false, c :: cs) := by
  unfold splitSign
  split
  · next h =>
    cases h
    cases hc
  · next h =>
    cases h
    cases hc
  · rfl

/-- Digits without a sign are read as their value whatever their number is, unless it takes more
than 63 bits. -/
theorem integer?_of_isDigits {s : String} (h : IsDigits s.toList) :
    integer? s =
      if digitsValue s.toList < Nat.pow 2 63 then some (Int64.ofNat (digitsValue s.toList))
      else none := by
  obtain ⟨c, cs, hs⟩ := List.exists_cons_of_ne_nil h.1
  rw [integer?, hs, splitSign_of_isDigit (h.2 c (hs ▸ List.mem_cons_self)), ← hs]
  dsimp only
  rw [natural?_of_isDigits h]
  rfl

theorem splitSign_of_mem {sign : List Char} (hsign : sign ∈ [[], ['+'], ['-']]) (h : IsDigits ds) :
    (splitSign (sign ++ ds)).2 = ds := by
  obtain ⟨c, cs, rfl⟩ := List.exists_cons_of_ne_nil h.1
  have hnone := splitSign_of_isDigit (h.2 c List.mem_cons_self) cs
  simp only [List.mem_cons, List.not_mem_nil, or_false] at hsign
  obtain rfl | rfl | rfl := hsign
  · rw [List.nil_append, hnone]
  · rfl
  · rfl

theorem isSome_exponentPart? (h : Exponent e) : (exponentPart? e).isSome := by
  cases h with
  | missing => rfl
  | signed hmark hsign hds =>
    rw [exponentPart?, if_pos hmark]
    dsimp only
    rw [splitSign_of_mem hsign hds, natural?_of_isDigits hds]
    rfl

theorem takeWhile_isDigit (h : ∀ c ∈ ds, isDigit c) (rest : List Char)
    (hrest : ∀ c ∈ rest.head?, isDigit c = false) :
    (ds ++ rest).takeWhile isDigit = ds ∧ (ds ++ rest).dropWhile isDigit = rest := by
  rw [List.takeWhile_append_of_pos h, List.dropWhile_append_of_pos h]
  cases rest with
  | nil => simp
  | cons c rest => simp [hrest c rfl]

theorem unsignedDecimal?_whole (h : IsDigits ds) :
    unsignedDecimal? ds = some (nearestReal (digitsValue ds) 0) := by
  obtain ⟨htake, hdrop⟩ := takeWhile_isDigit h.2 [] nofun
  rw [List.append_nil] at htake hdrop
  rw [unsignedDecimal?, htake, hdrop]
  simp [h.1, exponentPart?]

theorem unsignedDecimal?_fraction (hds : IsDigits ds) (hfs : IsDigits fs) (he : Exponent e) :
    unsignedDecimal? (ds ++ '.' :: (fs ++ e)) =
      (exponentPart? e).map fun x => nearestReal (digitsValue (ds ++ fs)) (x - fs.length) := by
  have hpoint : ∀ c ∈ ('.' :: (fs ++ e)).head?, isDigit c = false := by
    rintro c ⟨⟩
    rfl
  obtain ⟨htake, hdrop⟩ := takeWhile_isDigit hds.2 ('.' :: (fs ++ e)) hpoint
  obtain ⟨htake', hdrop'⟩ := takeWhile_isDigit hfs.2 e he.isDigit_head
  simp only [unsignedDecimal?, htake, hdrop, htake', hdrop']
  exact if_neg fun h => hds.1 h.1

theorem toLower_of_isDigit {c : Char} (hc : isDigit c) : c.toLower = c :=
  Text.of_ascii (p := fun c => isDigit c → c.toLower = c) (by decide)
    (Text.toNat_lt_of_isNameChar (by simp [Text.isNameChar, hc])) hc

/-- What begins with a digit is no name of infinity or of no number. -/
theorem real?_of_isDigit {s : String} {c : Char} {cs : List Char} (hs : s.toList = c :: cs)
    (hc : isDigit c) : real? s = unsignedDecimal? s.toList := by
  have hname (d : Char) (ds : List Char) (hd : isDigit d = false) :
      String.ofList ((c :: cs).map Char.toLower) ≠ String.ofList (d :: ds) := by
    intro h
    have hhead := (List.cons.inj (String.ofList_injective h)).1
    rw [toLower_of_isDigit hc] at hhead
    rw [hhead, hd] at hc
    cases hc
  have hinf := hname 'i' ['n', 'f'] rfl
  have hinfinity := hname 'i' ['n', 'f', 'i', 'n', 'i', 't', 'y'] rfl
  have hnan := hname 'n' ['a', 'n'] rfl
  rw [real?, hs, splitSign_of_isDigit hc]
  simp only [unsignedReal?]
  rw [if_neg (not_or.2 ⟨hinf, hinfinity⟩), if_neg hnan]
  simp

/-- Whatever is scanned as an integer is a real number too. -/
theorem isSome_real?_of_integer {s : String} (h : Shape.integer.Matches s.toList) :
    (real? s).isSome := by
  obtain ⟨c, cs, hs⟩ := List.exists_cons_of_ne_nil h.1
  rw [real?_of_isDigit hs (h.2 c (hs ▸ List.mem_cons_self)), unsignedDecimal?_whole h]
  rfl

/-- Whatever is scanned as a real number is one. -/
theorem isSome_real?_of_real {s : String} (h : Shape.real.Matches s.toList) :
    (real? s).isSome := by
  obtain ⟨ds, fs, e, hds, hfs, he, hs⟩ := h
  obtain ⟨c, cs, rfl⟩ := List.exists_cons_of_ne_nil hds.1
  rw [real?_of_isDigit hs (hds.2 c List.mem_cons_self), hs, unsignedDecimal?_fraction hds hfs he,
    Option.isSome_map]
  exact isSome_exponentPart? he

end Number

end ArmLang
