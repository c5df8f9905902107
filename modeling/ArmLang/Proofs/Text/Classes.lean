import ArmLang.Text.Blank
import ArmLang.Text.WordChar

namespace ArmLang.Text

/-- The characters that lexemes are made of, the semicolon and what is between quotation marks
aside. -/
def isSolid (c : Char) : Bool := !isBlank c && c != ';'

theorem not_isBlank_of_isSolid {c : Char} (h : isSolid c) : isBlank c = false := by
  rw [isSolid, Bool.and_eq_true, Bool.not_eq_true'] at h
  exact h.1

/-- What holds of the code points of ASCII holds of its characters. -/
theorem of_ascii {p : Char → Prop} (h : ∀ n < 128, p (Char.ofNat n)) {c : Char}
    (hc : c.toNat < 128) : p c := by
  have hp := h c.toNat hc
  rwa [Char.ofNat_toNat] at hp

theorem isSolid_of_isNameChar {c : Char} (h : isNameChar c) : isSolid c :=
  of_ascii (p := fun c => isNameChar c → isSolid c) (by decide) (toNat_lt_of_isNameChar h) h

theorem isSolid_of_isDigit {c : Char} (h : isDigit c) : isSolid c :=
  isSolid_of_isNameChar (by simp [isNameChar, h])

theorem isNameChar_of_isNameStart {c : Char} (h : isNameStart c) : isNameChar c := by
  simp [isNameChar, h]

theorem isNameStart_of_isDigit {c : Char} (h : isDigit c) : isNameStart c = false := by
  have hlt := toNat_lt_of_isNameChar (c := c) (by simp [isNameChar, h])
  exact of_ascii (p := fun c => isDigit c → isNameStart c = false) (by decide) hlt h

def blankPoints : List Nat :=
  [9, 10, 11, 12, 13, 0x20, 0x85, 0xA0, 0x1680, 0x2000, 0x2001, 0x2002, 0x2003, 0x2004, 0x2005,
    0x2006, 0x2007, 0x2008, 0x2009, 0x200A, 0x2028, 0x2029, 0x202F, 0x205F, 0x3000]

theorem toNat_mem_blankPoints {c : Char} (h : isBlank c) : c.toNat ∈ blankPoints := by
  simp only [isBlank, Bool.or_eq_true, Bool.and_eq_true, decide_eq_true_eq, beq_iff_eq] at h
  simp only [blankPoints, List.mem_cons, List.not_mem_nil, or_false]
  omega

/-- The blanks of Unicode and its word characters have nothing in common. -/
theorem isBlank_eq_false_of_isWordChar {c : Char} (h : isWordChar c) : isBlank c = false := by
  have hall : ∀ n ∈ blankPoints, isWordChar (Char.ofNat n) = false := by decide +kernel
  rw [← Bool.not_eq_true]
  intro hblank
  have hc := hall c.toNat (toNat_mem_blankPoints hblank)
  rw [Char.ofNat_toNat, h] at hc
  cases hc

theorem isNameChar_eq_false {c : Char} (h : isWordChar c = false) : isNameChar c = false := by
  rw [← Bool.not_eq_true] at h ⊢
  exact mt isWordChar_of_isNameChar h

theorem isSolid_of_isWordChar {c : Char} (h : isWordChar c) : isSolid c := by
  have hsemicolon : c ≠ ';' := by
    rintro rfl
    exact absurd h (by decide)
  simp [isSolid, isBlank_eq_false_of_isWordChar h, hsemicolon]

end ArmLang.Text
