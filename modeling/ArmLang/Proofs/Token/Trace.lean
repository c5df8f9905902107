import ArmLang.Proofs.Token.Lexeme

namespace ArmLang.Token

open Text (isBlank isNameChar isWordChar)

/-- How a line is gone through: from a column on, these are the lexemes of the characters, and the
scan stops at the last column. -/
inductive Scans (line : Nat) : Nat → List Char → List Token → Nat → Prop
  | done {column : Nat} : Scans line column [] [] column
  | blank {column stop : Nat} {c : Char} {cs : List Char} {ts : List Token} : isBlank c →
    Scans line (column + 1) cs ts stop → Scans line column (c :: cs) ts stop
  | comment {column : Nat} {cs : List Char} :
    Scans line column (';' :: cs) [⟨.semicolon, ";", ⟨line, column⟩⟩] (column + 1)
  | lexeme {column stop : Nat} {kind : Kind} {c : Char} {w cs : List Char} {ts : List Token} :
    isBlank c = false → kind ≠ .semicolon →
    Token.lexeme (c :: w ++ cs) = (kind, (c :: w).length) →
    Scans line (column + (c :: w).length) cs ts stop →
    Scans line column (c :: w ++ cs)
      (⟨kind, String.ofList (c :: w), ⟨line, column⟩⟩ :: ts) stop

theorem scanLine_nil (line column : Nat) :
    scanLine line column [] = [⟨.lineEnd, "\n", ⟨line, column⟩⟩] := by
  rw [scanLine]

theorem scanLine_blank (line column : Nat) {c : Char} (hc : isBlank c) (cs : List Char) :
    scanLine line column (c :: cs) = scanLine line (column + 1) cs := by
  rw [scanLine, if_pos hc]

theorem scanLine_comment (line column : Nat) (cs : List Char) :
    scanLine line column (';' :: cs) =
      [⟨.semicolon, ";", ⟨line, column⟩⟩, ⟨.lineEnd, "\n", ⟨line, column + 1⟩⟩] := by
  rw [scanLine, if_neg (by decide), lexeme_semicolon]
  rfl

theorem scanLine_lexeme (line column : Nat) {kind : Kind} {c : Char} {w cs : List Char}
    (hc : isBlank c = false) (hkind : kind ≠ .semicolon)
    (h : lexeme (c :: w ++ cs) = (kind, (c :: w).length)) :
    scanLine line column (c :: w ++ cs) =
      ⟨kind, String.ofList (c :: w), ⟨line, column⟩⟩ ::
        scanLine line (column + (c :: w).length) cs := by
  have htake : (c :: (w ++ cs)).take (w.length + 1) = c :: w := by
    rw [List.take_succ_cons, List.take_left]
  rw [List.cons_append, List.length_cons] at h ⊢
  rw [scanLine, if_neg (by simp [hc]), h]
  dsimp only
  rw [if_neg hkind, htake, Nat.add_sub_cancel, List.drop_left]

theorem Scans.scanLine_eq {line column stop : Nat} {cs : List Char} {ts : List Token}
    (h : Scans line column cs ts stop) :
    scanLine line column cs = ts ++ [⟨.lineEnd, "\n", ⟨line, stop⟩⟩] := by
  induction h with
  | done => exact scanLine_nil ..
  | blank hc _ ih => rw [scanLine_blank _ _ hc, ih]
  | comment => exact scanLine_comment ..
  | lexeme hc hkind hlexeme _ ih => rw [scanLine_lexeme _ _ hc hkind hlexeme, ih, List.cons_append]

theorem exists_scans (line column : Nat) (cs : List Char) :
    ∃ ts stop, Scans line column cs ts stop := by
  match cs with
  | [] => exact ⟨[], column, .done⟩
  | c :: cs =>
    cases hc : isBlank c with
    | true =>
      obtain ⟨ts, stop, h⟩ := exists_scans line (column + 1) cs
      exact ⟨ts, stop, .blank hc h⟩
    | false =>
      obtain ⟨kind, w, rest, rfl, hlexeme⟩ := lexeme_cons hc cs
      by_cases hkind : kind = .semicolon
      · obtain ⟨cs, hcs⟩ := lexeme_eq_semicolon (by rw [hlexeme, hkind])
        rw [hcs]
        exact ⟨_, _, .comment⟩
      · obtain ⟨ts, stop, h⟩ := exists_scans line (column + (c :: w).length) rest
        exact ⟨_, stop, .lexeme hc hkind hlexeme h⟩
termination_by cs.length

/-- The lexemes of a line are told apart from the marks that end it and the text. -/
theorem Scans.kind {line column stop : Nat} {cs : List Char} {ts : List Token}
    (h : Scans line column cs ts stop) : ∀ t ∈ ts, t.kind ≠ .lineEnd ∧ t.kind ≠ .fileEnd := by
  induction h with
  | done => exact fun _ h => nomatch h
  | blank _ _ ih => exact ih
  | comment =>
    intro t ht
    cases List.mem_singleton.1 ht
    exact ⟨nofun, nofun⟩
  | @lexeme _ _ _ c w cs _ _ _ hlexeme _ ih =>
    intro t ht
    rcases List.mem_cons.1 ht with rfl | ht
    · have hend := lexeme_not_end (c :: w ++ cs)
      rwa [hlexeme] at hend
    · exact ih t ht

/-- Where no token is invalid, only a name goes on with a word character. -/
theorem isNameChar_of_scanLine {line column : Nat} {cs : List Char}
    (h : ∀ t ∈ scanLine line column cs, t.kind ≠ .invalid) :
    ∀ c ∈ cs.head?, isWordChar c → isNameChar c := by
  intro c hc hword
  obtain ⟨cs, rfl⟩ := List.head?_eq_some_iff.1 hc
  by_cases hwide : c.toNat < 128
  · rwa [Text.isWordChar, if_pos hwide] at hword
  · have hblank := Text.isBlank_eq_false_of_isWordChar hword
    have hnone := lexeme?_eq_none_of_wide (Nat.le_of_not_lt hwide) cs
    obtain ⟨kind, w, rest, rfl, hlexeme⟩ := lexeme_cons hblank cs
    obtain rfl : kind = .invalid := by
      rw [lexeme_eq_of_none hnone] at hlexeme
      exact (Prod.mk.inj hlexeme).1.symm
    have hscan := scanLine_lexeme line column hblank (by decide) hlexeme
    exact absurd rfl (h _ (hscan ▸ List.mem_cons_self))

theorem Scans.valid {line column stop : Nat} {cs : List Char} {ts : List Token}
    (h : Scans line column cs ts stop) (hvalid : ∀ t ∈ ts, t.kind ≠ .invalid) :
    ∀ t ∈ scanLine line column cs, t.kind ≠ .invalid := by
  rw [h.scanLine_eq, List.forall_mem_append]
  exact ⟨hvalid, List.forall_mem_singleton.2 nofun⟩

/-- Each lexeme of a line is read where it stands, and what is behind it is gone through next. -/
theorem Scans.place {line column stop : Nat} {cs : List Char} {ts : List Token}
    (h : Scans line column cs ts stop) : ∀ t ∈ ts, ∃ front rest,
    cs = front ++ (t.text.toList ++ rest) ∧ t.location = ⟨line, column + front.length⟩ ∧
    Token.lexeme (t.text.toList ++ rest) = (t.kind, t.text.toList.length) ∧
    (t.kind ≠ .semicolon →
      ∃ us, Scans line (t.location.column + t.text.toList.length) rest us stop ∧ us ⊆ ts) := by
  induction h with
  | done => exact List.forall_mem_nil _
  | @blank column _ c _ _ _ _ ih =>
    intro t ht
    obtain ⟨front, rest, rfl, hlocation, hplace⟩ := ih t ht
    refine ⟨c :: front, rest, rfl, ?_, hplace⟩
    rw [hlocation, List.length_cons, Nat.add_right_comm, Nat.add_assoc]
  | @comment _ cs =>
    have htext : (";" : String).toList = [';'] := by decide
    rw [List.forall_mem_singleton, htext]
    exact ⟨[], cs, rfl, rfl, lexeme_semicolon cs, fun hkind => absurd rfl hkind⟩
  | @lexeme column _ _ c w cs us _ hkind hlexeme h ih =>
    refine List.forall_mem_cons.2 ⟨?_, ?_⟩
    · rw [String.toList_ofList]
      exact ⟨[], cs, rfl, rfl, hlexeme, fun _ => ⟨us, h, List.subset_cons_self ..⟩⟩
    · intro t ht
      obtain ⟨front, rest, rfl, hlocation, hlexeme', hrest⟩ := ih t ht
      refine ⟨c :: w ++ front, rest, by rw [List.append_assoc], ?_, hlexeme', ?_⟩
      · rw [hlocation, List.length_append, Nat.add_assoc]
      · intro hkind'
        obtain ⟨vs, hvs, hsubset⟩ := hrest hkind'
        exact ⟨vs, hvs, List.subset_cons_of_subset _ hsubset⟩

/-- A token of numbered lines is a mark or a lexeme of the line with its number. -/
theorem mem_scanLines {first : Nat} {ls : List (List Char)} {t : Token}
    (h : t ∈ scanLines first ls) :
    t.kind = .lineEnd ∧ t.text = "\n" ∨ t.kind = .fileEnd ∧ t.text = "" ∨
      ∃ i l ts stop, ls[i]? = some l ∧ Scans (first + i) 1 l ts stop ∧ t ∈ ts ∧
        ts ⊆ scanLines first ls := by
  induction ls generalizing first with
  | nil =>
    cases List.mem_singleton.1 h
    exact .inr (.inl ⟨rfl, rfl⟩)
  | cons l ls ih =>
    obtain ⟨ts, stop, hl⟩ := exists_scans first 1 l
    rw [scanLines, hl.scanLine_eq] at h ⊢
    rcases List.mem_append.1 h with h | h
    · rcases List.mem_append.1 h with h | h
      · refine .inr (.inr ⟨0, l, ts, stop, rfl, hl, h, ?_⟩)
        rw [List.append_assoc]
        exact List.subset_append_left ..
      · cases List.mem_singleton.1 h
        exact .inl ⟨rfl, rfl⟩
    · rcases ih h with hmark | hmark | ⟨i, m, us, stop', hm, hscans, ht, hsubset⟩
      · exact .inl hmark
      · exact .inr (.inl hmark)
      · rw [Nat.add_assoc, Nat.add_comm 1] at hscans
        exact .inr (.inr ⟨i + 1, m, us, stop', hm, hscans, ht,
          List.subset_append_of_subset_right _ hsubset⟩)

end ArmLang.Token
