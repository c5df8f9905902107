import ArmLang.Proofs.Rendering.Program
import ArmLang.Proofs.Text.Lines
import ArmLang.Proofs.Token.Loosening
import ArmLang.Proofs.Token.Trace

namespace ArmLang

namespace Text.Quoted

open Shape (Closing)

theorem closing_escape (c : Char) {cs : List Char} (h : Closing cs) : Closing (escape c ++ cs) := by
  fun_cases escape c with
  | case1 => exact .escape (by decide) h
  | case2 => exact .escape (by decide) h
  | case3 => exact .escape (by decide) h
  | case4 => exact .escape (by decide) h
  | case5 _ hslash hquote => exact .plain hquote hslash h

theorem closing_flatMap_escape (cs : List Char) : Closing (cs.flatMap escape ++ ['"']) := by
  induction cs with
  | nil => exact .close
  | cons c cs ih =>
    rw [List.flatMap_cons, List.append_assoc]
    exact closing_escape c ih

theorem toList_encode (s : String) :
    (encode s).toList = '"' :: (s.toList.flatMap escape ++ ['"']) :=
  String.toList_ofList

theorem matches_encode (s : String) : Shape.quoted.Matches (encode s).toList :=
  ⟨_, closing_flatMap_escape s.toList, toList_encode s⟩

theorem newline_not_mem_escape (c : Char) : '\n' ∉ escape c := by
  fun_cases escape c with
  | case1 => decide
  | case2 => decide
  | case3 => decide
  | case4 => decide
  | case5 _ _ _ hnewline => exact mt List.mem_singleton.1 (Ne.symm hnewline)

theorem newline_not_mem_encode (s : String) : '\n' ∉ (encode s).toList := by
  rw [toList_encode, List.mem_cons, List.mem_append, List.mem_singleton, List.mem_flatMap]
  rintro (h | ⟨c, -, h⟩ | h)
  · cases h
  · exact newline_not_mem_escape c h
  · cases h

/-- A text that is written down stays on one line, whatever it is. -/
theorem lines_encode (s : String) : lines (encode s).toList = [(encode s).toList] := by
  have hne : (encode s).toList ≠ [] := by
    rw [toList_encode]
    exact List.cons_ne_nil _ _
  rw [lines_eq_splitLines hne, splitLines_of_newline_not_mem hne (newline_not_mem_encode s)]

end Text.Quoted

namespace Token

open Text.Quoted (encode)

theorem lexeme?_quoted {w : List Char} (h : Shape.quoted.Matches w) (rest : List Char) :
    lexeme? (w ++ rest) = some (.text, w.length) := by
  have honly : ∀ q ∈ Shape.table, q.1.begins '"' → q = (.quoted, .text) := by decide
  have hfits := Shape.length?_quoted_append h rest
  obtain ⟨body, -, rfl⟩ := h
  exact lexeme?_eq_some_iff.2
    ⟨.quoted, .text, decides_of_begins (by decide) honly hfits, rfl⟩

theorem scanLine_quoted (line column : Nat) {w : List Char} (h : Shape.quoted.Matches w)
    (rest : List Char) :
    scanLine line column (w ++ rest) =
      ⟨.text, String.ofList w, ⟨line, column⟩⟩ :: scanLine line (column + w.length) rest := by
  have hlexeme := lexeme_eq_of_lexeme? (lexeme?_quoted h rest)
  obtain ⟨body, -, rfl⟩ := h
  exact scanLine_lexeme line column (by decide) (by decide) hlexeme

theorem scan_encode (s : String) :
    scan (encode s) =
      [⟨.text, encode s, ⟨1, 1⟩⟩, ⟨.lineEnd, "\n", ⟨1, 1 + (encode s).length⟩⟩,
        ⟨.fileEnd, "", ⟨2, 1⟩⟩] := by
  have hline := scanLine_quoted 1 1 (Text.Quoted.matches_encode s) []
  rw [List.append_nil, scanLine_nil, String.ofList_toList, String.length_toList] at hline
  rw [scan, Text.Quoted.lines_encode, scanLines, scanLines, hline]
  rfl

end Token

namespace Program

open Text.Quoted (encode)

theorem read_of_lines {ts rest : List Token} {ss : List Statement} (h : Statement.Lines ts ss)
    (hts : ∀ t ∈ ts, t.kind ≠ .semicolon ∧ t.kind ≠ .fileEnd)
    (hrest : ∀ t ∈ rest.head?, t.kind = .fileEnd) :
    read (ts ++ rest) = (⟨nextLocation (endLocation (significant (ts ++ rest))) ts, ss⟩, []) := by
  have hbody := h false (endLocation (significant (ts ++ rest))) []
  rw [List.append_nil, Statement.readBody, Statement.Body.prepend, List.append_nil] at hbody
  rw [read, takeWhile_significant hts hrest, hbody]

/-- A text that is written down as a literal is scanned as one token, which spells all of it, and is
read back as that text, whatever characters are in it. -/
theorem read_scan_encode (s : String) :
    Token.scan (encode s) =
        [⟨.text, encode s, ⟨1, 1⟩⟩, ⟨.lineEnd, "\n", ⟨1, 1 + (encode s).length⟩⟩,
          ⟨.fileEnd, "", ⟨2, 1⟩⟩] ∧
      Expr.ofToken ⟨.text, encode s, ⟨1, 1⟩⟩ = .ok (.literal (.char s) ⟨1, 1⟩) ∧
      read (Token.scan (encode s)) = (⟨⟨1, 1⟩, [.evaluate (.literal (.char s) ⟨1, 1⟩)]⟩, []) := by
  have hleaf : Expr.Leaf ⟨.text, encode s, ⟨1, 1⟩⟩ (.literal (.char s) ⟨1, 1⟩) := by
    have hdecode : Expr.Leaf ⟨.text, encode s, ⟨1, 1⟩⟩
        (.literal (.char (Text.Quoted.decode (encode s))) ⟨1, 1⟩) := .text rfl
    rwa [Text.Quoted.decode_encode] at hdecode
  refine ⟨Token.scan_encode s, Expr.leaf_iff_ofToken.1 hleaf, ?_⟩
  have hlines : Statement.Lines
      [⟨.text, encode s, ⟨1, 1⟩⟩, ⟨.lineEnd, "\n", ⟨1, 1 + (encode s).length⟩⟩]
      [.evaluate (.literal (.char s) ⟨1, 1⟩)] :=
    Statement.lines_of_derives ((Expr.Derives.leaf hleaf).loosen (Nat.zero_le _)) rfl
  rw [Token.scan_encode]
  exact read_of_lines hlines (by simp) fun t ht => Option.some.inj ht ▸ rfl

end Program

end ArmLang
