import ArmLang.Compilation
import ArmLang.Proofs.Token.Spacing

namespace ArmLang

namespace Text

/-- A text with a gap behind a semicolon. Above are whole lines, and in front is what stands on the
line of the semicolon. -/
structure Gap where
  above : List Char
  front : List Char
  rest : List Char
  ended : Ended above
  newline_not_mem : '\n' ∉ front

namespace Gap

def fill (g : Gap) (comment : List Char) : String :=
  String.ofList (g.above ++ (g.front ++ ';' :: (comment ++ g.rest)))

def location (g : Gap) : Location := ⟨1 + g.above.count '\n', 1 + g.front.length⟩

theorem newline_not_mem_semicolon {front tail : List Char} (hfront : '\n' ∉ front)
    (htail : '\n' ∉ tail) : '\n' ∉ front ++ ';' :: tail :=
  List.not_mem_append hfront (List.not_mem_cons_of_ne_of_not_mem (by decide) htail)

/-- A carriage return at the end of a comment belongs to the end of the line. -/
theorem exists_cut_feed {front comment cs : List Char} {below : List (List Char)}
    (hfront : '\n' ∉ front) (hcomment : '\n' ∉ comment) (h : Cut cs below) :
    ∃ tail, Cut (front ++ ';' :: (comment ++ '\n' :: cs)) ((front ++ ';' :: tail) :: below) := by
  by_cases hr : comment.getLast? = some '\r'
  · obtain ⟨tail, rfl⟩ := List.getLast?_eq_some_iff.1 hr
    rw [List.mem_append, not_or] at hcomment
    have hcut := Cut.returnFeed (newline_not_mem_semicolon hfront hcomment.1) h
    exact ⟨tail, by simpa using hcut⟩
  · have hlast : (front ++ ';' :: comment).getLast? ≠ some '\r' := by
      rw [List.getLast?_append, List.getLast?_cons, Option.some_or]
      cases hc : comment.getLast? with
      | none => decide
      | some c => rwa [hc] at hr
    have hcut := Cut.feed ⟨newline_not_mem_semicolon hfront hcomment, hlast⟩ h
    exact ⟨comment, by simpa using hcut⟩

theorem exists_cut {front : List Char} (hfront : '\n' ∉ front) (rest : List Char) :
    ∃ below, ∀ comment, '\n' ∉ comment → ∃ tail,
      Cut (front ++ ';' :: (comment ++ rest)) ((front ++ ';' :: tail) :: below) := by
  have h := cut_splitLines rest
  generalize splitLines rest = ls at h
  cases h with
  | nil =>
    refine ⟨[], fun comment hcomment => ⟨comment ++ [], .last (by simp) ?_⟩⟩
    exact newline_not_mem_semicolon hfront (List.not_mem_append hcomment List.not_mem_nil)
  | last _ hl =>
    refine ⟨[], fun comment hcomment => ⟨comment ++ rest, .last (by simp) ?_⟩⟩
    exact newline_not_mem_semicolon hfront (List.not_mem_append hcomment hl)
  | @feed l cs below hl h =>
    refine ⟨below, fun comment hcomment => ?_⟩
    rw [← List.append_assoc]
    exact exists_cut_feed hfront (List.not_mem_append hcomment hl.1) h
  | @returnFeed l cs below hl h =>
    refine ⟨below, fun comment hcomment => ?_⟩
    rw [List.append_cons l, ← List.append_assoc]
    exact exists_cut_feed hfront (List.not_mem_append hcomment (newline_not_mem_return hl)) h

/-- What is in the gap makes a difference to the line of the semicolon only, and only behind it. -/
theorem lines_fill (g : Gap) : ∃ below, ∀ comment, '\n' ∉ comment → ∃ tail,
    lines (g.fill comment).toList = splitLines g.above ++ (g.front ++ ';' :: tail) :: below := by
  obtain ⟨below, hbelow⟩ := exists_cut g.newline_not_mem g.rest
  refine ⟨below, fun comment hcomment => ?_⟩
  obtain ⟨tail, hcut⟩ := hbelow comment hcomment
  refine ⟨tail, ?_⟩
  rw [fill, String.toList_ofList, lines_eq_splitLines (by simp)]
  exact ((cut_splitLines g.above).append g.ended hcut).splitLines_eq

/-- A line with a semicolon is a text with a gap, in which there is all of the line behind the
semicolon. -/
theorem exists_fill {source : String} {front tail : List Char} {i : Nat}
    (h : (lines source.toList)[i]? = some (front ++ ';' :: tail)) :
    ∃ g : Gap, source = g.fill tail ∧ g.location = ⟨1 + i, 1 + front.length⟩ ∧ '\n' ∉ tail ∧
      EndsLine g.rest := by
  have hmem := newline_not_mem_lines _ _ (List.mem_of_getElem? h)
  rw [List.mem_append, List.mem_cons, not_or, not_or] at hmem
  have hne : source.toList ≠ [] := by
    intro hnil
    rw [hnil] at h
    cases i with
    | zero => simp [lines] at h
    | succ i => cases h
  rw [lines_eq_splitLines hne] at h
  obtain ⟨above, rest, htext, habove, rfl, hrest⟩ := (cut_splitLines _).exists_above h
  refine ⟨⟨above, front, rest, habove, hmem.1⟩, ?_, rfl, hmem.2.2, hrest⟩
  rw [fill, ← String.toList_inj, String.toList_ofList, htext]
  simp

end Gap

end Text

namespace Token

variable {line column stop : Nat} {cs : List Char} {ts : List Token}

/-- What is behind a semicolon has no part in its line as long as no lexeme in front of it is
invalid. -/
theorem Scans.comment_irrelevant (h : Scans line column cs ts stop)
    (hvalid : ∀ t ∈ ts, t.kind ≠ .invalid) : ∀ t ∈ ts, t.kind = .semicolon →
    ∃ front comment, cs = front ++ ';' :: comment ∧ t.location = ⟨line, column + front.length⟩ ∧
      ∀ other, Scans line column (front ++ ';' :: other) ts stop := by
  induction h with
  | done => exact nofun
  | @blank column _ c _ _ hc _ ih =>
    intro t ht hkind
    obtain ⟨front, comment, rfl, hlocation, hscans⟩ := ih hvalid t ht hkind
    refine ⟨c :: front, comment, rfl, ?_, fun other => .blank hc (hscans other)⟩
    rw [hlocation, List.length_cons, Nat.add_right_comm, Nat.add_assoc]
  | @comment _ cs =>
    refine List.forall_mem_singleton.2 ?_
    exact fun _ => ⟨[], cs, rfl, rfl, fun _ => .comment⟩
  | @lexeme column _ kind c w cs us hc hnot hlexeme h ih =>
    rw [List.forall_mem_cons] at hvalid
    refine List.forall_mem_cons.2 ⟨fun hkind => absurd hkind hnot, ?_⟩
    intro t ht hkind
    obtain ⟨front, comment, rfl, hlocation, hscans⟩ := ih hvalid.2 t ht hkind
    refine ⟨c :: w ++ front, comment, by simp, ?_, ?_⟩
    · rw [hlocation, List.length_append, Nat.add_assoc]
    · intro other
      -- A lexeme could only grow into the comment across the semicolon, which is not solid.
      have hloose := (loosens_semicolon (';' :: comment) other).append front
      have hnext := isNameChar_of_scanLine (h.valid hvalid.2)
      rw [List.append_assoc]
      exact .lexeme hc hnot (lexeme_loosened hlexeme hvalid.1 hnot hnext hloose) (hscans other)

theorem scanLines_replaced {l l' : List Char} {first : Nat} (above below : List (List Char))
    (h : scanLine (first + above.length) 1 l' = scanLine (first + above.length) 1 l) :
    scanLines first (above ++ l' :: below) = scanLines first (above ++ l :: below) := by
  induction above generalizing first with
  | nil => exact congrArg (· ++ scanLines (first + 1) below) h
  | cons m above ih =>
    rw [List.length_cons, Nat.add_comm above.length, ← Nat.add_assoc] at h
    rw [List.cons_append, List.cons_append, scanLines, scanLines, ih h]

/-- A semicolon stands on one of the lines, which is scanned alike whatever comment it has. -/
theorem exists_line_of_semicolon {first : Nat} {ls : List (List Char)} {t : Token}
    (hvalid : ∀ t ∈ scanLines first ls, t.kind ≠ .invalid) (ht : t ∈ scanLines first ls)
    (hkind : t.kind = .semicolon) : ∃ i front comment, ls[i]? = some (front ++ ';' :: comment) ∧
      t.location = ⟨first + i, 1 + front.length⟩ ∧ ∀ other,
        scanLine (first + i) 1 (front ++ ';' :: other) =
          scanLine (first + i) 1 (front ++ ';' :: comment) := by
  rcases mem_scanLines ht with ⟨hend, -⟩ | ⟨hend, -⟩ | ⟨i, l, ts, stop, hl, hscans, ht, hsubset⟩
  · rw [hkind] at hend
    cases hend
  · rw [hkind] at hend
    cases hend
  · obtain ⟨front, comment, rfl, hlocation, hall⟩ :=
      hscans.comment_irrelevant (fun u hu => hvalid u (hsubset hu)) t ht hkind
    refine ⟨i, front, comment, hl, hlocation, fun other => ?_⟩
    rw [(hall other).scanLine_eq, hscans.scanLine_eq]

theorem scan_fill {g : Text.Gap} {comment other : List Char} {t : Token}
    (hvalid : ∀ t ∈ scan (g.fill comment), t.kind ≠ .invalid) (ht : t ∈ scan (g.fill comment))
    (hkind : t.kind = .semicolon) (hlocation : t.location = g.location) (hcomment : '\n' ∉ comment)
    (hother : '\n' ∉ other) : scan (g.fill other) = scan (g.fill comment) := by
  obtain ⟨below, hlines⟩ := g.lines_fill
  obtain ⟨tail, htail⟩ := hlines comment hcomment
  obtain ⟨tail', htail'⟩ := hlines other hother
  have hlength := (Text.cut_splitLines g.above).length_eq g.ended
  rw [scan, htail] at hvalid ht
  obtain ⟨i, front, rest, hl, hplace, hscan⟩ := exists_line_of_semicolon hvalid ht hkind
  rw [hlocation, Text.Gap.location, Location.mk.injEq] at hplace
  obtain rfl : i = (Text.splitLines g.above).length := by omega
  rw [List.getElem?_append_right (Nat.le_refl _), Nat.sub_self, List.getElem?_cons_zero,
    Option.some_inj] at hl
  obtain ⟨rfl, hrest⟩ := List.append_inj hl (by omega)
  cases hrest
  rw [scan, scan, htail, htail']
  exact scanLines_replaced _ below (hscan tail')

theorem compile_eq_of_scan {source source' : String} (h : scan source = scan source') :
    compile source = compile source' := by
  rw [compile, h, compile]

/-- Comments do not count: each semicolon of a text without invalid tokens has a comment behind it
as far as the line goes, and whatever is put in the place of it or of a part of it, the tokens, with
their locations, stay the same and so does all that is compiled from them. -/
theorem scan_comment {source : String} (hvalid : ∀ t ∈ scan source, t.kind ≠ .invalid) {t : Token}
    (ht : t ∈ scan source) (hkind : t.kind = .semicolon) :
    (∃ (g : Text.Gap) (comment : List Char), source = g.fill comment ∧ t.location = g.location ∧
      '\n' ∉ comment ∧ Text.EndsLine g.rest) ∧
    ∀ (g : Text.Gap) (comment : List Char), source = g.fill comment → t.location = g.location →
      '\n' ∉ comment → ∀ other, '\n' ∉ other →
        scan (g.fill other) = scan source ∧ compile (g.fill other) = compile source := by
  refine ⟨?_, ?_⟩
  · obtain ⟨i, front, comment, hl, hplace, -⟩ := exists_line_of_semicolon hvalid ht hkind
    obtain ⟨g, hfill, hlocation, hcomment, hrest⟩ := Text.Gap.exists_fill hl
    exact ⟨g, comment, hfill, hplace.trans hlocation.symm, hcomment, hrest⟩
  · rintro g comment rfl hlocation hcomment other hother
    have hscan := scan_fill hvalid ht hkind hlocation hcomment hother
    exact ⟨hscan, compile_eq_of_scan hscan⟩

/-- A comment becomes a quotation mark, which would be invalid anywhere else. -/
theorem scan_comment_mark :
    let g : Text.Gap :=
      { above := ['\n'], front := ['"', ';', '"', ' '], rest := ['\r', '\n', 'X'],
        ended := by rintro _ ⟨⟩; rfl, newline_not_mem := by decide }
    (∀ t ∈ scan (g.fill ['c']), t.kind ≠ .invalid) ∧
      ⟨.semicolon, ";", ⟨2, 5⟩⟩ ∈ scan (g.fill ['c']) ∧
      scan (g.fill ['"']) = scan (g.fill ['c']) ∧
      compile (g.fill ['"']) = compile (g.fill ['c']) := by
  intro g
  have hvalid : ∀ t ∈ scan (g.fill ['c']), t.kind ≠ .invalid := by decide +kernel
  have hmem : ⟨.semicolon, ";", ⟨2, 5⟩⟩ ∈ scan (g.fill ['c']) := by decide +kernel
  have hscan := (scan_comment hvalid hmem rfl).2 g ['c'] rfl rfl (by decide) ['"'] (by decide)
  exact ⟨hvalid, hmem, hscan.1, hscan.2⟩

end Token

end ArmLang
