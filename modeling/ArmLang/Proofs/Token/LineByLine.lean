import ArmLang.Proofs.Layout.Basic
import ArmLang.Proofs.Token.Trace
import ArmLang.Proofs.Text.Lines

namespace ArmLang

namespace Text

def withReturns (cs : List Char) : List Char :=
  cs.flatMap fun c => if c = '\n' then ['\r', '\n'] else [c]

theorem withReturns_of_newline_not_mem {l : List Char} (h : '\n' ∉ l) : withReturns l = l := by
  induction l with
  | nil => rfl
  | cons c l ih =>
    rw [List.mem_cons, not_or] at h
    rw [withReturns, List.flatMap_cons, if_neg (Ne.symm h.1), List.singleton_append]
    exact congrArg (c :: ·) (ih h.2)

theorem withReturns_feed {l : List Char} (h : '\n' ∉ l) (cs : List Char) :
    withReturns (l ++ '\n' :: cs) = l ++ '\r' :: '\n' :: withReturns cs := by
  have hl := withReturns_of_newline_not_mem h
  unfold withReturns at hl ⊢
  rw [List.flatMap_append, hl, List.flatMap_cons]
  rfl

theorem Cut.withReturns {cs : List Char} {ls : List (List Char)} (h : Cut cs ls)
    (hr : '\r' ∉ cs) : Cut (withReturns cs) ls := by
  induction h with
  | nil => exact .nil
  | last hne hl =>
    rw [withReturns_of_newline_not_mem hl]
    exact .last hne hl
  | feed hl _ ih =>
    rw [List.mem_append, List.mem_cons, not_or, not_or] at hr
    rw [withReturns_feed hl.1]
    exact .returnFeed hl.1 (ih hr.2.2)
  | returnFeed => exact absurd (List.mem_append_right _ List.mem_cons_self) hr

theorem lines_withReturns {cs : List Char} (hr : '\r' ∉ cs) :
    lines (withReturns cs) = lines cs := by
  cases cs with
  | nil => rfl
  | cons c cs =>
    have hne : withReturns (c :: cs) ≠ [] := by
      rw [withReturns, List.flatMap_cons]
      split <;> exact List.cons_ne_nil _ _
    rw [lines_eq_splitLines hne, lines_eq_splitLines (List.cons_ne_nil c cs)]
    exact ((cut_splitLines (c :: cs)).withReturns hr).splitLines_eq

theorem lines_append {cs ds : List Char} (hcs : cs ≠ []) (hended : Ended cs) (hds : ds ≠ []) :
    lines (cs ++ ds) = lines cs ++ lines ds := by
  rw [lines_eq_splitLines hcs, lines_eq_splitLines hds,
    lines_eq_splitLines (List.append_ne_nil_of_left_ne_nil hcs ds)]
  exact ((cut_splitLines cs).append hended (cut_splitLines ds)).splitLines_eq

end Text

def Location.lower (n : Nat) (l : Location) : Location := ⟨n + l.line, l.column⟩

namespace Token

variable {line column stop : Nat} {cs : List Char} {ts : List Token}

/-- The lexemes of a line do not depend on its number. -/
theorem Scans.lower (h : Scans line column cs ts stop) (n : Nat) :
    Scans (n + line) column cs (ts.map (relocate (Location.lower n))) stop := by
  induction h with
  | done => exact .done
  | blank hc _ ih => exact .blank hc ih
  | comment => exact .comment
  | lexeme hc hkind hlexeme _ ih => exact .lexeme hc hkind hlexeme ih

theorem scanLine_lower (n line : Nat) (l : List Char) :
    scanLine (n + line) 1 l = (scanLine line 1 l).map (relocate (Location.lower n)) := by
  obtain ⟨ts, stop, h⟩ := exists_scans line 1 l
  rw [(h.lower n).scanLine_eq, h.scanLine_eq, List.map_append]
  rfl

theorem scanLines_lower (n line : Nat) (ls : List (List Char)) :
    scanLines (n + line) ls = (scanLines line ls).map (relocate (Location.lower n)) := by
  induction ls generalizing line with
  | nil => rfl
  | cons l ls ih => rw [scanLines, scanLines, List.map_append, scanLine_lower, Nat.add_assoc, ih]

/-- Lines that follow take the place of the end of the file. -/
theorem scanLines_append (line : Nat) (ls ms : List (List Char)) :
    ∃ ts, scanLines line ls = ts ++ [⟨.fileEnd, "", ⟨line + ls.length, 1⟩⟩] ∧
      scanLines line (ls ++ ms) = ts ++ scanLines (line + ls.length) ms := by
  induction ls generalizing line with
  | nil => exact ⟨[], rfl, rfl⟩
  | cons l ls ih =>
    obtain ⟨ts, hend, happend⟩ := ih (line + 1)
    rw [Nat.add_assoc, Nat.add_comm 1] at hend happend
    refine ⟨scanLine line 1 l ++ ts, ?_, ?_⟩
    · rw [scanLines, hend, List.append_assoc]
      rfl
    · rw [List.cons_append, scanLines, happend, List.append_assoc]
      rfl

/-- A text is scanned line by line. What is put behind the last line feed of a text is scanned as it
is alone, only that many lines further down, and takes the place of the end of the file. It makes no
difference whether lines end with line feeds or with carriage returns and line feeds. -/
theorem scan_line_by_line :
    (∀ above below : String, above.toList.getLast? = some '\n' → below ≠ "" →
      let n := (Text.lines above.toList).length
      n = above.toList.count '\n' ∧ ∃ ts, scan above = ts ++ [⟨.fileEnd, "", ⟨1 + n, 1⟩⟩] ∧
        scan (above ++ below) = ts ++ (scan below).map (relocate (Location.lower n))) ∧
    ∀ source : String, '\r' ∉ source.toList →
      scan (String.ofList (Text.withReturns source.toList)) = scan source := by
  constructor
  · intro above below habove hbelow n
    have hne : above.toList ≠ [] := by
      intro hnil
      rw [hnil] at habove
      cases habove
    have hended : Text.Ended above.toList := by
      rw [Text.Ended, habove]
      rintro _ ⟨⟩
      rfl
    have hlines := Text.lines_append hne hended (mt String.toList_eq_nil_iff.1 hbelow)
    obtain ⟨ts, hend, happend⟩ :=
      scanLines_append 1 (Text.lines above.toList) (Text.lines below.toList)
    refine ⟨?_, ts, hend, ?_⟩
    · dsimp only [n]
      rw [Text.lines_eq_splitLines hne]
      exact (Text.cut_splitLines _).length_eq hended
    · rw [scan, String.toList_append, hlines, happend, Nat.add_comm 1, scanLines_lower]
      rfl
  · intro source hr
    rw [scan, String.toList_ofList, Text.lines_withReturns hr]
    rfl

/-- A comment and an empty line in front of a quotation mark that is never closed. -/
theorem scan_line_by_line_comment :
    let above := "X ; \"\n\n"
    let below := "\"Y\n"
    let n := (Text.lines above.toList).length
    above.toList.getLast? = some '\n' ∧ below ≠ "" ∧ n = above.toList.count '\n' ∧
      (∃ ts, scan above = ts ++ [⟨.fileEnd, "", ⟨1 + n, 1⟩⟩] ∧
        scan (above ++ below) = ts ++ (scan below).map (relocate (Location.lower n))) ∧
      '\r' ∉ above.toList ∧ Text.withReturns above.toList = "X ; \"\r\n\r\n".toList ∧
      scan (String.ofList (Text.withReturns above.toList)) = scan above := by
  intro above below n
  have habove : above.toList.getLast? = some '\n' := by decide
  have hbelow : below ≠ "" := by decide
  have hr : '\r' ∉ above.toList := by decide
  obtain ⟨hcount, hscan⟩ := scan_line_by_line.1 above below habove hbelow
  exact ⟨habove, hbelow, hcount, hscan, hr, by decide, scan_line_by_line.2 above hr⟩

end Token

end ArmLang
