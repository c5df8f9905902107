import ArmLang.Proofs.Text.Lines
import ArmLang.Proofs.Token.Loosening
import ArmLang.Proofs.Token.Trace
import Mathlib.Data.List.Forall2

namespace ArmLang.Token

open Text (isBlank isSolid Whole)

def bare (t : Token) : Kind × String := (t.kind, t.text)

/-- The lexemes of each line. What is behind the last mark of an end of line is no line. -/
def rows : List Token → List (List Token)
  | [] => []
  | t :: ts =>
    if t.kind = .lineEnd then [] :: rows ts
    else match rows ts with
      | [] => []
      | row :: rest => (t :: row) :: rest

def printRow (row : List Token) : String := " ".intercalate (row.map text)

def print (ts : List Token) : String := String.join ((rows ts).map (printRow · ++ "\n"))

/-- Whether a lexeme in front of the text would be cut off by a blank or the end of the line. -/
def Parted (cs : List Char) : Prop := ∀ c ∈ cs.head?, isBlank c

theorem parted_nil : Parted [] := by
  rintro _ ⟨⟩

theorem parted_cons {c : Char} (hc : isBlank c) (cs : List Char) : Parted (c :: cs) := by
  rintro _ ⟨⟩
  exact hc

/-- Two lines with the same lexemes. The blanks in front of the lexemes and behind them can differ,
but where the first line has some between two lexemes, the second one does; and what is behind a
semicolon can differ. -/
inductive Respaced : List Char → List Char → Prop
  | done : Respaced [] []
  | blankLeft {c : Char} {cs ds : List Char} : isBlank c → Respaced cs ds → Respaced (c :: cs) ds
  | blankRight {d : Char} {cs ds : List Char} : isBlank d → Respaced cs ds → Respaced cs (d :: ds)
  | comment {cs ds : List Char} : Respaced (';' :: cs) (';' :: ds)
  | lexeme {kind : Kind} {c : Char} {w cs ds : List Char} : isBlank c = false → kind ≠ .semicolon →
    Token.lexeme (c :: w ++ cs) = (kind, (c :: w).length) → (Parted cs → Parted ds) →
    Respaced cs ds → Respaced (c :: w ++ cs) (c :: w ++ ds)

theorem loosens_of_not_solid {cs ds : List Char} (h : ∀ d ∈ ds.head?, isSolid d = false) :
    Loosens cs ds := by
  intro u hu hprefix
  cases u with
  | nil => exact List.nil_prefix
  | cons d u =>
    obtain ⟨rest, rfl⟩ := hprefix
    have hsolid := hu d List.mem_cons_self
    rw [h d rfl] at hsolid
    cases hsolid

theorem loosens_semicolon (cs ds : List Char) : Loosens cs (';' :: ds) := by
  apply loosens_of_not_solid
  rintro _ ⟨⟩
  rfl

theorem Parted.loosens {ds : List Char} (h : Parted ds) (cs : List Char) : Loosens cs ds := by
  apply loosens_of_not_solid
  intro d hd
  rw [isSolid, h d hd]
  rfl

theorem Respaced.loosens {cs ds : List Char} (h : Respaced cs ds)
    (hparted : Parted cs → Parted ds) : Loosens cs ds := by
  induction h with
  | done => exact fun _ _ hprefix => hprefix
  | blankLeft hc _ _ => exact (hparted (parted_cons hc _)).loosens _
  | blankRight hd _ _ => exact (parted_cons hd _).loosens _
  | comment => exact loosens_semicolon _ _
  | @lexeme _ c w _ _ _ _ _ hgap _ ih => exact (ih hgap).append (c :: w)

theorem scanLine_respaced {cs ds : List Char} (h : Respaced cs ds) (line column line' column' : Nat)
    (hvalid : ∀ t ∈ scanLine line column cs, t.kind ≠ .invalid) :
    (scanLine line' column' ds).map bare = (scanLine line column cs).map bare := by
  induction h generalizing column column' with
  | done => rw [scanLine_nil, scanLine_nil]; rfl
  | blankLeft hc _ ih =>
    rw [scanLine_blank _ _ hc] at hvalid ⊢
    exact ih _ _ hvalid
  | blankRight hd _ ih =>
    rw [scanLine_blank _ _ hd]
    exact ih _ _ hvalid
  | comment => rw [scanLine_comment, scanLine_comment]; rfl
  | lexeme hc hkind hlexeme hgap hrest ih =>
    rw [scanLine_lexeme _ _ hc hkind hlexeme, List.forall_mem_cons] at hvalid
    have hnext := isNameChar_of_scanLine hvalid.2
    have hlexeme' := lexeme_loosened hlexeme hvalid.1 hkind hnext (hrest.loosens hgap)
    rw [scanLine_lexeme _ _ hc hkind hlexeme, scanLine_lexeme _ _ hc hkind hlexeme',
      List.map_cons, List.map_cons, ih _ _ hvalid.2]
    rfl

theorem scanLines_respaced {ls ls' : List (List Char)} (h : List.Forall₂ Respaced ls ls')
    (line : Nat) (hvalid : ∀ t ∈ scanLines line ls, t.kind ≠ .invalid) :
    (scanLines line ls').map bare = (scanLines line ls).map bare := by
  induction h generalizing line with
  | nil => rfl
  | cons hl _ ih =>
    rw [scanLines, List.forall_mem_append] at hvalid
    rw [scanLines, scanLines, List.map_append, List.map_append,
      scanLine_respaced hl line 1 line 1 hvalid.1, ih _ hvalid.2]

theorem rows_append {ts : List Token} (h : ∀ t ∈ ts, t.kind ≠ .lineEnd) {t : Token}
    (ht : t.kind = .lineEnd) (rest : List Token) : rows (ts ++ t :: rest) = ts :: rows rest := by
  induction ts with
  | nil => rw [List.nil_append, rows, if_pos ht]
  | cons u us ih =>
    rw [List.forall_mem_cons] at h
    rw [List.cons_append, rows, if_neg h.1, ih h.2]

theorem rows_scanLines (line : Nat) (ls : List (List Char)) :
    List.Forall₂ (fun l row => ∃ line stop, Scans line 1 l row stop) ls
      (rows (scanLines line ls)) := by
  induction ls generalizing line with
  | nil => exact .nil
  | cons l ls ih =>
    obtain ⟨ts, stop, h⟩ := exists_scans line 1 l
    rw [scanLines, h.scanLine_eq, List.append_assoc, List.singleton_append,
      rows_append (fun t ht => (h.kind t ht).1) rfl]
    exact .cons ⟨line, stop, h⟩ (ih (line + 1))

theorem printRow_toList (row : List Token) :
    (printRow row).toList = [' '].intercalate (row.map (·.text.toList)) := by
  rw [printRow, String.toList_intercalate, List.map_map]
  rfl

theorem printRow_nil : (printRow []).toList = [] := rfl

theorem printRow_singleton (t : Token) : (printRow [t]).toList = t.text.toList := by
  rw [printRow_toList, List.map_singleton, List.intercalate_singleton]

theorem printRow_cons_cons (t u : Token) (row : List Token) :
    (printRow (t :: u :: row)).toList = t.text.toList ++ ' ' :: (printRow (u :: row)).toList := by
  simp only [printRow_toList, List.map_cons, List.intercalate_cons_cons, List.append_assoc,
    List.singleton_append]

theorem print_toList (ts : List Token) :
    (print ts).toList = ((rows ts).map (printRow · |>.toList)).flatMap (· ++ ['\n']) := by
  simp [print, String.toList_join, List.flatMap_map]

variable {line column stop : Nat} {cs : List Char} {ts : List Token}

theorem printRow_whole {row : List Token} (h : ∀ t ∈ row, Whole t.text.toList) :
    Whole (printRow row).toList := by
  induction row with
  | nil => exact ⟨List.not_mem_nil, nofun⟩
  | cons t row ih =>
    rw [List.forall_mem_cons] at h
    cases row with
    | nil =>
      rw [printRow_singleton]
      exact h.1
    | cons u us =>
      rw [printRow_cons_cons]
      exact h.1.append (Whole.cons (by decide) (by decide) (ih h.2))

/-- A line is laid out anew when its lexemes are printed. -/
theorem Scans.respaced (h : Scans line column cs ts stop) : Respaced cs (printRow ts).toList := by
  induction h with
  | done => exact .done
  | blank hc _ ih => exact .blankLeft hc ih
  | comment =>
    have htext : (";" : String).toList = [';'] := by decide
    rw [printRow_singleton, htext]
    exact .comment
  | @lexeme _ _ _ c w cs ts hc hkind hlexeme h ih =>
    cases ts with
    | nil =>
      rw [printRow_nil] at ih
      have hline := Respaced.lexeme hc hkind hlexeme (fun _ => parted_nil) ih
      rw [List.append_nil] at hline
      rwa [printRow_singleton, String.toList_ofList]
    | cons u us =>
      rw [printRow_cons_cons, String.toList_ofList]
      exact .lexeme hc hkind hlexeme (fun _ => parted_cons rfl _) (.blankRight rfl ih)

theorem Scans.text_whole (h : Scans line column cs ts stop) (hcs : '\n' ∉ cs) :
    ∀ t ∈ ts, Whole t.text.toList := by
  induction h with
  | done => exact nofun
  | blank _ _ ih => exact ih fun h => hcs (List.mem_cons_of_mem _ h)
  | comment =>
    have htext : Whole (";" : String).toList := ⟨by decide, by decide⟩
    exact List.forall_mem_singleton.2 htext
  | @lexeme _ _ _ c w cs _ _ _ hlexeme _ ih =>
    refine List.forall_mem_cons.2 ⟨?_, ih fun h => hcs (List.mem_append_right _ h)⟩
    rw [String.toList_ofList]
    refine ⟨fun h => hcs (List.mem_append_left _ h), ?_⟩
    intro hlast
    exact absurd (lexeme_last hlexeme _ hlast) (by decide)

theorem row_whole {ls : List (List Char)} {rs : List (List Token)}
    (h : List.Forall₂ (fun l row => ∃ line stop, Scans line 1 l row stop) ls rs)
    (hls : ∀ l ∈ ls, '\n' ∉ l) : ∀ row ∈ rs, Whole (printRow row).toList := by
  induction h with
  | nil => exact nofun
  | cons hrow _ ih =>
    rw [List.forall_mem_cons] at hls
    obtain ⟨_, _, hrow⟩ := hrow
    exact List.forall_mem_cons.2 ⟨printRow_whole (hrow.text_whole hls.1), ih hls.2⟩

theorem rows_scan (source : String) :
    List.Forall₂ (fun l row => ∃ line stop, Scans line 1 l row stop) (Text.lines source.toList)
      (rows (scan source)) :=
  rows_scanLines 1 _

theorem lines_print (source : String) : Text.lines (print (scan source)).toList =
    (rows (scan source)).map (printRow · |>.toList) := by
  have hrows := rows_scan source
  rw [print_toList, Text.lines_flatMap]
  · intro hnil
    rw [List.map_eq_nil_iff.1 hnil, List.forall₂_nil_right_iff] at hrows
    exact Text.lines_ne_nil _ hrows
  · intro l hl
    obtain ⟨row, hrow, rfl⟩ := List.mem_map.1 hl
    exact row_whole hrows (Text.newline_not_mem_lines _) row hrow

theorem respaced_print (source : String) :
    List.Forall₂ Respaced (Text.lines source.toList) (Text.lines (print (scan source)).toList) := by
  rw [lines_print, List.forall₂_map_right_iff]
  exact (rows_scan source).imp fun _ _ ⟨_, _, h⟩ => h.respaced

/-- The blanks between lexemes and the comments do not count: whatever text has the lexemes of a
program on the same lines is scanned to the same kinds and texts, and the printed tokens are one. -/
theorem scan_print (source : String) (h : ∀ t ∈ scan source, t.kind ≠ .invalid) :
    (scan (print (scan source))).map bare = (scan source).map bare ∧
    ∀ text : String, List.Forall₂ Respaced (Text.lines source.toList) (Text.lines text.toList) →
      (scan text).map bare = (scan source).map bare := by
  have hrespaced (text : String)
      (hlines : List.Forall₂ Respaced (Text.lines source.toList) (Text.lines text.toList)) :
      (scan text).map bare = (scan source).map bare :=
    scanLines_respaced hlines 1 h
  exact ⟨hrespaced _ (respaced_print source), hrespaced⟩

/-- A line is indented, a gap in it opened and its comment dropped. -/
theorem scan_print_assignment :
    (∀ t ∈ scan "X:=\"a;b\" ;c", t.kind ≠ .invalid) ∧
    (scan (print (scan "X:=\"a;b\" ;c"))).map bare = (scan "X:=\"a;b\" ;c").map bare ∧
    (scan "\tX :=\"a;b\" ;").map bare = (scan "X:=\"a;b\" ;c").map bare := by
  have hvalid : ∀ t ∈ scan "X:=\"a;b\" ;c", t.kind ≠ .invalid := by decide +kernel
  have hsource : Text.lines "X:=\"a;b\" ;c".toList =
      [['X', ':', '=', '"', 'a', ';', 'b', '"', ' ', ';', 'c']] := by decide +kernel
  have htext : Text.lines "\tX :=\"a;b\" ;".toList =
      [['\t', 'X', ' ', ':', '=', '"', 'a', ';', 'b', '"', ' ', ';']] := by decide +kernel
  have hcomment : Respaced [' ', ';', 'c'] [' ', ';'] :=
    .blankLeft rfl (.blankRight rfl .comment)
  have hvalue : Respaced ['"', 'a', ';', 'b', '"', ' ', ';', 'c']
      ['"', 'a', ';', 'b', '"', ' ', ';'] :=
    @Respaced.lexeme .text _ ['a', ';', 'b', '"'] _ _ rfl (by decide) (by decide +kernel) id
      hcomment
  have hassign : Respaced [':', '=', '"', 'a', ';', 'b', '"', ' ', ';', 'c']
      [':', '=', '"', 'a', ';', 'b', '"', ' ', ';'] :=
    @Respaced.lexeme .assign _ ['='] _ _ rfl (by decide) (by decide +kernel) id hvalue
  have hline : Respaced ['X', ':', '=', '"', 'a', ';', 'b', '"', ' ', ';', 'c']
      ['\t', 'X', ' ', ':', '=', '"', 'a', ';', 'b', '"', ' ', ';'] :=
    .blankRight rfl (@Respaced.lexeme .identifier _ [] _ _ rfl (by decide) (by decide +kernel)
      (fun _ => parted_cons rfl _) (.blankRight rfl hassign))
  have hlines : List.Forall₂ Respaced (Text.lines "X:=\"a;b\" ;c".toList)
      (Text.lines "\tX :=\"a;b\" ;".toList) := by
    rw [hsource, htext]
    exact .cons hline .nil
  have hscan := scan_print "X:=\"a;b\" ;c" hvalid
  exact ⟨hvalid, hscan.1, hscan.2 _ hlines⟩

end ArmLang.Token
