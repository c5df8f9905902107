import ArmLang.Proofs.Text.Lines
import ArmLang.Proofs.Token.Trace
import Mathlib.Logic.ExistsUnique

namespace ArmLang.Token

open Text (isBlank)

def stop (t : Token) : Nat := t.location.column + t.text.length

def Covers (t : Token) (column : Nat) : Prop := t.location.column ≤ column ∧ column < t.stop

/-- The lexemes of a line are pieces of it that stand in order. Up to the column where the scan
stops, what is not blank is in one of them; it stops behind a semicolon or else at the end. -/
structure Tiles (line column : Nat) (cs : List Char) (ts : List Token) (stop : Nat) : Prop where
  nonempty : ∀ t ∈ ts, t.text ≠ ""
  kind : ∀ t ∈ ts, t.kind ≠ .lineEnd ∧ t.kind ≠ .fileEnd
  slice : ∀ t ∈ ts, ∃ i, t.location = ⟨line, column + i⟩ ∧ t.text.toList <+: cs.drop i
  ordered : ts.Pairwise fun t u => t.stop ≤ u.location.column
  within : ∀ t ∈ ts, t.stop ≤ stop
  covered : ∀ i c, cs[i]? = some c → column + i < stop → isBlank c = false →
    ∃! t, t ∈ ts ∧ t.Covers (column + i)
  comment : ∀ t ∈ ts, t.kind = .semicolon → ts.getLast? = some t ∧ stop = t.stop
  whole : (∀ t ∈ ts, t.kind ≠ .semicolon) → stop = column + cs.length

variable {line column stop : Nat} {cs : List Char} {ts : List Token}

theorem Tiles.nil : Tiles line column [] [] column where
  nonempty := List.forall_mem_nil _
  kind := List.forall_mem_nil _
  slice := List.forall_mem_nil _
  ordered := .nil
  within := List.forall_mem_nil _
  covered _ _ h := nomatch h
  comment := List.forall_mem_nil _
  whole _ := rfl

theorem Tiles.blank {c : Char} (hc : isBlank c) (h : Tiles line (column + 1) cs ts stop) :
    Tiles line column (c :: cs) ts stop where
  nonempty := h.nonempty
  kind := h.kind
  slice t ht := by
    obtain ⟨i, hlocation, htext⟩ := h.slice t ht
    exact ⟨i + 1, by rw [hlocation, Nat.add_assoc, Nat.add_comm 1], htext⟩
  ordered := h.ordered
  within := h.within
  covered i d hd hi hblank := by
    cases i with
    | zero =>
      cases hd
      rw [hc] at hblank
      cases hblank
    | succ i =>
      rw [Nat.add_comm i, ← Nat.add_assoc] at hi ⊢
      exact h.covered i d hd hi hblank
  comment := h.comment
  whole hs := by rw [h.whole hs, List.length_cons]; omega

theorem stop_semicolon : Token.stop ⟨.semicolon, ";", ⟨line, column⟩⟩ = column + 1 :=
  congrArg (column + ·) (by decide : ";".length = 1)

theorem stop_ofList (kind : Kind) (w : List Char) :
    Token.stop ⟨kind, String.ofList w, ⟨line, column⟩⟩ = column + w.length := by
  simp [Token.stop]

theorem Tiles.comment_only :
    Tiles line column (';' :: cs) [⟨.semicolon, ";", ⟨line, column⟩⟩] (column + 1) where
  nonempty := List.forall_mem_singleton.2 (by simp)
  kind := List.forall_mem_singleton.2 ⟨nofun, nofun⟩
  slice := List.forall_mem_singleton.2 ⟨0, rfl, by simp⟩
  ordered := List.pairwise_singleton ..
  within := List.forall_mem_singleton.2 (Nat.le_of_eq stop_semicolon)
  covered i d _ hi _ := by
    obtain rfl : i = 0 := by omega
    refine ⟨_, ⟨List.mem_cons_self, Nat.le_refl _, by rwa [stop_semicolon]⟩, ?_⟩
    exact fun u hu => List.mem_singleton.1 hu.1
  comment := List.forall_mem_singleton.2 fun _ => ⟨rfl, stop_semicolon.symm⟩
  whole hs := absurd rfl (hs _ List.mem_cons_self)

theorem Tiles.begins (h : Tiles line column cs ts stop) :
    ∀ t ∈ ts, column ≤ t.location.column := by
  intro t ht
  obtain ⟨i, hlocation, -⟩ := h.slice t ht
  rw [hlocation]
  exact Nat.le_add_right ..

/-- A column in front of the tiles is taken up by the lexeme that stands there, any other one by
what takes it up among the tiles. -/
theorem Tiles.covered_cons {t : Token} {w : List Char} (hbegin : t.location.column = column)
    (hend : t.stop = column + w.length) (h : Tiles line (column + w.length) cs ts stop) {i : Nat}
    {c : Char} (hc : (w ++ cs)[i]? = some c) (hi : column + i < stop) (hblank : isBlank c = false) :
    ∃! u, u ∈ t :: ts ∧ u.Covers (column + i) := by
  by_cases hiw : i < w.length
  · have hcovers : t.Covers (column + i) := ⟨by omega, by omega⟩
    refine ⟨t, ⟨List.mem_cons_self, hcovers⟩, ?_⟩
    rintro u ⟨hu, hu'⟩
    rcases List.mem_cons.1 hu with rfl | hu
    · rfl
    · have hbegins := Nat.le_trans (h.begins u hu) hu'.1
      omega
  · obtain ⟨k, rfl⟩ := Nat.exists_eq_add_of_le (Nat.le_of_not_lt hiw)
    rw [List.getElem?_append_right (Nat.le_add_right ..), Nat.add_sub_cancel_left] at hc
    rw [← Nat.add_assoc] at hi ⊢
    obtain ⟨u, ⟨hu, hcovers⟩, hunique⟩ := h.covered k c hc hi hblank
    refine ⟨u, ⟨List.mem_cons_of_mem _ hu, hcovers⟩, ?_⟩
    rintro v ⟨hv, hv'⟩
    rcases List.mem_cons.1 hv with rfl | hv
    · have hlt := hv'.2
      omega
    · exact hunique v ⟨hv, hv'⟩

theorem Tiles.cons {kind : Kind} {w : List Char} (hw : w ≠ [])
    (hkind : kind ≠ .semicolon ∧ kind ≠ .lineEnd ∧ kind ≠ .fileEnd)
    (h : Tiles line (column + w.length) cs ts stop) (hstop : column + w.length ≤ stop) :
    Tiles line column (w ++ cs) (⟨kind, String.ofList w, ⟨line, column⟩⟩ :: ts) stop where
  nonempty := List.forall_mem_cons.2 ⟨by simpa using hw, h.nonempty⟩
  kind := List.forall_mem_cons.2 ⟨hkind.2, h.kind⟩
  slice := by
    refine List.forall_mem_cons.2 ⟨⟨0, rfl, by simp⟩, ?_⟩
    intro t ht
    obtain ⟨i, hlocation, htext⟩ := h.slice t ht
    refine ⟨w.length + i, by rw [hlocation, Nat.add_assoc], ?_⟩
    rwa [List.drop_append, List.drop_of_length_le (Nat.le_add_right ..), List.nil_append,
      Nat.add_sub_cancel_left]
  ordered := by
    refine List.pairwise_cons.2 ⟨?_, h.ordered⟩
    intro u hu
    rw [stop_ofList]
    exact h.begins u hu
  within := List.forall_mem_cons.2 ⟨by rwa [stop_ofList], h.within⟩
  covered i c hc hi hblank := h.covered_cons rfl (stop_ofList kind w) hc hi hblank
  comment := by
    refine List.forall_mem_cons.2 ⟨fun hs => absurd hs hkind.1, ?_⟩
    intro t ht hs
    obtain ⟨hlast, hstop⟩ := h.comment t ht hs
    refine ⟨?_, hstop⟩
    obtain ⟨u, us, rfl⟩ := List.exists_cons_of_ne_nil (List.ne_nil_of_mem ht)
    rwa [List.getLast?_cons_cons]
  whole hs := by
    rw [h.whole (List.forall_mem_cons.1 hs).2, List.length_append, Nat.add_assoc]

theorem Scans.le_stop (h : Scans line column cs ts stop) : column ≤ stop := by
  induction h with
  | done => exact Nat.le_refl _
  | blank _ _ ih => exact Nat.le_of_succ_le ih
  | comment => exact Nat.le_succ _
  | lexeme _ _ _ _ ih => exact Nat.le_trans (Nat.le_add_right ..) ih

theorem Scans.tiles (h : Scans line column cs ts stop) : Tiles line column cs ts stop := by
  induction h with
  | done => exact .nil
  | blank hc _ ih => exact ih.blank hc
  | comment => exact .comment_only
  | @lexeme _ _ _ c w cs _ _ hkind hlexeme h ih =>
    have hend := lexeme_not_end (c :: w ++ cs)
    rw [hlexeme] at hend
    exact ih.cons (List.cons_ne_nil c w) ⟨hkind, hend⟩ h.le_stop

/-- The tokens of numbered lines: on each line its lexemes and one mark at its end, and one mark
behind the last line. -/
inductive Scanned : Nat → List (List Char) → List Token → Prop
  | fileEnd {line : Nat} : Scanned line [] [⟨.fileEnd, "", ⟨line, 1⟩⟩]
  | line {line stop : Nat} {l : List Char} {ls : List (List Char)} {ts rest : List Token} :
    Tiles line 1 l ts stop → Scanned (line + 1) ls rest →
    Scanned line (l :: ls) (ts ++ ⟨.lineEnd, "\n", ⟨line, stop⟩⟩ :: rest)

theorem scanned_scanLines (line : Nat) (ls : List (List Char)) :
    Scanned line ls (scanLines line ls) := by
  induction ls generalizing line with
  | nil => exact .fileEnd
  | cons l ls ih =>
    obtain ⟨ts, stop, h⟩ := exists_scans line 1 l
    rw [scanLines, h.scanLine_eq, List.append_assoc, List.singleton_append]
    exact .line h.tiles (ih (line + 1))

/-- Nothing is lost: the text is cut into its lines, and on each line every character that is not
blank is in one lexeme, unless a semicolon is in front of it. -/
theorem scan_lossless (source : String) :
    (source = "" → Text.lines source.toList = [[]]) ∧
    (source ≠ "" → Text.Cut source.toList (Text.lines source.toList)) ∧
    Scanned 1 (Text.lines source.toList) (scan source) := by
  refine ⟨?_, ?_, scanned_scanLines ..⟩
  · rintro rfl
    rfl
  · intro hne
    rw [Text.lines, if_neg (by simpa using hne)]
    exact Text.cut_splitLines _

end ArmLang.Token
