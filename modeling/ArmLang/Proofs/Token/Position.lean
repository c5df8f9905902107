import ArmLang.Proofs.Token.Tiling
import Mathlib.Data.List.Nodup

namespace ArmLang

/-- A place on numbered lines, at most one column behind the end of its line, or else the start of
the line that would come next. -/
def Location.On (first : Nat) (lines : List (List Char)) (l : Location) : Prop :=
  (∃ i row, lines[i]? = some row ∧ l.line = first + i ∧ 1 ≤ l.column ∧
    l.column ≤ row.length + 1) ∨
    l = ⟨first + lines.length, 1⟩

variable {line column stop : Nat} {row : List Char} {lines : List (List Char)} {l : Location}

theorem Location.On.column_pos (h : l.On line lines) : 1 ≤ l.column := by
  obtain ⟨_, _, _, _, hpos, _⟩ | rfl := h
  · exact hpos
  · exact Nat.le_refl 1

theorem Location.On.ne_unknown (h : l.On line lines) : l ≠ .unknown := by
  rintro rfl
  exact absurd h.column_pos (by decide)

theorem Location.on_here (hpos : 1 ≤ column) (hend : column ≤ row.length + 1) :
    Location.On line (row :: lines) ⟨line, column⟩ :=
  .inl ⟨0, row, rfl, rfl, hpos, hend⟩

theorem Location.On.later (h : l.On (line + 1) lines) : l.On line (row :: lines) := by
  obtain ⟨i, r, hr, hline, hcolumn⟩ | rfl := h
  · refine .inl ⟨i + 1, r, hr, ?_, hcolumn⟩
    omega
  · refine .inr ?_
    rw [List.length_cons, Nat.add_assoc, Nat.add_comm 1]

/-- Reading order. -/
def Location.Before (l l' : Location) : Prop :=
  l.line < l'.line ∨ l.line = l'.line ∧ l.column < l'.column

theorem Location.Before.ne {l l' : Location} (h : l.Before l') : l ≠ l' := by
  rintro rfl
  obtain h | ⟨-, h⟩ := h
  · exact Nat.lt_irrefl _ h
  · exact Nat.lt_irrefl _ h

namespace Token

variable {ts : List Token}

theorem Tiles.stop_le (h : Tiles line column row ts stop) {t : Token} (ht : t ∈ ts) :
    column ≤ t.location.column ∧ t.stop ≤ column + row.length := by
  obtain ⟨i, hlocation, htext⟩ := h.slice t ht
  have hlength := htext.length_le
  have hpos : 0 < t.text.toList.length :=
    List.length_pos_of_ne_nil (by simpa using h.nonempty t ht)
  rw [List.length_drop] at hlength
  rw [Token.stop, hlocation, ← String.length_toList]
  dsimp only
  omega

/-- Whether a comment ends the line or not, the scan stops on it. -/
theorem Tiles.stop_on (h : Tiles line column row ts stop) :
    column ≤ stop ∧ stop ≤ column + row.length := by
  by_cases hs : ∀ t ∈ ts, t.kind ≠ .semicolon
  · rw [h.whole hs]
    omega
  · push Not at hs
    obtain ⟨t, ht, hkind⟩ := hs
    obtain ⟨hbegin, hend⟩ := h.stop_le ht
    rw [(h.comment t ht hkind).2]
    exact ⟨Nat.le_trans hbegin (Nat.le_add_right ..), hend⟩

theorem Tiles.on (h : Tiles line 1 row ts stop) (lines : List (List Char)) :
    ∀ t ∈ ts, t.location.On line (row :: lines) := by
  intro t ht
  obtain ⟨i, hlocation, -⟩ := h.slice t ht
  obtain ⟨hbegin, hend⟩ := h.stop_le ht
  unfold Token.stop at hend
  rw [hlocation] at hbegin hend ⊢
  dsimp only at hbegin hend
  exact Location.on_here hbegin (by omega)

theorem Scanned.on (h : Scanned line lines ts) : ∀ t ∈ ts, t.location.On line lines := by
  induction h with
  | fileEnd => exact List.forall_mem_singleton.2 (.inr rfl)
  | line htiles _ ih =>
    obtain ⟨hpos, hend⟩ := htiles.stop_on
    refine List.forall_mem_append.2 ⟨htiles.on _, List.forall_mem_cons.2 ⟨?_, ?_⟩⟩
    · exact Location.on_here hpos (by omega)
    · exact fun t ht => (ih t ht).later

theorem Scanned.exists_fileEnd (h : Scanned line lines ts) : ∃ t ∈ ts, t.kind = .fileEnd := by
  induction h with
  | fileEnd => exact ⟨_, List.mem_cons_self, rfl⟩
  | line _ _ ih =>
    obtain ⟨t, ht, hkind⟩ := ih
    exact ⟨t, List.mem_append_right _ (List.mem_cons_of_mem _ ht), hkind⟩

theorem Tiles.line_eq (h : Tiles line column row ts stop) {t : Token} (ht : t ∈ ts) :
    t.location.line = line := by
  obtain ⟨i, hlocation, -⟩ := h.slice t ht
  rw [hlocation]

theorem Tiles.column_lt_stop (h : Tiles line column row ts stop) {t : Token} (ht : t ∈ ts) :
    t.location.column < t.stop := by
  have hpos : 0 < t.text.length := by
    rw [← String.length_toList]
    exact List.length_pos_of_ne_nil (by simpa using h.nonempty t ht)
  exact Nat.lt_add_of_pos_right hpos

theorem Tiles.in_order (h : Tiles line column row ts stop) :
    ts.Pairwise (·.location.Before ·.location) := by
  refine h.ordered.imp_of_mem fun {t u} ht hu hle => .inr ⟨?_, ?_⟩
  · rw [h.line_eq ht, h.line_eq hu]
  · exact Nat.lt_of_lt_of_le (h.column_lt_stop ht) hle

theorem Scanned.line_le (h : Scanned line lines ts) : ∀ t ∈ ts, line ≤ t.location.line := by
  intro t ht
  obtain ⟨i, row, -, hline, -⟩ | hlast := h.on t ht
  · exact hline ▸ Nat.le_add_right ..
  · exact hlast ▸ Nat.le_add_right ..

/-- Tokens are in the order of their places, no two of which are the same. -/
theorem Scanned.in_order (h : Scanned line lines ts) :
    ts.Pairwise (·.location.Before ·.location) := by
  induction h with
  | fileEnd => exact List.pairwise_singleton ..
  | line htiles hrest ih =>
    refine List.pairwise_append.2 ⟨htiles.in_order, List.pairwise_cons.2 ⟨?_, ih⟩, ?_⟩
    · exact fun u hu => .inl (hrest.line_le u hu)
    · intro t ht
      refine List.forall_mem_cons.2 ⟨.inr ⟨htiles.line_eq ht, ?_⟩, fun u hu => .inl ?_⟩
      · exact Nat.lt_of_lt_of_le (htiles.column_lt_stop ht) (htiles.within t ht)
      · rw [htiles.line_eq ht]
        exact hrest.line_le u hu

theorem scan_eq_of_location {source : String} {t u : Token} (ht : t ∈ scan source)
    (hu : u ∈ scan source) (h : t.location = u.location) : t = u := by
  have horder := (scanned_scanLines 1 (Text.lines source.toList)).in_order
  have hnodup : ((scan source).map (·.location)).Nodup :=
    List.pairwise_map.2 (horder.imp Location.Before.ne)
  exact List.inj_on_of_nodup_map hnodup ht hu h

end Token

end ArmLang
