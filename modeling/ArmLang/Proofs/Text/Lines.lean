import ArmLang.Text.Lines

namespace ArmLang.Text

/-- Whether a line feed behind the text makes a line of all of it. -/
def Whole (l : List Char) : Prop := '\n' ∉ l ∧ l.getLast? ≠ some '\r'

/-- A text cut into lines at its line feeds. A carriage return directly before a line feed goes with
it, and what is behind the last line feed is a line if there is anything. -/
inductive Cut : List Char → List (List Char) → Prop
  | nil : Cut [] []
  | last {l : List Char} : l ≠ [] → '\n' ∉ l → Cut l [l]
  | feed {l cs : List Char} {ls : List (List Char)} : Whole l → Cut cs ls →
    Cut (l ++ '\n' :: cs) (l :: ls)
  | returnFeed {l cs : List Char} {ls : List (List Char)} : '\n' ∉ l → Cut cs ls →
    Cut (l ++ '\r' :: '\n' :: cs) (l :: ls)

theorem splitLines_cons {c : Char} {cs : List Char} (hc : c ≠ '\n')
    (hfeed : c = '\r' → cs.head? ≠ some '\n') :
    splitLines (c :: cs) = consLine c (splitLines cs) := by
  rw [splitLines]
  · exact hc
  · rintro cs rfl rfl
    exact hfeed rfl rfl

theorem Cut.cons {c : Char} {cs : List Char} {ls : List (List Char)} (h : Cut cs ls)
    (hc : c ≠ '\n') (hfeed : c = '\r' → cs.head? ≠ some '\n') : Cut (c :: cs) (consLine c ls) := by
  have hmem {l : List Char} (hl : '\n' ∉ l) : '\n' ∉ c :: l :=
    List.not_mem_cons_of_ne_of_not_mem hc.symm hl
  cases h with
  | nil => exact .last (List.cons_ne_nil c []) (hmem List.not_mem_nil)
  | last _ hl => exact .last (List.cons_ne_nil c _) (hmem hl)
  | @feed l cs ls hl h =>
    refine .feed ⟨hmem hl.1, ?_⟩ h
    cases l with
    | nil =>
      intro hr
      exact hfeed (Option.some.inj hr) rfl
    | cons d l => rw [List.getLast?_cons_cons]; exact hl.2
  | returnFeed hl h => exact .returnFeed (hmem hl) h

theorem cut_splitLines (cs : List Char) : Cut cs (splitLines cs) := by
  fun_induction splitLines cs with
  | case1 => exact .nil
  | case2 cs ih => exact .feed ⟨List.not_mem_nil, nofun⟩ ih
  | case3 cs ih => exact .returnFeed List.not_mem_nil ih
  | case4 c cs hc hfeed ih =>
    refine ih.cons hc ?_
    intro hr hhead
    obtain ⟨cs, rfl⟩ := List.head?_eq_some_iff.1 hhead
    exact hfeed cs hr rfl

theorem Cut.newline_not_mem {cs : List Char} {ls : List (List Char)} (h : Cut cs ls) :
    ∀ l ∈ ls, '\n' ∉ l := by
  induction h with
  | nil => exact fun _ h => nomatch h
  | last _ hl => exact fun l h => List.mem_singleton.1 h ▸ hl
  | feed hl _ ih => exact List.forall_mem_cons.2 ⟨hl.1, ih⟩
  | returnFeed hl _ ih => exact List.forall_mem_cons.2 ⟨hl, ih⟩

theorem Whole.cons {c : Char} {l : List Char} (hc : c ≠ '\n') (hr : c ≠ '\r') (h : Whole l) :
    Whole (c :: l) := by
  refine ⟨List.not_mem_cons_of_ne_of_not_mem hc.symm h.1, ?_⟩
  cases l with
  | nil => exact fun hlast => hr (Option.some.inj hlast)
  | cons d l =>
    rw [List.getLast?_cons_cons]
    exact h.2

theorem Whole.append {l m : List Char} (hl : Whole l) (hm : Whole m) : Whole (l ++ m) := by
  refine ⟨fun h => (List.mem_append.1 h).elim hl.1 hm.1, ?_⟩
  rw [List.getLast?_append]
  cases hlast : m.getLast? with
  | none => exact hl.2
  | some c =>
    have hc := hm.2
    rwa [hlast] at hc

/-- A line goes as far as the text behind it begins with the end of a line. -/
theorem splitLines_append_of_end {l cs : List Char} {ls : List (List Char)} (hl : '\n' ∉ l)
    (hcs : splitLines cs = [] :: ls) (hfeed : cs.head? = some '\n' → l.getLast? ≠ some '\r') :
    splitLines (l ++ cs) = l :: ls := by
  induction l with
  | nil => exact hcs
  | cons c l ih =>
    rw [List.mem_cons, not_or] at hl
    have hnext : c = '\r' → (l ++ cs).head? ≠ some '\n' := by
      rintro rfl hhead
      cases l with
      | nil => exact hfeed hhead rfl
      | cons d l =>
        cases hhead
        exact hl.2 List.mem_cons_self
    rw [List.cons_append, splitLines_cons (Ne.symm hl.1) hnext, ih hl.2, consLine]
    intro hhead hlast
    cases l with
    | nil => cases hlast
    | cons d l =>
      rw [← List.getLast?_cons_cons (a := c)] at hlast
      exact hfeed hhead hlast

theorem splitLines_feed {l : List Char} (h : Whole l) (cs : List Char) :
    splitLines (l ++ '\n' :: cs) = l :: splitLines cs :=
  splitLines_append_of_end h.1 (splitLines_newline cs) fun _ => h.2

theorem splitLines_returnFeed {l : List Char} (h : '\n' ∉ l) (cs : List Char) :
    splitLines (l ++ '\r' :: '\n' :: cs) = l :: splitLines cs :=
  splitLines_append_of_end h (by rw [splitLines]) nofun

/-- Lines that are written down one after the other, each with a line feed, are cut again. -/
theorem splitLines_flatMap {ls : List (List Char)} (h : ∀ l ∈ ls, Whole l) :
    splitLines (ls.flatMap (· ++ ['\n'])) = ls := by
  induction ls with
  | nil => rfl
  | cons l ls ih =>
    rw [List.forall_mem_cons] at h
    rw [List.flatMap_cons, List.append_assoc, List.singleton_append, splitLines_feed h.1, ih h.2]

theorem splitLines_of_newline_not_mem {l : List Char} (hne : l ≠ []) (h : '\n' ∉ l) :
    splitLines l = [l] := by
  induction l with
  | nil => exact absurd rfl hne
  | cons c l ih =>
    rw [List.mem_cons, not_or] at h
    have hfeed : c = '\r' → l.head? ≠ some '\n' :=
      fun _ hhead => h.2 (List.mem_of_head? hhead)
    rw [splitLines_cons (Ne.symm h.1) hfeed]
    cases l with
    | nil => rfl
    | cons d l => rw [ih (List.cons_ne_nil d l) h.2, consLine]

theorem Cut.splitLines_eq {cs : List Char} {ls : List (List Char)} (h : Cut cs ls) :
    splitLines cs = ls := by
  induction h with
  | nil => rfl
  | last hne hl => exact splitLines_of_newline_not_mem hne hl
  | feed hl _ ih => rw [splitLines_feed hl, ih]
  | returnFeed hl _ ih => rw [splitLines_returnFeed hl, ih]

/-- Whether the text leaves no line open. -/
def Ended (cs : List Char) : Prop := ∀ c ∈ cs.getLast?, c = '\n'

theorem ended_nil : Ended [] := nofun

theorem ended_newline_iff {l cs : List Char} : Ended (l ++ '\n' :: cs) ↔ Ended cs := by
  rw [Ended, Ended, List.getLast?_append, List.getLast?_cons, Option.some_or]
  cases cs.getLast? with
  | none => simp
  | some c => rfl

theorem Ended.eq_nil {l : List Char} (h : Ended l) (hl : '\n' ∉ l) : l = [] := by
  rw [← List.getLast?_eq_none_iff, Option.eq_none_iff_forall_not_mem]
  intro c hc
  obtain rfl := h c hc
  exact hl (List.mem_of_getLast? hc)

theorem newline_not_mem_return {l : List Char} (h : '\n' ∉ l) : '\n' ∉ l ++ ['\r'] :=
  List.not_mem_append h (by decide)

theorem count_feed {l : List Char} (h : '\n' ∉ l) (cs : List Char) :
    (l ++ '\n' :: cs).count '\n' = cs.count '\n' + 1 := by
  rw [List.count_append, List.count_eq_zero_of_not_mem h, List.count_cons_self, Nat.zero_add]

/-- The lines of what is behind a text that leaves none open come after the lines of that text. -/
theorem Cut.append {cs ds : List Char} {ls ms : List (List Char)} (h : Cut cs ls) (hcs : Ended cs)
    (hds : Cut ds ms) : Cut (cs ++ ds) (ls ++ ms) := by
  induction h with
  | nil => exact hds
  | last hne hl => exact absurd (hcs.eq_nil hl) hne
  | feed hl _ ih =>
    rw [List.append_assoc]
    exact .feed hl (ih (ended_newline_iff.1 hcs))
  | returnFeed hl _ ih =>
    rw [List.append_assoc]
    rw [List.append_cons] at hcs
    exact .returnFeed hl (ih (ended_newline_iff.1 hcs))

theorem Cut.length_eq {cs : List Char} {ls : List (List Char)} (h : Cut cs ls) (hcs : Ended cs) :
    ls.length = cs.count '\n' := by
  induction h with
  | nil => rfl
  | last hne hl => exact absurd (hcs.eq_nil hl) hne
  | feed hl _ ih => rw [List.length_cons, ih (ended_newline_iff.1 hcs), count_feed hl.1]
  | returnFeed hl _ ih =>
    rw [List.append_cons] at hcs ⊢
    rw [List.length_cons, ih (ended_newline_iff.1 hcs), count_feed (newline_not_mem_return hl)]

def EndsLine (cs : List Char) : Prop := cs = [] ∨ ∃ ds, cs = '\n' :: ds ∨ cs = '\r' :: '\n' :: ds

/-- Each line stands in the text behind the lines above it. -/
theorem Cut.exists_above {cs l : List Char} {ls : List (List Char)} {i : Nat} (h : Cut cs ls)
    (hl : ls[i]? = some l) : ∃ above rest, cs = above ++ (l ++ rest) ∧ Ended above ∧
      above.count '\n' = i ∧ EndsLine rest := by
  induction h generalizing i with
  | nil => cases hl
  | last =>
    cases i with
    | zero =>
      cases hl
      exact ⟨[], [], (List.append_nil _).symm, ended_nil, rfl, .inl rfl⟩
    | succ i => cases hl
  | @feed m cs ls hm h ih =>
    cases i with
    | zero =>
      cases hl
      exact ⟨[], '\n' :: cs, rfl, ended_nil, rfl, .inr ⟨cs, .inl rfl⟩⟩
    | succ i =>
      obtain ⟨above, rest, rfl, habove, rfl, hrest⟩ := ih hl
      exact ⟨m ++ '\n' :: above, rest, by simp, ended_newline_iff.2 habove, count_feed hm.1 above,
        hrest⟩
  | @returnFeed m cs ls hm h ih =>
    cases i with
    | zero =>
      cases hl
      exact ⟨[], '\r' :: '\n' :: cs, rfl, ended_nil, rfl, .inr ⟨cs, .inr rfl⟩⟩
    | succ i =>
      obtain ⟨above, rest, rfl, habove, rfl, hrest⟩ := ih hl
      exact ⟨m ++ ['\r'] ++ '\n' :: above, rest, by simp, ended_newline_iff.2 habove,
        count_feed (newline_not_mem_return hm) above, hrest⟩

theorem lines_eq_splitLines {cs : List Char} (h : cs ≠ []) : lines cs = splitLines cs :=
  if_neg (by simpa using h)

theorem lines_ne_nil (cs : List Char) : lines cs ≠ [] := by
  cases cs with
  | nil => exact List.cons_ne_nil _ _
  | cons c cs =>
    rw [lines_eq_splitLines (List.cons_ne_nil c cs), ne_eq, splitLines_eq_nil_iff]
    exact List.cons_ne_nil c cs

theorem newline_not_mem_lines (cs : List Char) : ∀ l ∈ lines cs, '\n' ∉ l := by
  cases cs with
  | nil => exact List.forall_mem_singleton.2 List.not_mem_nil
  | cons c cs =>
    rw [lines_eq_splitLines (List.cons_ne_nil c cs)]
    exact (cut_splitLines (c :: cs)).newline_not_mem

theorem lines_flatMap {ls : List (List Char)} (hne : ls ≠ []) (h : ∀ l ∈ ls, Whole l) :
    lines (ls.flatMap (· ++ ['\n'])) = ls := by
  rw [lines_eq_splitLines, splitLines_flatMap h]
  obtain ⟨l, ls, rfl⟩ := List.exists_cons_of_ne_nil hne
  simp

end ArmLang.Text
