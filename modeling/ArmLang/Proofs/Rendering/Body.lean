import ArmLang.Proofs.Rendering.Statement

namespace ArmLang.Statement

def Body.prepend (b : Body) (ss : List Statement) (n : Nat) : Body :=
  ⟨ss ++ b.statements, n + b.used, b.noted⟩

/-- Whatever follows, the tokens are read as the statements, and reading goes on behind them. -/
def Lines (ts : List Token) (ss : List Statement) : Prop :=
  ∀ nested stop rest,
    readBody nested stop (ts ++ rest) = (readBody nested stop rest).prepend ss ts.length

theorem lines_nil : Lines [] [] := by
  intro nested stop rest
  rw [List.nil_append, Body.prepend, List.length_nil, Nat.zero_add]
  rfl

theorem Lines.append {ts us : List Token} {ss ss' : List Statement} (h : Lines ts ss)
    (h' : Lines us ss') : Lines (ts ++ us) (ss ++ ss') := by
  intro nested stop rest
  rw [List.append_assoc, h, h']
  simp only [Body.prepend, List.append_assoc, List.length_append, Nat.add_assoc]

theorem readBody_item {t : Token} {us rest : List Token} {stop : Location}
    {o : Option Statement} (hc : closesBody t.kind = false)
    (hi : readItem t stop (us ++ rest) = ⟨.ok o, us.length + 1, []⟩) (nested : Bool) :
    readBody nested stop (t :: (us ++ rest)) =
      (readBody nested stop rest).prepend o.toList (us.length + 1) := by
  rw [readBody, if_neg (by simp [hc]), hi]
  simp only [recover, Nat.add_sub_cancel, List.drop_left]
  cases o with
  | none => rfl
  | some s => rfl

theorem lines_lineEnd {nl : Token} (h : nl.kind = .lineEnd) : Lines [nl] [] := by
  intro nested stop rest
  have hi : readItem nl stop ([] ++ rest) = ⟨.ok none, 0 + 1, []⟩ := by
    rw [readItem.eq_def, h]
  exact readBody_item (by rw [h]; rfl) hi nested

/-- A statement that is read off a line up to its end, which is then passed over. -/
theorem lines_of_readItem {t nl : Token} {us : List Token} {s : Statement}
    (hc : closesBody t.kind = false) (hnl : nl.kind = .lineEnd)
    (hi : ∀ stop rest,
      readItem t stop (us ++ nl :: rest) = ⟨.ok (some s), us.length + 1, []⟩) :
    Lines (t :: (us ++ [nl])) [s] := by
  intro nested stop rest
  rw [List.cons_append, List.append_assoc, List.singleton_append,
    readBody_item hc (hi stop rest)]
  rw [show nl :: rest = [nl] ++ rest from rfl, lines_lineEnd hnl]
  simp only [Body.prepend, List.nil_append, List.length_cons, List.length_append,
    List.length_nil, Option.toList_some]
  congr 1
  omega

theorem lines_of_readItem_line {t : Token} {us : List Token} {s : Statement}
    (hc : closesBody t.kind = false)
    (hi : ∀ stop rest, readItem t stop (us ++ rest) = ⟨.ok (some s), us.length + 1, []⟩) :
    Lines (t :: us) [s] := by
  intro nested stop rest
  exact readBody_item hc (hi stop rest) nested

/-- Inside another statement, the token that ends the body is left. -/
theorem Lines.closed {ts : List Token} {ss : List Statement} (h : Lines ts ss) {e : Token}
    (he : closesBody e.kind = true) (stop : Location) (rest : List Token) :
    readBody true stop (ts ++ e :: rest) = ⟨ss, ts.length, []⟩ := by
  rw [h, readBody, if_pos (by simpa using he)]
  simp [Body.prepend]

theorem readItem_of_reading {t : Token} {stop : Location} {s : List Token} {st : Statement}
    {n : Nat} {r : Reading Statement} (hi : readItem t stop s = (r.after 1).map some)
    (hr : r = ⟨.ok st, n, []⟩) : readItem t stop s = ⟨.ok (some st), n + 1, []⟩ := by
  rw [hi, hr, Reading.after_ok, Reading.map, Reading.andThen_ok, Reading.value,
    Reading.after_ok, Nat.add_zero, Nat.add_comm]

theorem Body.andThen_silent (ss : List Statement) (n : Nat) (f : List Statement → Reading α) :
    Body.andThen ⟨ss, n, []⟩ f = (f ss).after n := rfl

theorem first?_exists (ts : List Token) (t : Token) : ∃ l, first? (ts ++ [t]) = some l := by
  cases ts with
  | nil => exact ⟨_, rfl⟩
  | cons u ts => exact ⟨_, rfl⟩

theorem readRoutine_of_lines {n o c e : Token} {ts : List Token} {ss : List Statement}
    (hn : n.kind = .identifier) (ho : o.kind = .leftParen) (hc : c.kind = .rightParen)
    (h : Lines ts ss) (he : e.kind = .keyword .endWord) {start : Location}
    (hl : first? (ts ++ [e]) = some start) (d stop : Location) (rest : List Token) :
    readRoutine d stop (n :: o :: c :: (ts ++ e :: rest)) =
      ⟨.ok (routine n.text start ss d), ts.length + 4, []⟩ := by
  have hhead := readRoutineHead_takes hn ho hc (ts ++ e :: rest) stop
  have hstart : nextLocation stop (ts ++ e :: rest) = start :=
    Option.some.inj ((first?_eq_nextLocation stop rfl).symm.trans hl)
  rw [show n :: o :: c :: (ts ++ e :: rest) = [n, o, c] ++ (ts ++ e :: rest) from rfl, readRoutine,
    hhead, Reading.andThen_ok]
  dsimp only
  rw [List.drop_left, h.closed (by rw [he]; rfl)]
  rw [Body.andThen_silent, List.drop_left, hstart, Reader.expect_of_kind he, Reading.map_ok,
    Reading.after_ok, Reading.after_ok]
  congr 1
  exact Nat.add_comm 3 _

theorem readConditional_of_lines {cs ts rest : List Token} {th nl e : Token} {condition : Expr}
    {ss : List Statement}
    (hcs : Expr.reader.Takes cs (th :: nl :: (ts ++ e :: rest)) condition)
    (hth : th.kind = .keyword .thenWord) (hnl : nl.kind = .lineEnd) (h : Lines ts ss)
    (he : e.kind = .keyword .endIf) {start : Location} (hl : first? (ts ++ [e]) = some start)
    (i stop : Location) :
    readConditional i stop (cs ++ th :: nl :: (ts ++ e :: rest)) =
      ⟨.ok (ifThen condition start ss i), cs.length + ts.length + 3, []⟩ := by
  have hhead := readCondition_takes hcs hth hnl stop
  have hstart : nextLocation stop (ts ++ e :: rest) = start :=
    Option.some.inj ((first?_eq_nextLocation stop rfl).symm.trans hl)
  have helse := readElse_takes_absent he rest stop
  have hs : cs ++ th :: nl :: (ts ++ e :: rest) = (cs ++ [th, nl]) ++ (ts ++ e :: rest) := by simp
  rw [hs, readConditional, hhead, Reading.andThen_ok]
  dsimp only
  rw [List.drop_left, h.closed (by rw [he]; rfl), Body.andThen_silent, List.drop_left, hstart]
  rw [List.nil_append] at helse
  rw [helse, Reading.andThen_ok]
  simp only [Bool.false_eq_true, if_false, List.length_nil, List.drop_zero]
  rw [Reader.expect_of_kind he, Reading.map_ok, Reading.after_ok, Reading.after_ok,
    Reading.after_ok, List.length_append]
  congr 1
  simp only [List.length_cons, List.length_nil]
  omega

theorem readConditional_of_lines_else {cs ts us rest : List Token} {th nl el nl' e : Token}
    {condition : Expr} {ss ss' : List Statement}
    (hcs : Expr.reader.Takes cs (th :: nl :: (ts ++ el :: nl' :: (us ++ e :: rest))) condition)
    (hth : th.kind = .keyword .thenWord) (hnl : nl.kind = .lineEnd) (h : Lines ts ss)
    (hel : el.kind = .keyword .elseWord) (hnl' : nl'.kind = .lineEnd) (h' : Lines us ss')
    (he : e.kind = .keyword .endIf) {start start' : Location}
    (hl : first? (ts ++ [el]) = some start) (hl' : first? (us ++ [e]) = some start')
    (i stop : Location) :
    readConditional i stop (cs ++ th :: nl :: (ts ++ el :: nl' :: (us ++ e :: rest))) =
      ⟨.ok (ifElse condition start ss start' ss' i), cs.length + ts.length + us.length + 5, []⟩ := by
  have hhead := readCondition_takes hcs hth hnl stop
  have hstart : nextLocation stop (ts ++ el :: nl' :: (us ++ e :: rest)) = start :=
    Option.some.inj ((first?_eq_nextLocation stop rfl).symm.trans hl)
  have hstart' : nextLocation stop (us ++ e :: rest) = start' :=
    Option.some.inj ((first?_eq_nextLocation stop rfl).symm.trans hl')
  have helse := readElse_takes hel hnl' (us ++ e :: rest) stop
  have hs : cs ++ th :: nl :: (ts ++ el :: nl' :: (us ++ e :: rest)) =
      (cs ++ [th, nl]) ++ (ts ++ el :: nl' :: (us ++ e :: rest)) := by simp
  rw [hs, readConditional, hhead, Reading.andThen_ok]
  dsimp only
  rw [List.drop_left, h.closed (by rw [hel]; rfl), Body.andThen_silent, List.drop_left, hstart]
  rw [show el :: nl' :: (us ++ e :: rest) = [el, nl'] ++ (us ++ e :: rest) from rfl, helse,
    Reading.andThen_ok]
  simp only [if_true]
  rw [List.drop_left, h'.closed (by rw [he]; rfl), Body.andThen_silent, List.drop_left, hstart',
    Reader.expect_of_kind he, Reading.map_ok, Reading.after_ok, Reading.after_ok,
    Reading.after_ok, Reading.after_ok, List.length_append]
  congr 1
  simp only [List.length_cons, List.length_nil]
  omega

theorem lines_routine {d n o c e nl : Token} {ts : List Token} {ss : List Statement}
    (hd : d.kind = .keyword .defWord) (hn : n.kind = .identifier) (ho : o.kind = .leftParen)
    (hc : c.kind = .rightParen) (h : Lines ts ss) (he : e.kind = .keyword .endWord)
    (hnl : nl.kind = .lineEnd) :
    ∃ start, Lines (d :: n :: o :: c :: (ts ++ [e, nl])) [routine n.text start ss d.location] := by
  obtain ⟨start, hl⟩ := first?_exists ts e
  refine ⟨start, ?_⟩
  have hs : d :: n :: o :: c :: (ts ++ [e, nl]) = d :: (n :: o :: c :: (ts ++ [e]) ++ [nl]) := by
    simp
  rw [hs]
  apply lines_of_readItem (by rw [hd]; rfl) hnl
  intro stop rest
  have hr := readRoutine_of_lines hn ho hc h he hl d.location stop (nl :: rest)
  simp only [List.cons_append, List.append_assoc, List.nil_append]
  rw [readItem_of_reading (by rw [readItem.eq_def, hd]) hr]
  simp

theorem lines_ifThen {i th nl e nl' : Token} {cs ts : List Token} {condition : Expr}
    {ss : List Statement} (hi : i.kind = .keyword .ifWord)
    (hcs : ∀ rest, Expr.Closed rest → Expr.reader.Takes cs rest condition)
    (hth : th.kind = .keyword .thenWord) (hnl : nl.kind = .lineEnd) (h : Lines ts ss)
    (he : e.kind = .keyword .endIf) (hnl' : nl'.kind = .lineEnd) :
    ∃ start, Lines (i :: (cs ++ th :: nl :: (ts ++ [e, nl'])))
      [ifThen condition start ss i.location] := by
  obtain ⟨start, hl⟩ := first?_exists ts e
  refine ⟨start, ?_⟩
  have hs : i :: (cs ++ th :: nl :: (ts ++ [e, nl'])) =
      i :: (cs ++ th :: nl :: (ts ++ [e]) ++ [nl']) := by
    simp
  rw [hs]
  apply lines_of_readItem (by rw [hi]; rfl) hnl'
  intro stop rest
  have hcondition : Expr.reader.Takes cs (th :: nl :: (ts ++ e :: nl' :: rest)) condition :=
    hcs _ (Expr.closed_cons (by rw [hth]; rfl) _)
  have hr := readConditional_of_lines hcondition hth hnl h he hl i.location stop
  simp only [List.cons_append, List.append_assoc, List.nil_append]
  rw [readItem_of_reading (by rw [readItem.eq_def, hi]) hr]
  congr 1
  simp only [List.length_append, List.length_cons, List.length_nil]
  omega

theorem lines_ifElse {i th nl el nl₁ e nl₂ : Token} {cs ts us : List Token} {condition : Expr}
    {ss ss' : List Statement} (hi : i.kind = .keyword .ifWord)
    (hcs : ∀ rest, Expr.Closed rest → Expr.reader.Takes cs rest condition)
    (hth : th.kind = .keyword .thenWord) (hnl : nl.kind = .lineEnd) (h : Lines ts ss)
    (hel : el.kind = .keyword .elseWord) (hnl₁ : nl₁.kind = .lineEnd) (h' : Lines us ss')
    (he : e.kind = .keyword .endIf) (hnl₂ : nl₂.kind = .lineEnd) :
    ∃ start start', Lines (i :: (cs ++ th :: nl :: (ts ++ el :: nl₁ :: (us ++ [e, nl₂]))))
      [ifElse condition start ss start' ss' i.location] := by
  obtain ⟨start, hl⟩ := first?_exists ts el
  obtain ⟨start', hl'⟩ := first?_exists us e
  refine ⟨start, start', ?_⟩
  have hs : i :: (cs ++ th :: nl :: (ts ++ el :: nl₁ :: (us ++ [e, nl₂]))) =
      i :: (cs ++ th :: nl :: (ts ++ el :: nl₁ :: (us ++ [e])) ++ [nl₂]) := by
    simp
  rw [hs]
  apply lines_of_readItem (by rw [hi]; rfl) hnl₂
  intro stop rest
  have hcondition : Expr.reader.Takes cs
      (th :: nl :: (ts ++ el :: nl₁ :: (us ++ e :: nl₂ :: rest))) condition :=
    hcs _ (Expr.closed_cons (by rw [hth]; rfl) _)
  have hr := readConditional_of_lines_else hcondition hth hnl h hel hnl₁ h' he hl hl' i.location
    stop
  simp only [List.cons_append, List.append_assoc, List.nil_append]
  rw [readItem_of_reading (by rw [readItem.eq_def, hi]) hr]
  congr 1
  simp only [List.length_append, List.length_cons, List.length_nil]
  omega

end ArmLang.Statement
