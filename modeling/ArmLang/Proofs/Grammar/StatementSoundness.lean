import ArmLang.Proofs.Grammar.ExprSoundness
import ArmLang.Proofs.Grammar.Statement
import ArmLang.Proofs.Program.Progress

namespace ArmLang

namespace Statement

mutual

theorem readFields_grounded (type : Compound) (stop : Location) (s : List Token) :
    (readFields type stop s).Grounded s (Fields type) := by
  match s with
  | [] =>
    rw [readFields]
    exact Reading.grounded_failure _ stop []
  | f :: rest =>
    rw [readFields]
    split
    · exact Reading.grounded_failure _ f.location _
    · next hk =>
      have hk := Decidable.not_not.1 hk
      split
      · intro a ha
        cases ha
      · next hf =>
        have hf : f.text ∈ type.dataType.fieldNames := by simpa using hf
        apply (Expr.read_grounded stop rest).after_one_andThen
        intro ts e he
        apply (readMoreFields_grounded type stop _).map
        rintro us more (⟨rfl, rfl⟩ | ⟨c, vs, rfl, hc, hm⟩)
        · rw [List.append_nil]
          exact .one hk hf he
        · exact .more hk hf he hc hm
termination_by 2 * s.length
decreasing_by
  simp only [List.length_drop, List.length_cons]
  omega

theorem readMoreFields_grounded (type : Compound) (stop : Location) (s : List Token) :
    (readMoreFields type stop s).Grounded s fun ts fields =>
      (ts = [] ∧ fields = []) ∨
        ∃ c us, ts = c :: us ∧ c.kind = .comma ∧ Fields type us fields := by
  match s with
  | [] =>
    rw [readMoreFields]
    exact Reading.grounded_value (.inl ⟨rfl, rfl⟩) []
  | c :: rest =>
    rw [readMoreFields]
    split
    · next hc =>
      apply ((readFields_grounded type stop rest).after_one c).imp
      rintro _ fields ⟨us, rfl, hf⟩
      exact .inr ⟨c, us, rfl, hc, hf⟩
    · exact Reading.grounded_value (.inl ⟨rfl, rfl⟩) _
termination_by 2 * s.length + 1

end

theorem expr_grounded : Expr.reader.Grounded (Expr.Derives .assignment) := Expr.read_grounded

theorem readCompound_grounded (type : Compound) :
    (readCompound type).Grounded (CompoundValue type) := by
  apply (Reader.grounded_accept .assign).bind
  intro _ _ ha
  cases ha with
  | absent => exact Reader.grounded_pure .absent
  | present ha =>
    apply (Reader.grounded_expect .leftBrace _).bind
    rintro _ o ⟨rfl, ho⟩
    have hfields : Reader.Grounded
        (fun stop s =>
          if s.head?.any (·.kind = .rightBrace) then .value [] else readFields type stop s)
        fun ts fields => (ts = [] ∧ fields = []) ∨ Fields type ts fields := by
      intro stop s
      dsimp only
      split
      · exact Reading.grounded_value (.inl ⟨rfl, rfl⟩) s
      · exact (readFields_grounded type stop s).imp fun _ _ h => .inr h
    apply hfields.bind
    intro ts fields hf
    apply (Reader.grounded_expect .rightBrace _).bind
    rintro _ c ⟨rfl, hc⟩
    apply Reader.grounded_pure
    rw [List.append_nil]
    rcases hf with ⟨rfl, rfl⟩ | hf
    · exact .empty ha ho hc
    · exact .fields ha ho hf hc

theorem readCompoundDeclaration_grounded (type : Compound) {d k : Token}
    (hd : d.kind = .keyword .decl) (hk : k.kind = .keyword (.type type.dataType)) :
    (readCompoundDeclaration type d.location).Grounded fun ts s => Derives (d :: k :: ts) s := by
  apply (Reader.grounded_expect .identifier _).bind
  rintro _ n ⟨rfl, hn⟩
  apply (readCompound_grounded type).bind
  intro us fields hf
  apply (Reader.grounded_acceptOrNote .lineEnd _).bind
  rintro _ _ ⟨e, rfl, he⟩
  apply Reader.grounded_pure
  rw [List.append_nil]
  exact .declareFields hd hk hn hf he

theorem readScalarDeclaration_grounded {type : DataType} (ht : type.isStructured = false)
    {d k : Token} (hd : d.kind = .keyword .decl) (hk : k.kind = .keyword (.type type)) :
    (readScalarDeclaration type d.location).Grounded fun ts s => Derives (d :: k :: ts) s := by
  apply (Reader.grounded_expect .identifier _).bind
  rintro _ n ⟨rfl, hn⟩
  have hrest {ts : List Token} {init : Option Expr} (hi : ScalarValue ts init) :
      Reader.Grounded
        (do
          Reader.acceptOrNote .lineEnd .noLineEndAfterVariable
          return declare type n.text init d.location)
        fun us s => Derives (d :: k :: n :: (ts ++ us)) s := by
    apply (Reader.grounded_acceptOrNote .lineEnd _).bind
    rintro _ _ ⟨e, rfl, he⟩
    apply Reader.grounded_pure
    rw [List.append_nil]
    exact .declare hd hk ht hn hi he
  apply (Reader.grounded_accept .assign).bind
  intro _ _ ha
  cases ha with
  | absent =>
    have hnone : (pure none : Reader (Option Expr)).Grounded ScalarValue :=
      Reader.grounded_pure .absent
    apply hnone.bind
    intro ts init hi
    exact hrest hi
  | present ha =>
    have hvalue : Reader.Grounded (some <$> Expr.reader) fun ts init =>
        ∃ e, init = some e ∧ Expr.Derives .assignment ts e := by
      apply expr_grounded.bind
      intro ts e he
      apply Reader.grounded_pure
      rw [List.append_nil]
      exact ⟨e, rfl, he⟩
    apply hvalue.bind
    rintro ts _ ⟨e, rfl, he⟩
    exact hrest (.present ha he)

theorem readDeclaration_grounded {d : Token} (hd : d.kind = .keyword .decl) :
    (readDeclaration d.location).Grounded fun ts s => Derives (d :: ts) s := by
  intro stop s
  rw [readDeclaration.eq_def]
  split
  · next type text l rest =>
    have hk : (⟨.keyword (.type type), text, l⟩ : Token).kind = .keyword (.type type) := rfl
    split
    · next c hc =>
      rw [← DataType.dataType_of_compound? hc] at hk
      apply ((readCompoundDeclaration_grounded c hd hk stop rest).after_one _).imp
      rintro _ st ⟨ts, rfl, h⟩
      rw [DataType.dataType_of_compound? hc] at h
      exact h
    · next hc =>
      have ht := DataType.isStructured_of_compound? hc
      apply ((readScalarDeclaration_grounded ht hd hk stop rest).after_one _).imp
      rintro _ st ⟨ts, rfl, h⟩
      exact h
  · exact Reading.grounded_failure _ _ _

theorem readMotion_grounded {m : Token} {path : Path} {relative : Bool}
    (hm : m.kind = .keyword (.motion path relative)) :
    (readMotion (Keyword.motion path relative).text m.location).Grounded fun ts s =>
      Derives (m :: ts) s := by
  apply (Reader.grounded_expect .identifier _).bind
  rintro _ t ⟨rfl, ht⟩
  exact Reader.grounded_pure (.motion hm ht)

theorem readSetField_grounded {n d : Token} (hn : n.kind = .identifier) (hd : d.kind = .dot) :
    (readSetField n).Grounded fun ts s => Derives (n :: d :: ts) s := by
  apply (Reader.grounded_expect .identifier _).bind
  rintro _ f ⟨rfl, hf⟩
  dsimp only
  split
  · exact Reader.Grounded.bind (P := fun _ _ => False) (Reader.grounded_failAt _ _)
      fun _ _ h => h.elim
  · next hmem =>
    rw [Bool.not_eq_true', Bool.not_eq_false, List.contains_iff_mem] at hmem
    apply (Reader.grounded_expect .assign _).bind
    rintro _ a ⟨rfl, ha⟩
    apply expr_grounded.bind
    intro ts e he
    apply Reader.grounded_pure
    rw [List.append_nil]
    exact .setField hn hd hf hmem ha he

theorem readSeconds_grounded :
    readSeconds.Grounded fun ts x =>
      ∃ n, ts = [n] ∧ n.kind ∈ [.integer, .real] ∧ Number.real? n.text = some x := by
  intro stop s
  rw [readSeconds.eq_def]
  split
  · exact Reading.grounded_failure _ stop []
  · next t rest =>
    split
    · next hk =>
      split
      · next x hx =>
        apply Reading.grounded_one
        exact ⟨t, rfl, by simpa using hk, hx⟩
      · exact Reading.grounded_failure _ t.location _
    · exact Reading.grounded_failure _ t.location _

theorem readWait_grounded {w : Token} (hw : w.kind = .keyword .wait) :
    (readWait w.location).Grounded fun ts s => Derives (w :: ts) s := by
  apply (Reader.grounded_expect .leftParen _).bind
  rintro _ o ⟨rfl, ho⟩
  apply readSeconds_grounded.bind
  rintro _ x ⟨n, rfl, hn, hx⟩
  apply (Reader.grounded_expect .rightParen _).bind
  rintro _ c ⟨rfl, hc⟩
  exact Reader.grounded_pure (.wait hw ho hn hx hc)

theorem readEvaluation_grounded : readEvaluation.Grounded Derives := by
  apply expr_grounded.bind
  intro ts e he
  apply (Reader.grounded_accept .lineEnd).bind
  intro _ _ ha
  apply Reader.grounded_pure
  rw [List.append_nil]
  cases ha with
  | absent =>
    rw [List.append_nil]
    exact .evaluate he
  | present hnl => exact .evaluateLine he hnl

theorem readRoutineHead_grounded :
    readRoutineHead.Grounded fun ts name =>
      ∃ n o c, ts = [n, o, c] ∧ n.kind = .identifier ∧ o.kind = .leftParen ∧
        c.kind = .rightParen ∧ name = n.text := by
  apply (Reader.grounded_expect .identifier _).bind
  rintro _ n ⟨rfl, hn⟩
  apply (Reader.grounded_expect .leftParen _).bind
  rintro _ o ⟨rfl, ho⟩
  apply (Reader.grounded_expect .rightParen _).bind
  rintro _ c ⟨rfl, hc⟩
  exact Reader.grounded_pure ⟨n, o, c, rfl, hn, ho, hc, rfl⟩

theorem readCondition_grounded :
    readCondition.Grounded fun ts condition =>
      ∃ cs th nl, ts = cs ++ [th, nl] ∧ Expr.Derives .assignment cs condition ∧
        th.kind = .keyword .thenWord ∧ nl.kind = .lineEnd := by
  apply expr_grounded.bind
  intro cs condition hc
  apply (Reader.grounded_expect (.keyword .thenWord) _).bind
  rintro _ th ⟨rfl, hth⟩
  apply (Reader.grounded_expect .lineEnd _).bind
  rintro _ nl ⟨rfl, hnl⟩
  exact Reader.grounded_pure ⟨cs, th, nl, by simp, hc, hth, hnl⟩

theorem readElse_grounded :
    readElse.Grounded fun ts more =>
      (more = true ∧ ∃ el nl, ts = [el, nl] ∧ el.kind = .keyword .elseWord ∧ nl.kind = .lineEnd) ∨
        (more = false ∧ ts = []) := by
  apply (Reader.grounded_accept (.keyword .elseWord)).bind
  intro _ _ ha
  cases ha with
  | absent => exact Reader.grounded_pure (.inr ⟨rfl, rfl⟩)
  | present hel =>
    dsimp only
    apply (Reader.grounded_expect .lineEnd _).bind
    rintro _ nl ⟨rfl, hnl⟩
    exact Reader.grounded_pure (.inl ⟨rfl, _, nl, rfl, hel, hnl⟩)

/-- What one round of reading a body comes across. -/
inductive Item : List Token → Option Statement → Prop
  | statement : Derives ts s → Item ts (some s)
  | blank : t.kind ∈ [.lineEnd, .keyword .returnWord] → Item [t] none

theorem Item.ne_nil {ts : List Token} {o : Option Statement} (h : Item ts o) : ts ≠ [] := by
  cases h with
  | statement hs => exact hs.ne_nil
  | blank => exact List.cons_ne_nil _ _

theorem Item.derivesAll {ts us : List Token} {o : Option Statement} {ss : List Statement}
    (h : Item ts o) (hs : DerivesAll us ss) : DerivesAll (ts ++ us) (o.toList ++ ss) := by
  cases h with
  | statement h => exact .cons h hs
  | blank ht => exact .blank ht hs

theorem recover_grounded {r : Reading (Option Statement)} {s : List Token}
    (h : r.Grounded s Item) : (recover s r).Grounded s Item := by
  unfold recover
  split
  · exact h
  · intro o _ hn
    exact absurd hn (by simp)

theorem item_grounded {r : Reading Statement} {t : Token} {s : List Token}
    (h : r.Grounded s fun ts st => Derives (t :: ts) st) :
    ((r.after 1).map some).Grounded (t :: s) Item := by
  apply (h.after_one t).map
  rintro _ st ⟨ts, rfl, hst⟩
  exact .statement hst

def Body.reading (b : Body) : Reading (List Statement) := ⟨.ok b.statements, b.used, b.noted⟩

theorem Body.grounded_andThen {P : List Token → List Statement → Prop}
    {Q : List Token → α → Prop} {b : Body} {f : List Statement → Reading α} {s : List Token}
    (hb : b.reading.Grounded s P)
    (hf : ∀ ts ss, s = ts ++ s.drop b.used → P ts ss →
      (f ss).Grounded (s.drop b.used) fun us a => Q (ts ++ us) a) :
    (b.andThen f).Grounded s Q :=
  hb.andThen_of_eq hf

theorem closed_grounded {stop : Location} {s : List Token}
    (hb : (readBody true stop s).reading.Grounded s DerivesAll)
    (k : Kind) (err : GrammarError) (f : List Statement → α) :
    ((readBody true stop s).andThen fun ss =>
        (Reader.expect k err stop (s.drop (readBody true stop s).used)).map fun _ => f ss).Grounded
      s fun vs a => ∃ ts e ss, vs = ts ++ [e] ∧ DerivesAll ts ss ∧ e.kind = k ∧
        first? (ts ++ [e]) = some (nextLocation stop s) ∧ a = f ss := by
  apply Body.grounded_andThen hb
  intro ts ss hs hss
  apply (Reader.grounded_expect k err stop _).andThen_of_eq
  rintro _ e hs' ⟨rfl, he⟩
  apply Reading.grounded_value
  rw [hs'] at hs
  exact ⟨ts, e, ss, rfl, hss, he, first?_eq_nextLocation stop hs, rfl⟩

mutual

theorem readBody_grounded (nested : Bool) (stop : Location) (s : List Token) :
    (readBody nested stop s).reading.Grounded s fun ts ss =>
      DerivesAll ts ss ∧ (nested = false → ts = s) := by
  match s with
  | [] =>
    rw [readBody]
    exact Reading.grounded_value ⟨.nil, fun _ => rfl⟩ []
  | t :: rest =>
    rw [readBody]
    split
    · next hc =>
      apply Reading.grounded_value
      refine ⟨.nil, fun hn => ?_⟩
      simp [hn] at hc
    · dsimp only
      generalize hitem : recover (t :: rest) (readItem t stop rest) = item
      obtain ⟨o, ho⟩ : ∃ o, item.outcome = .ok o := hitem ▸ recover_outcome _ _
      have hi : item.Grounded (t :: rest) Item :=
        hitem ▸ recover_grounded (readItem_grounded t stop rest)
      have hm := readBody_grounded nested stop (rest.drop (item.used - 1))
      generalize readBody nested stop (rest.drop (item.used - 1)) = more at hm
      intro ss hss hn
      obtain ⟨hni, hnm⟩ := List.append_eq_nil_iff.1 hn
      obtain ⟨ts, rest', hs, hu, ht⟩ := hi o ho hni
      obtain ⟨us, rest'', hs', hu', hus, hall⟩ := hm _ rfl hnm
      obtain ⟨u, ts, rfl⟩ := List.exists_cons_of_ne_nil ht.ne_nil
      obtain ⟨rfl, hrest⟩ : t = u ∧ rest = ts ++ rest' := List.cons.inj hs
      have hdrop : rest.drop (item.used - 1) = rest' := by
        rw [hu, hrest, List.length_cons, Nat.add_sub_cancel, List.drop_left]
      rw [hdrop] at hs' hall
      refine ⟨t :: ts ++ us, rest'', ?_, ?_, ?_, ?_⟩
      · rw [hs, List.append_assoc, ← hs']
      · rw [List.length_append, ← hu, ← hu']
        rfl
      · have hd := ht.derivesAll hus
        cases hss
        rw [ho]
        cases o with
        | none => exact hd
        | some st => exact hd
      · intro hn
        rw [hall hn, hs]
termination_by 3 * s.length + 1
decreasing_by
  · simp only [List.length_cons]
    omega
  · simp only [List.length_cons, List.length_drop]
    omega

theorem readItem_grounded (t : Token) (stop : Location) (s : List Token) :
    (readItem t stop s).Grounded (t :: s) Item := by
  rw [readItem.eq_def]
  split
  · next h => exact item_grounded (readRoutine_grounded h stop s)
  · next h => exact item_grounded (readDeclaration_grounded h stop s)
  · next path relative h =>
    rw [show t.kind.name = (Keyword.motion path relative).text by rw [h]; rfl]
    exact item_grounded (readMotion_grounded h stop s)
  · next h => exact item_grounded (readConditional_grounded h stop s)
  · next h => exact item_grounded (readWait_grounded h stop s)
  · next h => exact Reading.grounded_one (.blank (by simp [h])) s
  · next h => exact Reading.grounded_one (.blank (by simp [h])) s
  · next h =>
    split
    · next text l rest =>
      have hd : (⟨.dot, text, l⟩ : Token).kind = .dot := rfl
      rw [← Reading.after_after _ 1 1]
      apply item_grounded
      apply ((readSetField_grounded h hd stop rest).after_one _).imp
      rintro _ st ⟨ts, rfl, hst⟩
      exact hst
    · exact (readEvaluation_grounded stop (t :: s)).map fun _ _ h => .statement h
  · exact (readEvaluation_grounded stop (t :: s)).map fun _ _ h => .statement h
termination_by 3 * s.length + 3

theorem readRoutine_grounded {d : Token} (hd : d.kind = .keyword .defWord) (stop : Location)
    (s : List Token) :
    (readRoutine d.location stop s).Grounded s fun ts st => Derives (d :: ts) st := by
  rw [readRoutine]
  apply (readRoutineHead_grounded stop s).andThen
  rintro _ name ⟨n, o, c, rfl, hn, ho, hc, rfl⟩
  have hb := (readBody_grounded true stop (s.drop (readRoutineHead stop s).used)).imp
    fun _ _ h => h.1
  apply (closed_grounded hb (.keyword .endWord) _ _).imp
  rintro _ st ⟨ts, e, body, rfl, hb, he, hl, rfl⟩
  exact .routine hd hn ho hc hb he hl
termination_by 3 * s.length + 2
decreasing_by
  simp only [List.length_drop]
  omega

theorem readConditional_grounded {i : Token} (hi : i.kind = .keyword .ifWord) (stop : Location)
    (s : List Token) :
    (readConditional i.location stop s).Grounded s fun ts st => Derives (i :: ts) st := by
  rw [readConditional]
  apply (readCondition_grounded stop s).andThen
  rintro _ condition ⟨cs, th, nl, rfl, hcs, hth, hnl⟩
  dsimp only
  generalize hinner : s.drop (readCondition stop s).used = inner
  have hlen : inner.length ≤ s.length := by
    rw [← hinner, List.length_drop]
    omega
  apply Body.grounded_andThen (readBody_grounded true stop inner)
  rintro ts yes hs ⟨hyes, -⟩
  apply (readElse_grounded stop _).andThen_of_eq
  generalize hother : (inner.drop _).drop (readElse stop _).used = other
  have hlen' : other.length ≤ inner.length := by
    simp only [← hother, List.length_drop]
    omega
  rintro _ more hs' (⟨rfl, el, nl', rfl, hel, hnl'⟩ | ⟨rfl, rfl⟩)
  · rw [hs'] at hs
    have hl := first?_eq_nextLocation stop hs
    have hb := (readBody_grounded true stop other).imp fun _ _ h => h.1
    simp only [if_true]
    apply (closed_grounded hb (.keyword .endIf) _ _).imp
    rintro _ st ⟨us, e, no, rfl, hno, he, hl', rfl⟩
    have h := Derives.ifElse hi hcs hth hnl hyes hel hnl' hno he hl hl'
    simpa using h
  · simp only [Bool.false_eq_true, if_false]
    apply (Reader.grounded_expect (.keyword .endIf) .noEndIf stop _).andThen_of_eq
    rintro _ e hs'' ⟨rfl, he⟩
    apply Reading.grounded_value
    rw [hs', hs''] at hs
    have h := Derives.ifThen hi hcs hth hnl hyes he (first?_eq_nextLocation stop hs)
    simpa using h
termination_by 3 * s.length + 2
decreasing_by all_goals omega

end

end Statement

end ArmLang
