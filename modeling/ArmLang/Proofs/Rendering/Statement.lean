import ArmLang.Proofs.Grammar.Statement
import ArmLang.Proofs.Rendering.Expr

namespace ArmLang

namespace Reader

/-- Before `rest`, the reader uses up exactly the tokens `ts`, has the value `a` and notes nothing. -/
def Takes (r : Reader α) (ts rest : List Token) (a : α) : Prop :=
  ∀ stop, r stop (ts ++ rest) = ⟨.ok a, ts.length, []⟩

theorem takes_pure (a : α) (rest : List Token) : (pure a : Reader α).Takes [] rest a :=
  fun _ => rfl

theorem Takes.bind {r : Reader α} {f : α → Reader β} {ts us rest : List Token}
    (hr : r.Takes ts (us ++ rest) a) (hf : (f a).Takes us rest b) :
    (r >>= f).Takes (ts ++ us) rest b := by
  intro stop
  rw [List.append_assoc, bind_apply, hr stop, Reading.andThen_ok, List.drop_left, hf stop,
    Reading.after_ok, List.length_append]

theorem Takes.bind_one {r : Reader α} {f : α → Reader β} {t : Token} {us rest : List Token}
    (hr : r.Takes [t] (us ++ rest) a) (hf : (f a).Takes us rest b) :
    (r >>= f).Takes (t :: us) rest b :=
  hr.bind hf

theorem Takes.bind_nil {r : Reader α} {f : α → Reader β} {us rest : List Token}
    (hr : r.Takes [] (us ++ rest) a) (hf : (f a).Takes us rest b) :
    (r >>= f).Takes us rest b :=
  hr.bind hf

theorem Takes.bind_last {r : Reader α} {f : α → Reader β} {ts rest : List Token}
    (hr : r.Takes ts rest a) (hf : (f a).Takes [] rest b) : (r >>= f).Takes ts rest b := by
  have h : (r >>= f).Takes (ts ++ []) rest b := Takes.bind hr hf
  rw [List.append_nil] at h
  exact h

theorem expect_of_kind {t : Token} {k : Kind} (h : t.kind = k) (e : GrammarError)
    (stop : Location) (rest : List Token) : expect k e stop (t :: rest) = ⟨.ok t, 1, []⟩ := by
  rw [expect, if_pos h]

theorem takes_expect {t : Token} {k : Kind} (h : t.kind = k) (e : GrammarError)
    (rest : List Token) : (expect k e).Takes [t] rest t :=
  fun stop => expect_of_kind h e stop rest

theorem takes_accept {t : Token} {k : Kind} (h : t.kind = k) (rest : List Token) :
    (accept k).Takes [t] rest true := by
  intro stop
  rw [List.singleton_append, accept, if_pos h]
  rfl

theorem takes_accept_absent {t : Token} {k : Kind} (h : t.kind ≠ k) (rest : List Token) :
    (accept k).Takes [] (t :: rest) false := by
  intro stop
  rw [List.nil_append, accept, if_neg h]
  rfl

theorem takes_acceptOrNote {t : Token} {k : Kind} (h : t.kind = k) (e : GrammarError)
    (rest : List Token) : (acceptOrNote k e).Takes [t] rest () :=
  fun stop => acceptOrNote_of_kind h e stop rest

end Reader

theorem Expr.closed_cons {t : Token} (h : t.kind.infixSymbol? = none) (rest : List Token) :
    Closed (t :: rest) := by
  intro u hu
  cases hu
  exact h

/-- The pieces of an expression are read back, whatever its tokens stand before that does not
continue it. -/
theorem Expr.takes_pieces {e : Expr} (he : e.Writable) {ts : List Token}
    (h : Spelled e.pieces ts) :
    ∃ e', e'.bare = e.bare ∧ ∀ rest, Closed rest → reader.Takes ts rest e' := by
  obtain ⟨e', hb, hd⟩ := derives_pieces he h
  have hd' : Derives .assignment ts e' := hd.loosen (Nat.zero_le _)
  exact ⟨e', hb, fun rest hr stop => hd'.reads stop rest hr⟩

namespace Statement

theorem readFields_takes {type : Compound} {f : Token} {us vs rest : List Token} {e : Expr}
    {more : List (String × Expr)} (hk : f.kind = .identifier)
    (hf : f.text ∈ type.dataType.fieldNames) (he : Expr.reader.Takes us (vs ++ rest) e)
    (hm : Reader.Takes (readMoreFields type) vs rest more) :
    Reader.Takes (readFields type) (f :: (us ++ vs)) rest ((f.text, e) :: more) := by
  intro stop
  rw [List.cons_append, readFields, if_neg (not_not.2 hk),
    if_neg (by simpa using hf), List.append_assoc]
  dsimp only
  rw [show Expr.read stop (us ++ (vs ++ rest)) = _ from he stop, Reading.after_ok,
    Reading.andThen_ok, List.drop_left, hm stop, Reading.map, Reading.andThen_ok, Reading.value,
    Reading.after_ok, Reading.after_ok, List.length_cons, List.length_append]
  congr 1
  omega

/-- Before a closing brace, what follows a field does not continue its number. -/
theorem closed_fieldPieces {fields : List (String × Expr)} {ts : List Token}
    (h : Spelled (fieldPieces fields) ts) {c : Token} (hc : c.kind = .rightBrace)
    (rest : List Token) : Expr.Closed (ts ++ c :: rest) := by
  cases fields with
  | nil =>
    cases h
    exact Expr.closed_cons (by rw [hc]; rfl) rest
  | cons f fields =>
    obtain ⟨t, us, rfl, ht, -⟩ := Spelled.cons h
    exact Expr.closed_cons (by rw [show t.kind = .comma from ht]; rfl) _

theorem readMoreFields_takes {type : Compound} {fields : List (String × Expr)}
    (hf : ∀ f ∈ fields, f.1 ∈ type.dataType.fieldNames ∧ f.2.Writable) {ts : List Token}
    (h : Spelled (fieldPieces fields) ts) :
    ∃ fields', bareFields fields' = bareFields fields ∧
      ∀ c rest, c.kind = .rightBrace →
        Reader.Takes (readMoreFields type) ts (c :: rest) fields' := by
  induction fields generalizing ts with
  | nil =>
    cases h
    refine ⟨[], rfl, fun c rest hc stop => ?_⟩
    rw [List.nil_append, readMoreFields, if_neg (by rw [hc]; decide)]
    rfl
  | cons f fields ih =>
    obtain ⟨name, e⟩ := f
    obtain ⟨hname, he⟩ := hf _ List.mem_cons_self
    obtain ⟨t, _, rfl, ht, hrest⟩ := h.cons
    obtain ⟨n, _, rfl, ⟨hn, rfl⟩, hfield⟩ := hrest.cons
    obtain ⟨us, vs, rfl, hus, hvs⟩ := hfield.append
    obtain ⟨e', he', htakes⟩ := Expr.takes_pieces he hus
    obtain ⟨more, hbare, hmore⟩ := ih (fun f hm => hf f (List.mem_cons_of_mem _ hm)) hvs
    refine ⟨(n.text, e') :: more, ?_, fun c rest hc stop => ?_⟩
    · rw [bareFields, bareFields, List.map_cons, List.map_cons, he']
      exact congrArg _ hbare
    · have hr := readFields_takes hn hname (htakes _ (closed_fieldPieces hvs hc rest))
        (hmore c rest hc) stop
      rw [List.cons_append, readMoreFields, if_pos (show t.kind = .comma from ht), hr,
        Reading.after_ok, Nat.add_comm]
      rfl

theorem readCompound_takes {type : Compound} {fields : List (String × Expr)}
    (hf : ∀ f ∈ fields, f.1 ∈ type.dataType.fieldNames ∧ f.2.Writable) {ts : List Token}
    (h : Spelled (compoundPieces fields) ts) :
    ∃ fields', bareFields fields' = bareFields fields ∧
      ∀ nl rest, nl.kind = .lineEnd → (readCompound type).Takes ts (nl :: rest) fields' := by
  cases fields with
  | nil =>
    cases h
    refine ⟨[], rfl, fun nl rest hnl => ?_⟩
    have habsent : nl.kind ≠ .assign := by
      rw [hnl]
      decide
    unfold readCompound
    apply Reader.Takes.bind_nil (Reader.takes_accept_absent habsent rest)
    exact Reader.takes_pure [] _
  | cons f fields =>
    obtain ⟨name, e⟩ := f
    obtain ⟨hname, he⟩ := hf _ List.mem_cons_self
    obtain ⟨a, _, rfl, ha, h1⟩ := h.cons
    obtain ⟨o, _, rfl, ho, h2⟩ := h1.cons
    obtain ⟨n, _, rfl, ⟨hn, rfl⟩, h3⟩ := h2.cons
    obtain ⟨_, _, rfl, h4, hlast⟩ := h3.append
    obtain ⟨us, vs, rfl, hus, hvs⟩ := h4.append
    obtain ⟨c, rfl, hc⟩ := hlast.singleton
    obtain ⟨e', he', htakes⟩ := Expr.takes_pieces he hus
    obtain ⟨more, hbare, hmore⟩ :=
      readMoreFields_takes (fun f hm => hf f (List.mem_cons_of_mem _ hm)) hvs
    refine ⟨(n.text, e') :: more, ?_, fun nl rest hnl => ?_⟩
    · rw [bareFields, bareFields, List.map_cons, List.map_cons, he']
      exact congrArg _ hbare
    · have hfields := readFields_takes hn hname
        (htakes _ (closed_fieldPieces hvs hc (nl :: rest))) (hmore c (nl :: rest) hc)
      unfold readCompound
      apply Reader.Takes.bind_one (Reader.takes_accept ha _)
      apply Reader.Takes.bind_one (Reader.takes_expect ho _ _)
      have hbraced : Reader.Takes
          (fun stop s =>
            if s.head?.any (·.kind = .rightBrace) then .value [] else readFields type stop s)
          (n :: (us ++ vs)) ([c] ++ nl :: rest) ((n.text, e') :: more) := by
        intro stop
        rw [List.cons_append]
        dsimp only
        rw [if_neg (by simp [hn])]
        exact hfields stop
      apply hbraced.bind
      apply Reader.Takes.bind_one (Reader.takes_expect hc _ _)
      exact Reader.takes_pure _ _

theorem readDeclaration_takes_compound {d k n nl : Token} {type : Compound} {ts rest : List Token}
    {fields : List (String × Expr)} (hk : k.kind = .keyword (.type type.dataType))
    (hn : n.kind = .identifier) (hf : (readCompound type).Takes ts (nl :: rest) fields)
    (hnl : nl.kind = .lineEnd) :
    (readDeclaration d.location).Takes (k :: n :: (ts ++ [nl])) rest
      (declareFields type n.text fields d.location) := by
  obtain ⟨kind, text, place⟩ := k
  cases hk
  have h : (readCompoundDeclaration type d.location).Takes (n :: (ts ++ [nl])) rest
      (declareFields type n.text fields d.location) := by
    unfold readCompoundDeclaration
    apply Reader.Takes.bind_one (Reader.takes_expect hn _ _)
    apply Reader.Takes.bind hf
    apply Reader.Takes.bind_one (Reader.takes_acceptOrNote hnl _ _)
    exact Reader.takes_pure _ _
  intro stop
  rw [List.cons_append, readDeclaration]
  rw [show type.dataType.compound? = some type by cases type <;> rfl]
  dsimp only
  rw [h stop, Reading.after_ok, Nat.add_comm]
  rfl

theorem readScalarDeclaration_takes_init {type : DataType} {n a nl : Token} {ts : List Token}
    {e : Expr} (hn : n.kind = .identifier) (ha : a.kind = .assign) (hnl : nl.kind = .lineEnd)
    (he : ∀ rest, Expr.Closed rest → Expr.reader.Takes ts rest e) (start : Location)
    (rest : List Token) :
    (readScalarDeclaration type start).Takes (n :: a :: (ts ++ [nl])) rest
      (declare type n.text (some e) start) := by
  have hclosed : Expr.Closed (nl :: rest) := Expr.closed_cons (by rw [hnl]; rfl) rest
  have hsome : Reader.Takes (some <$> Expr.reader) ts (nl :: rest) (some e) :=
    (he _ hclosed).bind_last (Reader.takes_pure _ _)
  unfold readScalarDeclaration
  apply Reader.Takes.bind_one (Reader.takes_expect hn _ _)
  apply Reader.Takes.bind_one (Reader.takes_accept ha _)
  apply Reader.Takes.bind hsome
  apply Reader.Takes.bind_one (Reader.takes_acceptOrNote hnl _ _)
  exact Reader.takes_pure _ _

theorem readScalarDeclaration_takes {type : DataType} {init : Option Expr}
    (hi : ∀ e ∈ init, e.Writable) {ts : List Token} (h : Spelled (scalarPieces init) ts)
    {n nl : Token} (hn : n.kind = .identifier) (hnl : nl.kind = .lineEnd) (start : Location) :
    ∃ init', init'.map Expr.bare = init.map Expr.bare ∧
      ∀ rest, (readScalarDeclaration type start).Takes (n :: (ts ++ [nl])) rest
        (declare type n.text init' start) := by
  cases init with
  | none =>
    cases h
    refine ⟨none, rfl, fun rest => ?_⟩
    have habsent : nl.kind ≠ .assign := by
      rw [hnl]
      decide
    unfold readScalarDeclaration
    apply Reader.Takes.bind_one (Reader.takes_expect hn _ _)
    apply Reader.Takes.bind_nil (Reader.takes_accept_absent habsent rest)
    apply Reader.Takes.bind_nil (Reader.takes_pure none _)
    apply Reader.Takes.bind_one (Reader.takes_acceptOrNote hnl _ _)
    exact Reader.takes_pure _ _
  | some e =>
    obtain ⟨a, us, rfl, ha, hus⟩ := h.cons
    obtain ⟨e', he', htakes⟩ := Expr.takes_pieces (hi e rfl) hus
    exact ⟨some e', congrArg some he', readScalarDeclaration_takes_init hn ha hnl htakes start⟩

theorem readDeclaration_takes_scalar {d k : Token} {type : DataType} {us rest : List Token}
    {s : Statement} (hk : k.kind = .keyword (.type type)) (ht : type.isStructured = false)
    (h : (readScalarDeclaration type d.location).Takes us rest s) :
    (readDeclaration d.location).Takes (k :: us) rest s := by
  obtain ⟨kind, text, place⟩ := k
  cases hk
  have hnone : type.compound? = none := by
    cases type <;> first | rfl | cases ht
  intro stop
  rw [List.cons_append, readDeclaration, hnone]
  dsimp only
  rw [h stop, Reading.after_ok, Nat.add_comm]
  rfl

theorem readMotion_takes {m t : Token} (ht : t.kind = .identifier) (command : String)
    (rest : List Token) :
    (readMotion command m.location).Takes [t] rest
      (motion command t.text [("position", .var t.text t.location)] m.location) := by
  unfold readMotion
  apply Reader.Takes.bind_one (Reader.takes_expect ht _ _)
  exact Reader.takes_pure _ _

theorem readSetField_takes {n f a : Token} {ts rest : List Token} {e : Expr}
    (hf : f.kind = .identifier) (hm : f.text ∈ Pose.fieldNames ++ Joints.fieldNames)
    (ha : a.kind = .assign) (he : Expr.reader.Takes ts rest e) :
    (readSetField n).Takes (f :: a :: ts) rest (setField n.text f.text e n.location) := by
  unfold readSetField
  apply Reader.Takes.bind_one (Reader.takes_expect hf _ _)
  rw [if_neg (by rw [Bool.not_eq_true, Bool.not_eq_false', List.contains_iff_mem]; exact hm)]
  dsimp only
  apply Reader.Takes.bind_one (Reader.takes_expect ha _ _)
  apply he.bind_last
  exact Reader.takes_pure _ _

theorem readWait_takes {w o n c : Token} {x : Float} (ho : o.kind = .leftParen)
    (hn : n.kind ∈ [.integer, .real]) (hx : Number.real? n.text = some x)
    (hc : c.kind = .rightParen) (rest : List Token) :
    (readWait w.location).Takes [o, n, c] rest (wait x w.location) := by
  have hseconds : readSeconds.Takes [n] ([c] ++ rest) x := by
    intro stop
    rw [List.singleton_append, readSeconds, if_pos (by simpa using hn), hx]
    rfl
  unfold readWait
  apply Reader.Takes.bind_one (Reader.takes_expect ho _ _)
  apply Reader.Takes.bind_one hseconds
  apply Reader.Takes.bind_one (Reader.takes_expect hc _ _)
  exact Reader.takes_pure _ _

theorem readEvaluation_takes {ts rest : List Token} {nl : Token} {e : Expr}
    (he : Expr.reader.Takes ts (nl :: rest) e) (hnl : nl.kind = .lineEnd) :
    readEvaluation.Takes (ts ++ [nl]) rest (evaluate e) := by
  unfold readEvaluation
  apply Reader.Takes.bind he
  apply Reader.Takes.bind_one (Reader.takes_accept hnl _)
  exact Reader.takes_pure _ _

theorem readRoutineHead_takes {n o c : Token} (hn : n.kind = .identifier)
    (ho : o.kind = .leftParen) (hc : c.kind = .rightParen) (rest : List Token) :
    readRoutineHead.Takes [n, o, c] rest n.text := by
  unfold readRoutineHead
  apply Reader.Takes.bind_one (Reader.takes_expect hn _ _)
  apply Reader.Takes.bind_one (Reader.takes_expect ho _ _)
  apply Reader.Takes.bind_one (Reader.takes_expect hc _ _)
  exact Reader.takes_pure _ _

theorem readCondition_takes {ts rest : List Token} {th nl : Token} {e : Expr}
    (he : Expr.reader.Takes ts (th :: nl :: rest) e) (hth : th.kind = .keyword .thenWord)
    (hnl : nl.kind = .lineEnd) : readCondition.Takes (ts ++ [th, nl]) rest e := by
  unfold readCondition
  apply Reader.Takes.bind he
  apply Reader.Takes.bind_one (Reader.takes_expect hth _ _)
  apply Reader.Takes.bind_one (Reader.takes_expect hnl _ _)
  exact Reader.takes_pure _ _

theorem readElse_takes {el nl : Token} (hel : el.kind = .keyword .elseWord)
    (hnl : nl.kind = .lineEnd) (rest : List Token) : readElse.Takes [el, nl] rest true := by
  unfold readElse
  apply Reader.Takes.bind_one (Reader.takes_accept hel _)
  apply Reader.Takes.bind_one (Reader.takes_expect hnl _ _)
  exact Reader.takes_pure _ _

theorem readElse_takes_absent {e : Token} (he : e.kind = .keyword .endIf) (rest : List Token) :
    readElse.Takes [] (e :: rest) false := by
  have habsent : e.kind ≠ .keyword .elseWord := by
    rw [he]
    decide
  unfold readElse
  apply Reader.Takes.bind_nil (Reader.takes_accept_absent habsent rest)
  exact Reader.takes_pure _ _

end Statement

end ArmLang
