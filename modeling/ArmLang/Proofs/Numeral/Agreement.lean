import ArmLang.Proofs.Layout.Read
import ArmLang.Proofs.Numeral.Readers
import ArmLang.Proofs.Numeral.Value
import ArmLang.Proofs.Token.Position

namespace ArmLang

open Shape (IsDigits)

theorem head?_append_of_some {s : String} {c : Char} (h : s.toList.head? = some c) (u : String) :
    (s ++ u).toList.head? = some c := by
  rw [String.toList_append, List.head?_append, h, Option.some_or]

/-- Problems with numerals are told from all others by their messages. -/
theorem GrammarError.eq_of_message {e c : GrammarError} (hc : c.isNumeral)
    (h : e.message = c.message) : e = c := by
  have hhead : e.message.toList.head? = some 'I' := by
    rw [h]
    cases c with
    | badWaitTime | integerOutOfRange | badReal => decide
    | _ => cases hc
  have hne {d : Char} (hd : e.message.toList.head? = some d) (hI : d ≠ 'I') : e = c := by
    rw [hhead] at hd
    exact absurd (Option.some.inj hd).symm hI
  have hunknown : ("Unknown field '" : String).toList.head? = some 'U' := by decide
  have hexpected : ("Expected expression, found " : String).toList.head? = some 'E' := by decide
  cases e with
  | unknownFieldOf field type =>
    exact hne (head?_append_of_some (head?_append_of_some (head?_append_of_some hunknown _) _) _)
      (by decide)
  | unknownField field =>
    exact hne (head?_append_of_some (head?_append_of_some hunknown _) _) (by decide)
  | noExpression found => exact hne (head?_append_of_some hexpected _) (by decide)
  | noCompoundName type
  | noCompoundOpening type
  | noCompoundClosing type
  | noLineEndAfterCompound type => cases type <;> exact absurd hhead (by decide)
  | badTarget | badWaitTime | integerOutOfRange | badReal =>
    cases c with
    | badWaitTime | integerOutOfRange | badReal => first | rfl | exact absurd h (by decide)
    | _ => cases hc
  | _ => exact absurd hhead (by decide)

namespace Token

variable {source : String} {t : Token}

theorem scan_matches {shape : Shape} {k : Kind} (hp : (shape, k) ∈ Shape.table)
    (honly : ∀ q ∈ Shape.table, q.2 = k → q.1 = shape)
    (ht : t ∈ scan source) (hk : t.kind = k) : shape.Matches t.text.toList := by
  have htable : ∀ q ∈ Shape.table, q.2 ≠ .lineEnd ∧ q.2 ≠ .fileEnd ∧ q.2 ≠ .invalid ∧
      ∀ w, q.2 ≠ .keyword w := by
    simp [Shape.table]
  obtain ⟨hline, hfile, hinvalid, hkeyword⟩ := htable _ hp
  rcases mem_scanLines ht with ⟨hmark, -⟩ | ⟨hmark, -⟩ | ⟨i, l, ts, stop, -, hscans, ht, -⟩
  · exact absurd (hk.symm.trans hmark) hline
  · exact absurd (hk.symm.trans hmark) hfile
  · obtain ⟨front, rest, -, -, hlexeme, -⟩ := hscans.place t ht
    rw [hk] at hlexeme
    cases hfound : lexeme? (t.text.toList ++ rest) with
    | none =>
      rw [lexeme_eq_of_none hfound] at hlexeme
      exact absurd (Prod.mk.inj hlexeme).1.symm hinvalid
    | some p =>
      obtain rfl := (lexeme_eq_of_lexeme? hfound).symm.trans hlexeme
      obtain ⟨shape', k', hdecides, hkind⟩ := lexeme?_eq_some_iff.1 hfound
      rcases reclassify_cases k' ((t.text.toList ++ rest).take t.text.toList.length) with h | h
      · rw [h] at hkind
        have hsame : shape' = shape := honly _ hdecides.mem_table hkind.symm
        exact hsame ▸ hdecides.matches_left
      · obtain ⟨w, hw⟩ := h.2
        exact absurd (hkind.trans hw) (hkeyword w)

theorem scan_integer (ht : t ∈ scan source) (hk : t.kind = .integer) : IsDigits t.text.toList :=
  have hinteger : Shape.integer.Matches t.text.toList :=
    scan_matches (by decide) (by decide) ht hk
  hinteger

theorem scan_real (ht : t ∈ scan source) (hk : t.kind = .real) : Shape.real.Matches t.text.toList :=
  scan_matches (by decide) (by decide) ht hk

theorem isSome_real?_of_scan (ht : t ∈ scan source) (hk : t.kind = .integer ∨ t.kind = .real) :
    (Number.real? t.text).isSome := by
  obtain hk | hk := hk
  · exact Number.isSome_real?_of_integer (scan_integer ht hk)
  · exact Number.isSome_real?_of_real (scan_real ht hk)

end Token

namespace Expr

/-- The two ways in which a token can be a numeral of no value. -/
theorem ofToken_eq_error {t : Token} {e : GrammarError} (h : ofToken t = .error e)
    (he : e.isNumeral) :
    t.kind = .integer ∧ Number.integer? t.text = none ∧ e = .integerOutOfRange ∨
      t.kind = .real ∧ Number.real? t.text = none ∧ e = .badReal := by
  unfold ofToken at h
  cases hk : t.kind with
  | keyword w =>
    rw [hk] at h
    cases w <;> cases h <;> cases he
  | integer =>
    rw [hk] at h
    cases hn : Number.integer? t.text with
    | some n => simp [hn] at h
    | none =>
      rw [hn] at h
      cases h
      exact .inl ⟨rfl, rfl, rfl⟩
  | real =>
    rw [hk] at h
    cases hx : Number.real? t.text with
    | some x => simp [hx] at h
    | none =>
      rw [hx] at h
      cases h
      exact .inr ⟨rfl, rfl, rfl⟩
  | _ =>
    rw [hk] at h
    cases h
    try cases he

/-- On a scanned text the only one is that 64 bits do not hold it. -/
theorem ofToken_eq_error_of_scan {source : String} {t : Token} {e : GrammarError}
    (ht : t ∈ Token.scan source) (h : ofToken t = .error e) (he : e.isNumeral) :
    t.kind = .integer ∧ e = .integerOutOfRange ∧
      Nat.pow 2 63 ≤ Number.digitsValue t.text.toList := by
  rcases ofToken_eq_error h he with ⟨hk, hn, rfl⟩ | ⟨hk, hx, -⟩
  · have hdigits := Token.scan_integer ht hk
    rw [Number.integer?_of_isDigits hdigits] at hn
    refine ⟨hk, rfl, Nat.le_of_not_lt fun hlt => ?_⟩
    rw [if_pos hlt] at hn
    cases hn
  · have hsome := Number.isSome_real?_of_real (Token.scan_real ht hk)
    rw [hx] at hsome
    cases hsome

theorem readPrimary_integer {t : Token} (hk : t.kind = .integer) (hdigits : IsDigits t.text.toList)
    (stop : Location) (rest : List Token) :
    let n := Number.digitsValue t.text.toList
    readPrimary stop (t :: rest) =
      if n < Nat.pow 2 63 then ⟨.ok (.literal (.int (Int64.ofNat n)) t.location), 1, []⟩
      else .failure .integerOutOfRange t.location := by
  have hparen : t.kind ≠ .leftParen := by
    rw [hk]
    decide
  refine (primaryReader_token hparen stop rest).trans ?_
  rw [ofToken, hk]
  dsimp only
  rw [Number.integer?_of_isDigits hdigits]
  by_cases hlt : Number.digitsValue t.text.toList < Nat.pow 2 63
  · rw [if_pos hlt, if_pos hlt]
  · rw [if_neg hlt, if_neg hlt]

open Reader

theorem runs_tier {q : Reader α} {stop : Location} {s u : List Token}
    (h : Runs q stop unaryReader s u) (t : Tier) : Runs q stop (tierReader t) s u := by
  rw [tierReader_eq]
  apply Runs.first
  rw [operandReader_eq]
  cases t with
  | product => exact h
  | _ => exact runs_tier h _
termination_by t.height
decreasing_by all_goals simp [Tier.height]

/-- An expression begins with an operand, unless an operator is in front of that. -/
theorem runs_primary {t : Token} (ht : prefixOp? t.kind = none) (stop : Location)
    (rest : List Token) : Runs primaryReader stop reader (t :: rest) (t :: rest) := by
  have hunary : Runs primaryReader stop unaryReader (t :: rest) (t :: rest) := by
    rw [unaryReader_eq]
    apply Runs.next (peek_cons ..)
    dsimp only
    rw [ht]
    exact .self
  rw [reader_eq]
  exact .first (runs_tier hunary _)

end Expr

theorem Statement.runs_primary {t : Token} (ht : t.kind = .integer) (stop : Location)
    (rest : List Token) :
    Reader.Runs Expr.primaryReader stop (bodyReader false) (t :: rest) (t :: rest) := by
  rw [bodyReader_eq]
  apply Reader.Runs.next (Reader.peek_cons ..)
  refine .first (.round ?_)
  rw [itemReader_eq]
  apply Reader.Runs.next (Reader.peek_cons ..)
  dsimp only
  rw [ht]
  have hexpression := Expr.runs_primary (t := t) (by rw [ht]; rfl) stop rest
  exact .first (.first hexpression)

namespace Program

open Reader

/-- Reading the program off the tokens, an operand of an expression is read at the token `t`, which
the others follow. -/
def ReadsOperand (tokens : List Token) (t : Token) (rest : List Token) : Prop :=
  Runs Expr.primaryReader (endLocation (significant tokens)) (Statement.bodyReader false)
    (window tokens) (t :: rest)

variable {tokens : List Token} {t : Token} {i : Issue GrammarError}

theorem mem_of_runs {q : Reader α} {stop : Location} {rest : List Token}
    (h : Runs q stop (Statement.bodyReader false) (window tokens) (t :: rest)) : t ∈ tokens := by
  have hwindow : t ∈ window tokens := h.suffix.subset List.mem_cons_self
  exact (List.mem_filter.1 (List.takeWhile_subset _ hwindow)).1

theorem origin_of_mem (hi : i ∈ (read tokens).2) (hnumeral : i.cause.isNumeral) :
    Origin (endLocation (significant tokens)) (Statement.bodyReader false) (window tokens) i :=
  Statement.accounts_body false (window tokens) i (.inr hi) hnumeral

/-- All problems with numerals are with integers that are read as operands and out of range. -/
theorem integer_of_mem {source : String} (hi : i ∈ (read (Token.scan source)).2)
    (hnumeral : i.cause.isNumeral) : i.cause = .integerOutOfRange ∧
    ∃ t rest, ReadsOperand (Token.scan source) t rest ∧ t.kind = .integer ∧
      i.location = t.location ∧ Nat.pow 2 63 ≤ Number.digitsValue t.text.toList := by
  cases origin_of_mem hi hnumeral with
  | @operand t rest e hruns he =>
    obtain ⟨hk, hcause, hlarge⟩ := Expr.ofToken_eq_error_of_scan (mem_of_runs hruns) he hnumeral
    exact ⟨hcause, t, rest, hruns, hk, rfl, hlarge⟩
  | seconds hruns hkind hnone =>
    have hsome := Token.isSome_real?_of_scan (mem_of_runs hruns) hkind
    rw [hnone] at hsome
    cases hsome

theorem integer_of_message {source : String} {d : Diagnostic} {c : GrammarError}
    (hd : d ∈ Diagnostic.ofGrammar (read (Token.scan source)).2) (hc : c.isNumeral)
    (hmessage : d.message = c.message) : c = .integerOutOfRange ∧
    ∃ t rest, ReadsOperand (Token.scan source) t rest ∧ t.kind = .integer ∧
      d.location = t.location ∧ Nat.pow 2 63 ≤ Number.digitsValue t.text.toList := by
  obtain ⟨i, hi, rfl⟩ := List.mem_map.1 hd
  obtain rfl := GrammarError.eq_of_message hc hmessage
  exact integer_of_mem hi hc

theorem mem_of_reads {rest : List Token} (h : ReadsOperand tokens t rest)
    (hi : (Expr.readPrimary (endLocation (significant tokens)) (t :: rest)).Reports i) :
    i ∈ (read tokens).2 := by
  obtain h | h := h.reports hi
  · cases h
  · exact h

theorem mem_ofGrammar {issues : List (Issue GrammarError)} {c : GrammarError} {l : Location}
    (h : ⟨c, l⟩ ∈ issues) : ⟨.grammatical, c.message, l⟩ ∈ Diagnostic.ofGrammar issues :=
  List.mem_map_of_mem h

/-- The lexer and the parser agree on what is a number. What is scanned as one is always read as
one: no real number and no waiting time is ever refused. An integer that is read as an operand is
reported exactly if the value of its digits exceeds the greatest one of 64 bits, however many there
are, and no such report comes from anything else; otherwise the literal of that value is built. -/
theorem numerals_agree (source : String) :
    let tokens := Token.scan source
    let reported := Diagnostic.ofGrammar (read tokens).2
    (∀ d ∈ reported, d.message ≠ "Invalid real literal" ∧ d.message ≠ "Invalid wait time") ∧
    (∀ t rest, ReadsOperand tokens t rest → t.kind = .integer →
      let n := Number.digitsValue t.text.toList
      IsDigits t.text.toList ∧
      (⟨.grammatical, "Integer literal out of range", t.location⟩ ∈ reported ↔
        Nat.pow 2 63 - 1 < n) ∧
      (n ≤ Nat.pow 2 63 - 1 → ∃ v : Int64, v.toInt = n ∧ ∀ stop,
        Expr.readPrimary stop (t :: rest) = ⟨.ok (.literal (.int v) t.location), 1, []⟩)) ∧
    ∀ d ∈ reported, d.message = "Integer literal out of range" →
      ∃ t rest, ReadsOperand tokens t rest ∧ t.kind = .integer ∧ d.location = t.location := by
  intro tokens reported
  refine ⟨fun d hd => ⟨fun hmessage => ?_, fun hmessage => ?_⟩, ?_, ?_⟩
  · cases (integer_of_message (c := .badReal) hd rfl hmessage).1
  · cases (integer_of_message (c := .badWaitTime) hd rfl hmessage).1
  · intro t rest ht hk n
    have hdigits := Token.scan_integer (mem_of_runs ht) hk
    have hread := Expr.readPrimary_integer hk hdigits
    refine ⟨hdigits, ⟨?_, ?_⟩, ?_⟩
    · intro hd
      obtain ⟨-, u, _, hu, -, hlocation, hlarge⟩ :=
        integer_of_message (c := .integerOutOfRange) hd rfl rfl
      -- The report is of this token, as no other one stands at its place.
      obtain rfl : t = u := Token.scan_eq_of_location (mem_of_runs ht) (mem_of_runs hu) hlocation
      exact Nat.lt_of_lt_of_le (by decide) hlarge
    · intro hlarge
      have hnot : ¬ n < Nat.pow 2 63 := Nat.not_lt.2 (Nat.le_of_pred_lt hlarge)
      refine mem_ofGrammar (c := .integerOutOfRange) (mem_of_reads ht ?_)
      rw [hread, if_neg hnot]
      exact .inl rfl
    · intro hsmall
      have hlt : n < Nat.pow 2 63 := Nat.lt_of_le_of_lt hsmall (by decide)
      refine ⟨Int64.ofNat n, Int64.toInt_ofNat_of_lt hlt, fun stop => ?_⟩
      rw [hread, if_pos hlt]
  · intro d hd hmessage
    obtain ⟨-, t, rest, ht, hk, hlocation, -⟩ :=
      integer_of_message (c := .integerOutOfRange) hd rfl hmessage
    exact ⟨t, rest, ht, hk, hlocation⟩

/-- Leading zeros do not count, and one more than fits is reported. -/
theorem numerals_agree_past_range :
    let source := "00009223372036854775808"
    let t : Token := ⟨.integer, source, ⟨1, 1⟩⟩
    ReadsOperand (Token.scan source) t [⟨.lineEnd, "\n", ⟨1, 24⟩⟩] ∧
      Number.digitsValue source.toList = Nat.pow 2 63 ∧
      ⟨.grammatical, "Integer literal out of range", ⟨1, 1⟩⟩ ∈
        Diagnostic.ofGrammar (read (Token.scan source)).2 := by
  intro source t
  have hscan : Token.scan source = [t, ⟨.lineEnd, "\n", ⟨1, 24⟩⟩, ⟨.fileEnd, "", ⟨2, 1⟩⟩] := by
    decide +kernel
  have hwindow : window (Token.scan source) = [t, ⟨.lineEnd, "\n", ⟨1, 24⟩⟩] := by
    rw [hscan]
    decide
  have hreads : ReadsOperand (Token.scan source) t [⟨.lineEnd, "\n", ⟨1, 24⟩⟩] := by
    unfold ReadsOperand
    rw [hwindow]
    exact Statement.runs_primary rfl _ _
  have hvalue : Number.digitsValue source.toList = Nat.pow 2 63 := by decide +kernel
  obtain ⟨-, hinteger, -⟩ := numerals_agree source
  refine ⟨hreads, hvalue, (hinteger t _ hreads rfl).2.1.2 ?_⟩
  change _ < Number.digitsValue source.toList
  rw [hvalue]
  decide

end Program

end ArmLang
