import ArmLang.Proofs.Compilation
import ArmLang.Proofs.Rendering.Quotation

namespace ArmLang

open Text (isDigit)

def integerSource (n : Int) : String := "DECL INT v = " ++ toString n

namespace Shape

theorem begins_digit {shape : Shape} {k : Kind} {c : Char} (hp : (shape, k) ∈ table)
    (hc : isDigit c) (h : shape.begins c) : shape = real ∨ shape = integer := by
  have hliteral : ∀ p ∈ table, ∀ s ∈ p.1.literal?, s.toList.head?.any isDigit = false := by decide
  have hs := hliteral _ hp
  cases shape with
  | exact s | word s | numbered s =>
    have hhead : s.toList.head? = some c := by simpa [begins] using h
    have hany := hs s rfl
    rw [hhead, Option.any_some, hc] at hany
    cases hany
  | real => exact .inl rfl
  | integer => exact .inr rfl
  | quoted =>
    have hquote : c = '"' := by simpa [begins] using h
    rw [hquote] at hc
    cases hc
  | name =>
    rw [begins, Text.isNameStart_of_isDigit hc] at h
    cases h

def Stops (rest : List Char) : Prop := ∀ c ∈ rest.head?, isDigit c = false ∧ c ≠ '.'

theorem Stops.digitCount {rest : List Char} (h : Stops rest) : digitCount rest = 0 := by
  cases rest with
  | nil => rfl
  | cons c rest => exact digitCount_cons (h c rfl).1 rest

theorem length?_integer_append {ds rest : List Char} (h : IsDigits ds) (hrest : Stops rest) :
    integer.length? (ds ++ rest) = some ds.length := by
  have hpos := h.length_pos
  rw [length?, digitCount_append h.2, hrest.digitCount, Nat.add_zero, if_neg (by omega)]

theorem length?_real_append {ds rest : List Char} (h : IsDigits ds) (hrest : Stops rest) :
    real.length? (ds ++ rest) = none := by
  apply realLength?_no_dot
  rw [digitCount_append h.2, hrest.digitCount, Nat.add_zero, List.drop_left]
  exact fun hdot => (hrest '.' hdot).2 rfl

end Shape

namespace Token

open Shape (IsDigits Stops)

theorem lexeme?_integer {ds rest : List Char} (h : IsDigits ds) (hrest : Stops rest) :
    lexeme? (ds ++ rest) = some (.integer, ds.length) := by
  have hkinds : ∀ p ∈ Shape.table, p.1 = .integer → p = (.integer, .integer) := by decide
  have hother : ∀ p ∈ Shape.table, p = (.integer, .integer) ∨ p.1.length? (ds ++ rest) = none := by
    intro p hp
    obtain ⟨c, ds, rfl⟩ := List.exists_cons_of_ne_nil h.1
    cases hbegins : p.1.begins c with
    | false => exact .inr (Shape.length?_eq_none_of_begins hp hbegins _)
    | true =>
      -- Real numbers are tried before integers, and begin as they do.
      rcases Shape.begins_digit hp (h.2 c List.mem_cons_self) hbegins with hreal | hinteger
      · right
        rw [hreal]
        exact Shape.length?_real_append h hrest
      · exact .inl (hkinds p hp hinteger)
  exact lexeme?_eq_some_iff.2 ⟨.integer, .integer,
    decides_of_unique (by decide) hother (Shape.length?_integer_append h hrest), rfl⟩

theorem scanLine_integer (line column : Nat) {ds rest : List Char} (h : IsDigits ds)
    (hrest : Stops rest) :
    scanLine line column (ds ++ rest) =
      ⟨.integer, String.ofList ds, ⟨line, column⟩⟩ :: scanLine line (column + ds.length) rest := by
  have hlexeme := lexeme_eq_of_lexeme? (lexeme?_integer h hrest)
  obtain ⟨c, ds, rfl⟩ := List.exists_cons_of_ne_nil h.1
  have hblank := Text.not_isBlank_of_isSolid (Text.isSolid_of_isDigit (h.2 c List.mem_cons_self))
  exact scanLine_lexeme line column hblank (by decide) hlexeme

theorem scanLine_lexeme_blank (line column : Nat) {kind : Kind} {c : Char} {w cs : List Char}
    (hc : Text.isBlank c = false) (hkind : kind ≠ .semicolon)
    (h : lexeme (c :: w ++ ' ' :: cs) = (kind, (c :: w).length)) :
    scanLine line column (c :: w ++ ' ' :: cs) =
      ⟨kind, String.ofList (c :: w), ⟨line, column⟩⟩ ::
        scanLine line (column + (c :: w).length + 1) cs := by
  rw [scanLine_lexeme line column hc hkind h, scanLine_blank line _ rfl]

def numeral (l : Location) : Int → List Token
  | .ofNat n => [⟨.integer, n.repr, l⟩]
  | .negSucc n => [⟨.minus, "-", l⟩, ⟨.integer, (n + 1).repr, ⟨l.line, l.column + 1⟩⟩]

theorem scanLine_natural (line column n : Nat) :
    scanLine line column n.repr.toList =
      [⟨.integer, n.repr, ⟨line, column⟩⟩,
        ⟨.lineEnd, "\n", ⟨line, column + n.repr.length⟩⟩] := by
  have hstops : Stops [] := nofun
  have h := scanLine_integer line column (Shape.isDigits_toDigits n) hstops
  rw [List.append_nil, scanLine_nil, ← Nat.toList_repr, String.ofList_toList,
    String.length_toList] at h
  exact h

theorem scanLine_numeral (line column : Nat) (n : Int) :
    scanLine line column n.repr.toList =
      numeral ⟨line, column⟩ n ++ [⟨.lineEnd, "\n", ⟨line, column + n.repr.length⟩⟩] := by
  cases n with
  | ofNat n => exact scanLine_natural line column n
  | negSucc n =>
    have hsign : scanLine line column ("-".toList ++ (n + 1).repr.toList) =
        ⟨.minus, "-", ⟨line, column⟩⟩ :: scanLine line (column + 1) (n + 1).repr.toList :=
      scanLine_lexeme line column rfl (by decide) rfl
    have hlength : column + 1 + (n + 1).repr.length = column + ("-" ++ (n + 1).repr).length := by
      rw [String.length_append, ← Nat.add_assoc]
      rfl
    rw [Int.repr, String.toList_append, hsign, scanLine_natural, hlength]
    rfl

theorem newline_not_mem_repr (n : Int) : '\n' ∉ n.repr.toList := by
  have hdigits (m : Nat) : '\n' ∉ m.repr.toList := by
    rw [Nat.toList_repr]
    exact fun h => absurd ((Shape.isDigits_toDigits m).2 '\n' h) (by decide)
  cases n with
  | ofNat n => exact hdigits n
  | negSucc n =>
    rw [Int.repr, String.toList_append, List.mem_append]
    rintro (h | h)
    · exact absurd h (by decide)
    · exact hdigits (n + 1) h

def integerDeclaration (n : Int) : List Token :=
  ⟨.keyword .decl, "DECL", ⟨1, 1⟩⟩ :: ⟨.keyword (.type .int), "INT", ⟨1, 6⟩⟩ ::
    ⟨.identifier, "v", ⟨1, 10⟩⟩ :: ⟨.assign, "=", ⟨1, 12⟩⟩ ::
      (numeral ⟨1, 14⟩ n ++ [⟨.lineEnd, "\n", ⟨1, 14 + n.repr.length⟩⟩])

theorem scanLine_integerDeclaration (n : Int) :
    scanLine 1 1 (integerSource n).toList = integerDeclaration n := by
  have hdecl (cs : List Char) : scanLine 1 1 ("DECL".toList ++ ' ' :: cs) =
      ⟨.keyword .decl, "DECL", ⟨1, 1⟩⟩ :: scanLine 1 6 cs :=
    scanLine_lexeme_blank 1 1 rfl (by decide) rfl
  have hint (cs : List Char) : scanLine 1 6 ("INT".toList ++ ' ' :: cs) =
      ⟨.keyword (.type .int), "INT", ⟨1, 6⟩⟩ :: scanLine 1 10 cs :=
    scanLine_lexeme_blank 1 6 rfl (by decide) rfl
  have hname (cs : List Char) : scanLine 1 10 ("v".toList ++ ' ' :: cs) =
      ⟨.identifier, "v", ⟨1, 10⟩⟩ :: scanLine 1 12 cs :=
    scanLine_lexeme_blank 1 10 rfl (by decide) rfl
  have hassign (cs : List Char) : scanLine 1 12 ("=".toList ++ ' ' :: cs) =
      ⟨.assign, "=", ⟨1, 12⟩⟩ :: scanLine 1 14 cs :=
    scanLine_lexeme_blank 1 12 rfl (by decide) rfl
  rw [integerSource, String.toList_append]
  change scanLine 1 1 ("DECL".toList ++ ' ' :: ("INT".toList ++ ' ' :: ("v".toList ++ ' ' ::
    ("=".toList ++ ' ' :: n.repr.toList)))) = _
  rw [hdecl, hint, hname, hassign, scanLine_numeral]
  rfl

theorem scan_integerDeclaration (n : Int) :
    scan (integerSource n) = integerDeclaration n ++ [⟨.fileEnd, "", ⟨2, 1⟩⟩] := by
  have hne : (integerSource n).toList ≠ [] := by
    rw [integerSource, String.toList_append]
    exact List.cons_ne_nil _ _
  have hnewline : '\n' ∉ (integerSource n).toList := by
    rw [integerSource, String.toList_append, List.mem_append]
    rintro (h | h)
    · exact absurd h (by decide)
    · exact newline_not_mem_repr n h
  rw [scan, Text.lines_eq_splitLines hne, Text.splitLines_of_newline_not_mem hne hnewline,
    scanLines, scanLines, scanLine_integerDeclaration]

theorem kind_integerDeclaration (n : Int) :
    ∀ t ∈ integerDeclaration n, t.kind ≠ .semicolon ∧ t.kind ≠ .fileEnd ∧ t.kind ≠ .invalid := by
  cases n <;> simp [integerDeclaration, numeral]

end Token

namespace Expr

def numeral (l : Location) : Int → Expr
  | .ofNat n => literal (.int (Int64.ofNat n)) l
  | .negSucc n =>
    unary .negate (literal (.int (Int64.ofNat (n + 1))) ⟨l.line, l.column + 1⟩) l

/-- The sign is an operator, so what has to fit into 64 bits is the number without it. -/
theorem derives_numeral {n : Int} (h : n.natAbs < 9223372036854775808) (l : Location) :
    Derives .prefixed (Token.numeral l n) (numeral l n) := by
  cases n with
  | ofNat n => exact .tighter (.leaf (.integer rfl (Number.integer?_repr h)))
  | negSucc n =>
    exact .unary rfl (.tighter (.leaf (.integer rfl (Number.integer?_repr h))))

theorem evaluate_numeral (l : Location) (n : Int) (s : Store) :
    (numeral l n).evaluate s = ⟨.int (Int64.ofInt n), s, [], []⟩ := by
  cases n with
  | ofNat n => rfl
  | negSucc n =>
    have hneg : Int64.ofInt (.negSucc n) = -Int64.ofNat (n + 1) := by
      rw [Int.negSucc_eq, Int64.ofInt_neg]
      rfl
    rw [hneg]
    rfl

end Expr

namespace Program

def integerDeclaration (n : Int) : Program :=
  ⟨⟨1, 1⟩, [.declare .int "v" (some (.numeral ⟨1, 14⟩ n)) ⟨1, 1⟩]⟩

theorem read_integerDeclaration {n : Int} (h : n.natAbs < 9223372036854775808) :
    read (Token.integerDeclaration n ++ [⟨.fileEnd, "", ⟨2, 1⟩⟩]) = (integerDeclaration n, []) := by
  have hderives : Expr.Derives .assignment (Token.numeral ⟨1, 14⟩ n) (.numeral ⟨1, 14⟩ n) :=
    (Expr.derives_numeral h _).loosen (Nat.zero_le _)
  have hlines : Statement.Lines (Token.integerDeclaration n)
      [.declare .int "v" (some (.numeral ⟨1, 14⟩ n)) ⟨1, 1⟩] :=
    Statement.lines_declare rfl rfl rfl
      (Statement.readScalarDeclaration_takes_init rfl rfl rfl
        (fun rest hrest stop => hderives.reads stop rest hrest) ⟨1, 1⟩)
  have hkind : ∀ t ∈ Token.integerDeclaration n, t.kind ≠ .semicolon ∧ t.kind ≠ .fileEnd := by
    intro t ht
    obtain ⟨hsemicolon, hend, -⟩ := Token.kind_integerDeclaration n t ht
    exact ⟨hsemicolon, hend⟩
  exact read_of_lines hlines hkind fun t ht => Option.some.inj ht ▸ rfl

theorem flatten_integerDeclaration (n : Int) :
    let v := Value.int (Int64.ofInt n)
    (integerDeclaration n).flatten =
      ⟨(), ⟨Store.empty.declare "v" .int v, v⟩,
        [⟨"DECL_v", [("type", .char "INT"), ("value", v)], some ⟨1, 1⟩⟩], []⟩ := by
  intro v
  have hinit : Statement.initialValue .int "v" (some (.numeral ⟨1, 14⟩ n)) {} =
      ⟨v, ⟨.empty, v⟩, [], []⟩ := by
    rw [Statement.initialValue, Step.bind_apply, Expr.remember, Expr.evaluate_numeral]
    rfl
  rw [integerDeclaration, flatten, Statement.flattenAll, Step.bind_apply, Statement.flatten,
    Step.bind_apply, hinit]
  rfl

end Program

theorem natAbs_lt_of_ne_minValue {n : Int64} (h : n ≠ Int64.minValue) :
    n.toInt.natAbs < 9223372036854775808 := by
  have hle := n.le_toInt
  have hlt := n.toInt_lt
  have hne : n.toInt ≠ Int64.minValue.toInt := mt Int64.toInt_inj.1 h
  rw [Int64.toInt_minValue] at hne
  omega

/-- Every integer but the least one can be written down: it is declared without complaint, and both
the instruction and the variable have it as it is. -/
theorem compile_integer {n : Int64} (h : n ≠ Int64.minValue) :
    (compile (integerSource n.toInt)).diagnostics = [] ∧
      (compile (integerSource n.toInt)).instructions =
        [⟨"DECL_v", [("type", .char "INT"), ("value", .int n)], some ⟨1, 1⟩⟩] ∧
      ∃ p, (compile (integerSource n.toInt)).program = some p ∧
        p.flatten.state.store.symbols = [⟨"v", .int, .int n⟩] := by
  have hscan := Token.scan_integerDeclaration n.toInt
  have hvalid : ∀ t ∈ Token.scan (integerSource n.toInt), t.kind ≠ .invalid := by
    rw [hscan, List.forall_mem_append, List.forall_mem_singleton]
    exact ⟨fun t ht => (Token.kind_integerDeclaration _ t ht).2.2, nofun⟩
  have hread : Program.read (Token.scan (integerSource n.toInt)) =
      (Program.integerDeclaration n.toInt, []) := by
    rw [hscan]
    exact Program.read_integerDeclaration (natAbs_lt_of_ne_minValue h)
  have hflatten := Program.flatten_integerDeclaration n.toInt
  rw [Int64.ofInt_toInt] at hflatten
  rw [compile_of_read hvalid hread]
  refine ⟨?_, ?_, Program.integerDeclaration n.toInt, rfl, ?_⟩
  · rw [hflatten]
    rfl
  · rw [hflatten]
  · rw [hflatten]
    rfl

/-- The negative of `2 ^ 53 + 1`, which is no binary64 number. -/
theorem compile_integer_past_real :
    let n : Int64 := -9007199254740993
    n ≠ Int64.minValue ∧ integerSource n.toInt = "DECL INT v = -9007199254740993" ∧
      (compile (integerSource n.toInt)).diagnostics = [] ∧
      (compile (integerSource n.toInt)).instructions =
        [⟨"DECL_v", [("type", .char "INT"), ("value", .int n)], some ⟨1, 1⟩⟩] := by
  intro n
  have hne : n ≠ Int64.minValue := by decide
  obtain ⟨hdiagnostics, hinstructions, -⟩ := compile_integer hne
  exact ⟨hne, by decide, hdiagnostics, hinstructions⟩

/-- The digits of the least integer without its sign are out of range. -/
theorem compile_integer_least :
    integerSource Int64.minValue.toInt = "DECL INT v = -9223372036854775808" ∧
      (compile (integerSource Int64.minValue.toInt)).diagnostics =
        [⟨.grammatical, "Integer literal out of range", ⟨1, 15⟩⟩] ∧
      (compile (integerSource Int64.minValue.toInt)).instructions = [] := by
  decide +kernel

end ArmLang
