import ArmLang.Proofs.Grammar.ExprCompleteness
import ArmLang.Proofs.Rendering.Program
import ArmLang.Proofs.Store.Replay
import Mathlib.Data.List.Chain

namespace ArmLang

theorem Reader.accept_ok (k : Kind) (stop : Location) (ts : List Token) :
    ∃ b, accept k stop ts = ⟨.ok b, (accept k stop ts).used, []⟩ := by
  unfold accept
  split
  · split <;> exact ⟨_, rfl⟩
  · exact ⟨_, rfl⟩

theorem Statement.readEvaluation_eq_ok {stop : Location} {ts : List Token} {s : Statement}
    {n : Nat} {noted : List (Issue GrammarError)} :
    readEvaluation stop ts = ⟨.ok s, n, noted⟩ ↔
      ∃ e k, s = evaluate e ∧ Expr.read stop ts = ⟨.ok e, k, noted⟩ ∧
        n = k + (Reader.accept .lineEnd stop (ts.drop k)).used := by
  have hread : readEvaluation stop ts = (Expr.read stop ts).andThen fun e =>
      (Reader.accept .lineEnd stop (ts.drop (Expr.read stop ts).used)).map fun _ =>
        evaluate e := rfl
  obtain ⟨b, hb⟩ := Reader.accept_ok .lineEnd stop (ts.drop (Expr.read stop ts).used)
  rw [hread, hb]
  cases Expr.read stop ts with
  | mk outcome used noted' =>
    cases outcome with
    | error err => simp [Reading.andThen]
    | ok e =>
      simp only [Reading.map_ok, Reading.andThen, Reading.mk.injEq, Except.ok.injEq,
        List.append_nil]
      constructor
      · rintro ⟨rfl, rfl, rfl⟩
        exact ⟨e, used, rfl, ⟨rfl, rfl, rfl⟩, rfl⟩
      · rintro ⟨_, _, rfl, ⟨rfl, rfl, rfl⟩, rfl⟩
        exact ⟨rfl, rfl, rfl⟩

namespace Store

theorem find?_perform_assign_of_ne {name other : String} (h : name ≠ other) (s : Store)
    (v : Value) : (s.perform (.assign name v)).find? other = s.find? other := by
  rw [perform, assign?]
  split
  · split
    · rw [Option.getD_some, find?_replace, if_neg h]
    · rfl
  · rfl

theorem find?_perform_assign {s : Store} {name : String} {v : Value}
    (h : s.dataType? name = some v.dataType) :
    (s.perform (.assign name v)).find? name = some ⟨name, v.dataType, v⟩ := by
  obtain ⟨x, hx, ht⟩ := Option.map_eq_some_iff.1 h
  rw [perform, assign?_of_dataType h, Option.getD_some, find?_replace, if_pos rfl, hx,
    Option.map_some, ← ht, ← (mem_of_find? hx).2]

end Store

/-- A declared scalar variable with the sign that assigns to it. -/
structure Target (s : Store) where
  name : Token
  sign : Token
  type : DataType
  isName : name.kind ∈ [.identifier, .input, .output]
  isSign : sign.kind = .assign
  isDeclared : s.dataType? name.text = some type
  isScalar : type.isStructured = false

/-- An assignment that is carried out: the value that arrives at a target, and where its expression
begins. -/
structure Transfer (s : Store) where
  target : Target s
  value : Value
  source : Location

variable {s : Store}

namespace Target

def tokens (x : Target s) : List Token := [x.name, x.sign]

def stored (x : Target s) (v : Value) : Value := (v.convert? x.type).getD x.type.zero

def assign (x : Target s) (e : Expr) : Expr :=
  .assign (.var x.name.text x.name.location) e x.name.location

def chain (xs : List (Target s)) (e : Expr) : Expr := xs.foldr assign e

def carry (xs : List (Target s)) (v : Value) : Value := xs.foldr stored v

def transfers (e : Expr) (v : Value) : List (Target s) → List (Transfer s)
  | [] => []
  | x :: xs => transfers e v xs ++ [⟨x, carry xs v, (chain xs e).location⟩]

theorem map_target_transfers (e : Expr) (v : Value) (xs : List (Target s)) :
    (transfers e v xs).map (·.target) = xs.reverse := by
  induction xs with
  | nil => rfl
  | cons x xs ih =>
    rw [transfers, List.map_append, ih, List.reverse_cons]
    rfl

theorem getLast?_transfers (e : Expr) (v : Value) (x : Target s) (xs : List (Target s)) :
    (transfers e v (x :: xs)).getLast? = some ⟨x, carry xs v, (chain xs e).location⟩ :=
  List.getLast?_concat

theorem dataType_stored (x : Target s) (v : Value) : (x.stored v).dataType = x.type := by
  rw [stored]
  cases h : v.convert? x.type with
  | none => exact Value.dataType_zero x.type
  | some w => exact Value.dataType_convert? h

theorem leaf (x : Target s) : Expr.Leaf x.name (.var x.name.text x.name.location) :=
  .name x.isName

theorem length_flatMap_tokens (xs : List (Target s)) :
    (xs.flatMap tokens).length = 2 * xs.length := by
  simp [List.length_flatMap, tokens, Nat.mul_comm]

end Target

namespace Transfer

def stored (t : Transfer s) : Value := t.target.stored t.value

def instruction (t : Transfer s) : Instruction :=
  Expr.assignment t.target.name.text t.stored t.target.name.location

def operation (t : Transfer s) : Store.Operation := .assign t.target.name.text t.stored

def issues (t : Transfer s) : List (Issue SemanticError) :=
  match t.value.convert t.target.type with
  | .ok _ => []
  | .error e => [⟨.assignment e t.target.name.text, t.source⟩]

theorem assignValue_eq (t : Transfer s) (s' : Store) :
    Expr.assignValue t.target.name.text t.target.type t.value t.target.name.location t.source s' =
      ⟨t.stored, s'.perform t.operation, [t.instruction], t.issues⟩ := by
  cases h : t.value.convert? t.target.type with
  | none =>
    have hc : t.value.convert t.target.type = .error ⟨t.value.dataType, t.target.type⟩ := by
      rw [Value.convert, h]
    have hs : t.stored = t.target.type.zero := by
      rw [stored, Target.stored, h, Option.getD_none]
    rw [Expr.assignValue_error hc t.target.isScalar, instruction, operation, issues, hs, hc]
    rfl
  | some w =>
    have hc : t.value.convert t.target.type = .ok w := by rw [Value.convert, h]
    have hs : t.stored = w := by rw [stored, Target.stored, h, Option.getD_some]
    rw [Expr.assignValue_ok hc, instruction, operation, issues, hs, hc]
    rfl

theorem find?_performAll_of_ne {name : String} {ts : List (Transfer s)}
    (h : ∀ t ∈ ts, t.target.name.text ≠ name) (s' : Store) :
    (s'.performAll (ts.map operation)).find? name = s'.find? name := by
  induction ts generalizing s' with
  | nil => rfl
  | cons t ts ih =>
    obtain ⟨ht, hts⟩ := List.forall_mem_cons.1 h
    rw [List.map_cons, Store.performAll_cons, ih hts]
    exact Store.find?_perform_assign_of_ne ht s' t.stored

theorem dataType?_performAll (ts : List (Transfer s)) (s' : Store) (name : String) :
    (s'.performAll (ts.map operation)).dataType? name = s'.dataType? name := by
  apply Store.dataType?_performAll_assign
  intro op hop
  obtain ⟨t, -, rfl⟩ := List.mem_map.1 hop
  exact ⟨_, _, rfl⟩

/-- A target holds what the last assignment to it has stored. -/
theorem find?_performAll_of_last {s' : Store}
    (hs : ∀ name, s'.dataType? name = s.dataType? name) (before : List (Transfer s))
    {t : Transfer s} {after : List (Transfer s)}
    (h : ∀ u ∈ after, u.target.name.text ≠ t.target.name.text) :
    (s'.performAll ((before ++ t :: after).map operation)).find? t.target.name.text =
      some ⟨t.target.name.text, t.target.type, t.stored⟩ := by
  have htype : (s'.performAll (before.map operation)).dataType? t.target.name.text =
      some t.stored.dataType := by
    rw [dataType?_performAll, hs, t.target.isDeclared]
    exact congrArg some (t.target.dataType_stored t.value).symm
  rw [List.map_append, Store.performAll_append, List.map_cons, Store.performAll_cons,
    find?_performAll_of_ne h, operation, Store.find?_perform_assign htype]
  exact congrArg (fun type => some (Symbol.mk _ type _)) (t.target.dataType_stored t.value)

end Transfer

namespace Target

theorem read_assign {stop : Location} {rest : List Token} {e : Expr} {n : Nat}
    {noted : List (Issue GrammarError)} (x : Target s)
    (h : Expr.read stop rest = ⟨.ok e, n, noted⟩) :
    Expr.read stop (x.tokens ++ rest) = ⟨.ok (x.assign e), 2 + n, noted⟩ := by
  have hleaf : Expr.Reads (.tier .disjunction) [x.name] (.var x.name.text x.name.location) :=
    .disjunction_of_primary (.leaf x.leaf) x.leaf.prefixOp?_eq_none
  have hfollow : Expr.Follow 6 (x.sign :: rest) := by
    intro o ho op hop
    cases ho
    rw [x.isSign] at hop
    cases hop
  change Expr.read stop ([x.name] ++ x.sign :: rest) = _
  rw [Expr.read, hleaf.tier_of_follow hfollow, Reading.andThen_ok, List.drop_left,
    Expr.readAssigned, if_pos x.isSign, h]
  change Reading.mk _ (1 + (1 + n)) (noted ++ []) = _
  rw [← Nat.add_assoc, List.append_nil]
  rfl

/-- Targets in front of an expression make a chain of it, whatever else is read with it. -/
theorem read_chain {stop : Location} {rest : List Token} {e : Expr} {n : Nat}
    {noted : List (Issue GrammarError)} (h : Expr.read stop rest = ⟨.ok e, n, noted⟩)
    (xs : List (Target s)) :
    Expr.read stop (xs.flatMap tokens ++ rest) =
      ⟨.ok (chain xs e), 2 * xs.length + n, noted⟩ := by
  induction xs with
  | nil =>
    rw [List.flatMap_nil, List.nil_append, h, List.length_nil, Nat.mul_zero, Nat.zero_add]
    rfl
  | cons x xs ih =>
    rw [List.flatMap_cons, List.append_assoc, read_assign x ih, List.length_cons, Nat.mul_succ,
      ← Nat.add_assoc, Nat.add_comm 2]
    rfl

theorem evaluate_assign (x : Target s) (e : Expr) :
    let r := e.evaluate s
    let t : Transfer s := ⟨x, r.value, e.location⟩
    (x.assign e).evaluate s =
      ⟨t.stored, r.state.perform t.operation, r.code ++ [t.instruction],
        r.issues ++ t.issues⟩ := by
  intro r t
  rw [assign, Expr.evaluate_assign rfl x.isDeclared, Step.bind_apply]
  exact congrArg (fun a : Effect Store Value =>
    Effect.mk a.value a.state (r.code ++ a.code) (r.issues ++ a.issues)) (t.assignValue_eq r.state)

/-- A chain does what its expression does, and then one assignment after the other. -/
theorem evaluate_chain (xs : List (Target s)) (e : Expr) :
    let r := e.evaluate s
    let ts := transfers e r.value xs
    (chain xs e).evaluate s =
      ⟨carry xs r.value, r.state.performAll (ts.map (·.operation)),
        r.code ++ ts.map (·.instruction), r.issues ++ ts.flatMap (·.issues)⟩ := by
  intro r ts
  -- The first target is the outermost assignment, so it is carried out behind all the others.
  induction xs with
  | nil =>
    change r = ⟨r.value, r.state, r.code ++ [], r.issues ++ []⟩
    rw [List.append_nil, List.append_nil]
  | cons x xs ih =>
    dsimp only at ih
    have hstep := evaluate_assign x (chain xs e)
    rw [ih] at hstep
    change (x.assign (chain xs e)).evaluate s = _
    rw [hstep, show ts = transfers e r.value (x :: xs) from rfl, transfers]
    simp only [List.map_append, List.flatMap_append, List.append_assoc, Store.performAll_append,
      List.map_cons, List.map_nil, List.flatMap_cons, List.flatMap_nil, List.append_nil]
    rfl

theorem isChain_transfers (e : Expr) (v : Value) (xs : List (Target s)) :
    (transfers e v xs).IsChain fun t u => u.value = t.stored := by
  induction xs with
  | nil => exact .nil
  | cons x xs ih =>
    rw [transfers, List.isChain_append]
    refine ⟨ih, .singleton _, ?_⟩
    intro t ht u hu
    cases hu
    cases xs with
    | nil => cases ht
    | cons y ys =>
      rw [getLast?_transfers] at ht
      cases ht
      rfl

theorem value_head_transfers (e : Expr) (v : Value) (xs : List (Target s)) :
    ∀ t ∈ (transfers e v xs).head?, t.value = v ∧ t.source = e.location := by
  induction xs with
  | nil => exact fun t ht => nomatch ht
  | cons x xs ih =>
    intro t ht
    rw [transfers, List.head?_append] at ht
    cases hxs : (transfers e v xs).head? with
    | some u =>
      rw [hxs] at ht ih
      exact ih t ht
    | none =>
      have hnil : xs = [] := by
        rw [← List.reverse_eq_nil_iff, ← map_target_transfers e v xs,
          List.head?_eq_none_iff.1 hxs, List.map_nil]
      rw [hxs, hnil] at ht
      cases ht
      exact ⟨rfl, rfl⟩

end Target

namespace Statement

theorem readItem_chain {stop : Location} {right : List Token} {e : Expr} {n : Nat}
    {noted : List (Issue GrammarError)}
    (h : readEvaluation stop right = ⟨.ok (evaluate e), n, noted⟩) (x : Target s)
    (xs : List (Target s)) :
    readItem x.name stop (x.sign :: (xs.flatMap Target.tokens ++ right)) =
      ⟨.ok (some (evaluate (Target.chain (x :: xs) e))), 2 * (x :: xs).length + n, noted⟩ := by
  obtain ⟨e', k, he, hread, rfl⟩ := readEvaluation_eq_ok.1 h
  cases he
  have hchain := Target.read_chain hread (x :: xs)
  have hrest : ((x :: xs).flatMap Target.tokens ++ right).drop (2 * (x :: xs).length + k) =
      right.drop k := by
    rw [← Target.length_flatMap_tokens, List.drop_length_add_append]
  have heval : readEvaluation stop ((x :: xs).flatMap Target.tokens ++ right) = _ :=
    readEvaluation_eq_ok.2 ⟨_, _, rfl, hchain, rfl⟩
  have hdot : ∀ u ∈ (x.sign :: (xs.flatMap Target.tokens ++ right)).head?, u.kind ≠ .dot := by
    intro u hu
    cases hu
    rw [x.isSign]
    decide
  rw [readItem_of_isExpr x.leaf.isExpr hdot]
  change (readEvaluation stop ((x :: xs).flatMap Target.tokens ++ right)).map some = _
  rw [heval, hrest, Nat.add_assoc]
  exact congrArg (Reading.mk _ _) (List.append_nil _)

theorem flatten_chain {m : Memory} (xs : List (Target m.store)) (e : Expr) :
    let start := e.remember m
    let ts := Target.transfers e start.value xs
    flatten (evaluate (Target.chain xs e)) m =
      ⟨(), ⟨start.state.store.performAll (ts.map (·.operation)), Target.carry xs start.value⟩,
        start.code ++ ts.map (·.instruction), start.issues ++ ts.flatMap (·.issues)⟩ := by
  intro start ts
  rw [flatten, Step.bind_apply, Expr.remember, Target.evaluate_chain]
  exact congrArg₂ (Effect.mk _ _) (List.append_nil _) (List.append_nil _)

end Statement

/-- A chain of assignments in front of an expression is read as one statement. What the expression
emits is followed by one assignment for every target, from the last one to the first: the last gets
the value of the expression, and each of the others what the one on its right has stored, each
in the form that it has in the type of the target. A target holds in the end what was stored in it
last, every other variable what the expression has left in it, and the value remembered is what the
first target has stored. -/
theorem chain_assigns_in_turn (m : Memory) (x : Target m.store) (xs : List (Target m.store))
    {stop : Location} {right : List Token} {e : Expr} {n : Nat}
    {noted : List (Issue GrammarError)}
    (h : Statement.readEvaluation stop right = ⟨.ok (.evaluate e), n, noted⟩) :
    let targets := x :: xs
    let chain := Statement.evaluate (Target.chain targets e)
    let start := e.remember m
    let ts := Target.transfers e start.value targets
    let r := chain.flatten m
    Statement.readItem x.name stop (x.sign :: (xs.flatMap Target.tokens ++ right)) =
        ⟨.ok (some chain), 2 * targets.length + n, noted⟩ ∧
      ts.map (·.target) = targets.reverse ∧
      (∀ t ∈ ts.head?, t.value = start.value ∧ t.source = e.location) ∧
      ts.IsChain (fun t u => u.value = t.stored) ∧
      r.code = start.code ++ ts.map (·.instruction) ∧
      r.issues = start.issues ++ ts.flatMap (·.issues) ∧
      (∀ before t after, ts = before ++ t :: after →
        (∀ u ∈ after, u.target.name.text ≠ t.target.name.text) →
          r.state.store.find? t.target.name.text =
            some ⟨t.target.name.text, t.target.type, t.stored⟩) ∧
      (∀ name, (∀ y ∈ targets, y.name.text ≠ name) →
        r.state.store.find? name = start.state.store.find? name) ∧
      some r.state.last = ts.getLast?.map (·.stored) := by
  intro targets chain start ts r
  have hr : r = _ := Statement.flatten_chain targets e
  have hstore : r.state.store = start.state.store.performAll (ts.map (·.operation)) :=
    congrArg (·.state.store) hr
  refine ⟨Statement.readItem_chain h x xs, Target.map_target_transfers e start.value targets,
    Target.value_head_transfers e start.value targets,
    Target.isChain_transfers e start.value targets, congrArg Effect.code hr,
    congrArg Effect.issues hr, ?_, ?_, ?_⟩
  · intro before t after hts hlast
    rw [hstore, hts]
    exact Transfer.find?_performAll_of_last (e.dataType?_evaluate m.store) before hlast
  · intro name hname
    rw [hstore]
    apply Transfer.find?_performAll_of_ne
    intro t ht
    apply hname
    rw [← List.mem_reverse, ← Target.map_target_transfers e start.value targets]
    exact List.mem_map_of_mem ht
  · rw [Target.getLast?_transfers]
    exact congrArg (fun m => some m.last) (congrArg Effect.state hr)

/-- A text has no number, even if it came of one: `n = c = n = 7.9` makes `n` seven and then zero. -/
theorem chain_assigns_in_turn_text :
    let before : List Store.Operation :=
      [.declare "n" .int (.int 1), .declare "c" .char (.char "")]
    let m : Memory := ⟨Store.empty.performAll before, .real 0.0⟩
    let e := Expr.literal (.real 7.9) ⟨1, 13⟩
    let right : List Token := [⟨.real, "7.9", ⟨1, 13⟩⟩, ⟨.lineEnd, "\n", ⟨1, 16⟩⟩]
    let n (column : Nat) : Target m.store :=
      ⟨⟨.identifier, "n", ⟨1, column⟩⟩, ⟨.assign, "=", ⟨1, column + 2⟩⟩, .int, List.mem_cons_self,
        rfl, rfl, rfl⟩
    let c : Target m.store :=
      ⟨⟨.identifier, "c", ⟨1, 5⟩⟩, ⟨.assign, "=", ⟨1, 7⟩⟩, .char, List.mem_cons_self,
        rfl, rfl, rfl⟩
    let chain := Statement.evaluate (Target.chain [n 1, c, n 9] e)
    Statement.readEvaluation ⟨2, 1⟩ right = ⟨.ok (.evaluate e), 2, []⟩ ∧
      Statement.readItem (n 1).name ⟨2, 1⟩
        ((n 1).sign :: ([c, n 9].flatMap Target.tokens ++ right)) = ⟨.ok (some chain), 8, []⟩ ∧
      (chain.flatten m).code = [Expr.assignment "n" (.int 7) ⟨1, 9⟩,
        Expr.assignment "c" (.char "7") ⟨1, 5⟩, Expr.assignment "n" (.int 0) ⟨1, 1⟩] ∧
      (chain.flatten m).issues = [⟨.assignment ⟨.char, .int⟩ "n", ⟨1, 5⟩⟩] ∧
      (chain.flatten m).state.store.find? "n" = some ⟨"n", .int, .int 0⟩ := by
  intro before m e right n c chain
  have hleaf : Expr.Leaf ⟨.real, "7.9", ⟨1, 13⟩⟩ e := .real rfl (by decide +kernel)
  have hread : Expr.read ⟨2, 1⟩ right = ⟨.ok e, 1, []⟩ := by
    have hreads : Expr.Reads .assignment [_] e :=
      ((Expr.Reads.leaf hleaf).disjunction_of_primary rfl).assignment
    apply hreads
    intro o ho
    cases ho
    rfl
  have h : Statement.readEvaluation ⟨2, 1⟩ right = ⟨.ok (.evaluate e), 2, []⟩ :=
    Statement.readEvaluation_eq_ok.2 ⟨e, 1, rfl, hread, rfl⟩
  obtain ⟨hchain, -, -, -, hcode, hissues, hlast, -⟩ := chain_assigns_in_turn m (n 1) [c, n 9] h
  refine ⟨h, hchain, ?_, ?_, ?_⟩
  · rw [hcode]
    decide +kernel
  · rw [hissues]
    decide +kernel
  · exact hlast [_, _] _ [] rfl (by simp)

end ArmLang
