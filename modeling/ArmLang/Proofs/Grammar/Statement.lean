import ArmLang.Program.Read
import ArmLang.Proofs.Grammar.Expr

namespace ArmLang

def first? (ts : List Token) : Option Location := ts.head?.map (·.location)

theorem first?_eq_nextLocation (stop : Location) {s ts rest : List Token} {t : Token}
    (h : s = ts ++ t :: rest) : first? (ts ++ [t]) = some (nextLocation stop s) := by
  subst h
  cases ts with
  | nil => rfl
  | cons u ts => rfl

namespace Statement

inductive Fields (type : Compound) : List Token → List (String × Expr) → Prop
  | one : f.kind = .identifier → f.text ∈ type.dataType.fieldNames →
      Expr.Derives .assignment ts e → Fields type (f :: ts) [(f.text, e)]
  | more : f.kind = .identifier → f.text ∈ type.dataType.fieldNames →
      Expr.Derives .assignment ts e → c.kind = .comma → Fields type us fields →
      Fields type (f :: (ts ++ c :: us)) ((f.text, e) :: fields)

inductive CompoundValue (type : Compound) : List Token → List (String × Expr) → Prop
  | absent : CompoundValue type [] []
  | empty : a.kind = .assign → o.kind = .leftBrace → c.kind = .rightBrace →
      CompoundValue type [a, o, c] []
  | fields : a.kind = .assign → o.kind = .leftBrace → Fields type ts fields →
      c.kind = .rightBrace → CompoundValue type (a :: o :: (ts ++ [c])) fields

inductive ScalarValue : List Token → Option Expr → Prop
  | absent : ScalarValue [] none
  | present : a.kind = .assign → Expr.Derives .assignment ts e → ScalarValue (a :: ts) (some e)

mutual

inductive Derives : List Token → Statement → Prop
  | declare : d.kind = .keyword .decl → k.kind = .keyword (.type type) →
      type.isStructured = false → n.kind = .identifier → ScalarValue ts init →
      e.kind = .lineEnd →
      Derives (d :: k :: n :: (ts ++ [e])) (declare type n.text init d.location)
  | declareFields : d.kind = .keyword .decl → k.kind = .keyword (.type type.dataType) →
      n.kind = .identifier → CompoundValue type ts fields → e.kind = .lineEnd →
      Derives (d :: k :: n :: (ts ++ [e])) (declareFields type n.text fields d.location)
  | routine : d.kind = .keyword .defWord → n.kind = .identifier → o.kind = .leftParen →
      c.kind = .rightParen → DerivesAll ts body → e.kind = .keyword .endWord →
      first? (ts ++ [e]) = some start →
      Derives (d :: n :: o :: c :: (ts ++ [e])) (routine n.text start body d.location)
  | motion : m.kind = .keyword (.motion path relative) → t.kind = .identifier →
      Derives [m, t]
        (motion (Keyword.motion path relative).text t.text
          [("position", .var t.text t.location)] m.location)
  | ifThen : i.kind = .keyword .ifWord → Expr.Derives .assignment cs condition →
      th.kind = .keyword .thenWord → nl.kind = .lineEnd → DerivesAll ts body →
      e.kind = .keyword .endIf → first? (ts ++ [e]) = some start →
      Derives (i :: (cs ++ th :: nl :: (ts ++ [e]))) (ifThen condition start body i.location)
  | ifElse : i.kind = .keyword .ifWord → Expr.Derives .assignment cs condition →
      th.kind = .keyword .thenWord → nl.kind = .lineEnd → DerivesAll ts body →
      el.kind = .keyword .elseWord → nl'.kind = .lineEnd → DerivesAll us elseBody →
      e.kind = .keyword .endIf → first? (ts ++ [el]) = some start →
      first? (us ++ [e]) = some elseStart →
      Derives (i :: (cs ++ th :: nl :: (ts ++ el :: nl' :: (us ++ [e]))))
        (ifElse condition start body elseStart elseBody i.location)
  | wait : w.kind = .keyword .wait → o.kind = .leftParen →
      n.kind ∈ [.integer, .real] → Number.real? n.text = some x → c.kind = .rightParen →
      Derives [w, o, n, c] (wait x w.location)
  | setField : n.kind = .identifier → d.kind = .dot → f.kind = .identifier →
      f.text ∈ Pose.fieldNames ++ Joints.fieldNames → a.kind = .assign →
      Expr.Derives .assignment ts e →
      Derives (n :: d :: f :: a :: ts) (setField n.text f.text e n.location)
  | evaluate : Expr.Derives .assignment ts e → Derives ts (evaluate e)
  | evaluateLine : Expr.Derives .assignment ts e → nl.kind = .lineEnd →
      Derives (ts ++ [nl]) (evaluate e)

/-- Statements one after the other. The end of a line and `RETURN` are no statements. -/
inductive DerivesAll : List Token → List Statement → Prop
  | nil : DerivesAll [] []
  | blank : t.kind ∈ [.lineEnd, .keyword .returnWord] → DerivesAll ts ss → DerivesAll (t :: ts) ss
  | cons : Derives ts s → DerivesAll us ss → DerivesAll (ts ++ us) (s :: ss)

end

theorem Derives.ne_nil {ts : List Token} {s : Statement} (h : Derives ts s) : ts ≠ [] := by
  cases h with
  | evaluate he =>
    rintro rfl
    cases he.origin
  | evaluateLine => simp
  | _ => exact List.cons_ne_nil _ _

end Statement

end ArmLang
