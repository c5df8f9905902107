import ArmLang.Proofs.Grammar.Expr
import ArmLang.Proofs.Program.Shape
import Mathlib.Data.List.Forall2

namespace ArmLang

/-- A piece of a rendered program: a token of which only matters what is said. -/
inductive Piece
  | mark (k : Kind)
  | word (k : Kind) (text : String)
  | real (x : Float)
  | seconds (x : Float)

/-- Whether a token can stand for a piece. A number can be written in every way that reads back. -/
def Piece.Spells : Piece → Token → Prop
  | mark k, t => t.kind = k
  | word k text, t => t.kind = k ∧ t.text = text
  | real x, t => t.kind = .real ∧ Number.real? t.text = some x
  | seconds x, t => t.kind ∈ [.integer, .real] ∧ Number.real? t.text = some x

instance (p : Piece) (t : Token) : Decidable (p.Spells t) :=
  match p with
  | .mark k => inferInstanceAs (Decidable (t.kind = k))
  | .word k text => inferInstanceAs (Decidable (t.kind = k ∧ t.text = text))
  | .real x => inferInstanceAs (Decidable (t.kind = .real ∧ Number.real? t.text = some x))
  | .seconds x =>
    inferInstanceAs (Decidable (t.kind ∈ [.integer, .real] ∧ Number.real? t.text = some x))

/-- The tokens stand for the pieces, one for one. -/
def Spelled (ps : List Piece) (ts : List Token) : Prop := List.Forall₂ Piece.Spells ps ts

instance (ps : List Piece) (ts : List Token) : Decidable (Spelled ps ts) :=
  inferInstanceAs (Decidable (List.Forall₂ Piece.Spells ps ts))

/-- How tightly the operator binds; its operands bind at least as tightly, the right one more. -/
def BinaryOp.precedence : BinaryOp → Nat
  | or => 1
  | and => 2
  | equal | notEqual => 3
  | less | lessEqual | greater | greaterEqual => 4
  | add | subtract => 5
  | multiply | divide => 6

def Value.piece : Value → Piece
  | int n => .word .integer (toString n.toInt)
  | real x => .real x
  | bool b => .mark (.keyword (.truth b))
  | char s => .word .text (Text.Quoted.encode s)
  | pos _ | frame _ | axis _ => .mark .invalid

namespace Expr

/-- How tightly an expression holds together without parentheses around it. -/
def precedence : Expr → Nat
  | assign _ _ _ => 0
  | binary op _ _ _ => op.precedence
  | unary _ _ _ => 7
  | literal _ _ | var _ _ => 8

def parenthesise (place : Nat) (e : Expr) (ps : List Piece) : List Piece :=
  if e.precedence < place then .mark .leftParen :: (ps ++ [.mark .rightParen]) else ps

/-- Renders an expression with as few parentheses as the precedences allow. -/
def pieces : Expr → List Piece
  | literal v _ => [v.piece]
  | var name _ => [.word .identifier name]
  | unary op e _ => .mark op.kind :: parenthesise 7 e e.pieces
  | binary op a b _ =>
    parenthesise op.precedence a a.pieces ++
      .mark op.kind :: parenthesise (op.precedence + 1) b b.pieces
  | assign target e _ =>
    parenthesise 8 target target.pieces ++ .mark .assign :: e.pieces

end Expr

namespace Statement

def fieldPieces : List (String × Expr) → List Piece
  | [] => []
  | (name, e) :: fields =>
    .mark .comma :: .word .identifier name :: (e.pieces ++ fieldPieces fields)

def compoundPieces : List (String × Expr) → List Piece
  | [] => []
  | (name, e) :: fields =>
    .mark .assign :: .mark .leftBrace :: .word .identifier name ::
      (e.pieces ++ fieldPieces fields ++ [.mark .rightBrace])

def scalarPieces : Option Expr → List Piece
  | none => []
  | some e => .mark .assign :: e.pieces

def motionPiece (command : String) : Piece :=
  match Keyword.ofText? command with
  | some w => .mark (.keyword w)
  | none => .mark .invalid

mutual

/-- Renders a statement, which begins on a line of its own and ends a line. -/
def pieces : Statement → List Piece
  | block _ body => piecesAll body
  | routine name _ body _ =>
    .mark (.keyword .defWord) :: .word .identifier name :: .mark .leftParen :: .mark .rightParen ::
      .mark .lineEnd :: (piecesAll body ++ [.mark (.keyword .endWord), .mark .lineEnd])
  | motion command target _ _ =>
    [motionPiece command, .word .identifier target, .mark .lineEnd]
  | declare type name init _ =>
    .mark (.keyword .decl) :: .mark (.keyword (.type type)) :: .word .identifier name ::
      (scalarPieces init ++ [.mark .lineEnd])
  | declareFields type name fields _ =>
    .mark (.keyword .decl) :: .mark (.keyword (.type type.dataType)) :: .word .identifier name ::
      (compoundPieces fields ++ [.mark .lineEnd])
  | setField target field value _ =>
    .word .identifier target :: .mark .dot :: .word .identifier field :: .mark .assign ::
      (value.pieces ++ [.mark .lineEnd])
  | ifThen condition _ body _ =>
    .mark (.keyword .ifWord) :: (condition.pieces ++ .mark (.keyword .thenWord) ::
      .mark .lineEnd :: (piecesAll body ++ [.mark (.keyword .endIf), .mark .lineEnd]))
  | ifElse condition _ body _ elseBody _ =>
    .mark (.keyword .ifWord) :: (condition.pieces ++ .mark (.keyword .thenWord) ::
      .mark .lineEnd :: (piecesAll body ++ .mark (.keyword .elseWord) :: .mark .lineEnd ::
        (piecesAll elseBody ++ [.mark (.keyword .endIf), .mark .lineEnd])))
  | wait seconds _ =>
    [.mark (.keyword .wait), .mark .leftParen, .seconds seconds, .mark .rightParen,
      .mark .lineEnd]
  | evaluate e => e.pieces ++ [.mark .lineEnd]

def piecesAll : List Statement → List Piece
  | [] => []
  | s :: ss => pieces s ++ piecesAll ss

end

end Statement

def Program.pieces (p : Program) : List Piece := Statement.piecesAll p.body

namespace Expr

def bare : Expr → Expr
  | literal v _ => literal v .unknown
  | var name _ => var name .unknown
  | unary op e _ => unary op e.bare .unknown
  | binary op a b _ => binary op a.bare b.bare .unknown
  | assign target e _ => assign target.bare e.bare .unknown

end Expr

namespace Statement

def bareFields (fields : List (String × Expr)) : List (String × Expr) :=
  fields.map fun f => (f.1, f.2.bare)

mutual

def bare : Statement → Statement
  | block _ body => block .unknown (bareAll body)
  | routine name _ body _ => routine name .unknown (bareAll body) .unknown
  | motion command target args _ => motion command target (bareFields args) .unknown
  | declare type name init _ => declare type name (init.map Expr.bare) .unknown
  | declareFields type name fields _ => declareFields type name (bareFields fields) .unknown
  | setField target field value _ => setField target field value.bare .unknown
  | ifThen condition _ body _ => ifThen condition.bare .unknown (bareAll body) .unknown
  | ifElse condition _ body _ elseBody _ =>
    ifElse condition.bare .unknown (bareAll body) .unknown (bareAll elseBody) .unknown
  | wait seconds _ => wait seconds .unknown
  | evaluate e => evaluate e.bare

def bareAll : List Statement → List Statement
  | [] => []
  | s :: ss => bare s :: bareAll ss

end

end Statement

def Program.bare (p : Program) : Program := ⟨.unknown, Statement.bareAll p.body⟩

/-- The values that a literal can stand for. -/
def Value.Writable : Value → Prop
  | int n => 0 ≤ n
  | real x => ∃ text, Number.real? text = some x
  | bool _ | char _ => True
  | pos _ | frame _ | axis _ => False

/-- Every literal can be written down, and only variables are assigned to. -/
def Expr.Writable : Expr → Prop
  | literal v _ => v.Writable
  | var _ _ => True
  | unary _ e _ => e.Writable
  | binary _ a b _ => a.Writable ∧ b.Writable
  | assign target e _ => target.varName?.isSome ∧ e.Writable

end ArmLang
