import ArmLang.Location
import ArmLang.Token.Keyword

namespace ArmLang

inductive Kind
  | input
  | output
  | assign
  | equal
  | notEqual
  | lessEqual
  | greaterEqual
  | less
  | greater
  | plus
  | minus
  | times
  | divide
  | and
  | or
  | not
  | real
  | integer
  | text
  | ampersand
  | leftParen
  | rightParen
  | leftBrace
  | rightBrace
  | comma
  | semicolon
  | apostrophe
  | dot
  | identifier
  | keyword (w : Keyword)
  | lineEnd
  | fileEnd
  | invalid
  deriving DecidableEq, Repr

namespace Kind

def name : Kind → String
  | input => "IN"
  | output => "OUT"
  | assign => "ASSIGN"
  | equal => "EQUAL"
  | notEqual => "NOTEQUAL"
  | lessEqual => "LESSEQ"
  | greaterEqual => "GREATEREQ"
  | less => "LESS"
  | greater => "GREATER"
  | plus => "PLUS"
  | minus => "MINUS"
  | times => "MULTIPLY"
  | divide => "DIVIDE"
  | and => "AND"
  | or => "OR"
  | not => "NOT"
  | real => "FLOAT"
  | integer => "INTEGER"
  | text => "STRING"
  | ampersand => "AMPERSAND"
  | leftParen => "LPAREN"
  | rightParen => "RPAREN"
  | leftBrace => "LBRACE"
  | rightBrace => "RBRACE"
  | comma => "COMMA"
  | semicolon => "SEMICOLON"
  | apostrophe => "SINGLEQUOTE"
  | dot => "DOT"
  | identifier => "IDENTIFIER"
  | keyword w => w.text
  | lineEnd => "ENDOFLINE"
  | fileEnd => "ENDOFFILE"
  | invalid => "INVALID"

def all : List Kind :=
  [input, output, assign, equal, notEqual, lessEqual, greaterEqual, less, greater, plus, minus,
    times, divide, and, or, not, real, integer, text, ampersand, leftParen, rightParen, leftBrace,
    rightBrace, comma, semicolon, apostrophe, dot, identifier] ++
  Keyword.all.map keyword ++ [lineEnd, fileEnd, invalid]

def ofName? (s : String) : Option Kind := all.find? (·.name == s)

def isMotion : Kind → Bool
  | keyword (.motion _ _) => true
  | _ => false

end Kind

/-- A piece of a program text with its kind and the place where it begins. -/
structure Token where
  kind : Kind
  text : String
  location : Location
  deriving DecidableEq, Repr

end ArmLang
