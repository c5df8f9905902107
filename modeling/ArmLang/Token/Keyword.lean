import ArmLang.Value.Basic

namespace ArmLang

inductive Path
  | ptp
  | lin
  | circ
  | spline
  deriving DecidableEq, Repr, Inhabited

namespace Path

def all : List Path := [ptp, lin, circ, spline]

def name : Path → String
  | ptp => "PTP"
  | lin => "LIN"
  | circ => "CIRC"
  | spline => "SPLINE"

end Path

inductive Keyword
  | defWord
  | endWord
  | decl
  | returnWord
  | halt
  | goto
  | type (t : DataType)
  | ifWord
  | thenWord
  | elseWord
  | endIf
  | forWord
  | toWord
  | step
  | endFor
  | whileWord
  | endWhile
  | repeatWord
  | untilWord
  | switch
  | caseWord
  | defaultWord
  | endSwitch
  | motion (path : Path) (relative : Bool)
  | wait
  | delay
  | truth (b : Bool)
  | pi
  deriving DecidableEq, Repr

namespace Keyword

def text : Keyword → String
  | defWord => "DEF"
  | endWord => "END"
  | decl => "DECL"
  | returnWord => "RETURN"
  | halt => "HALT"
  | goto => "GOTO"
  | type t => t.keyword
  | ifWord => "IF"
  | thenWord => "THEN"
  | elseWord => "ELSE"
  | endIf => "ENDIF"
  | forWord => "FOR"
  | toWord => "TO"
  | step => "STEP"
  | endFor => "ENDFOR"
  | whileWord => "WHILE"
  | endWhile => "ENDWHILE"
  | repeatWord => "REPEAT"
  | untilWord => "UNTIL"
  | switch => "SWITCH"
  | caseWord => "CASE"
  | defaultWord => "DEFAULT"
  | endSwitch => "ENDSWITCH"
  | motion path relative => if relative then path.name ++ "_REL" else path.name
  | wait => "WAIT"
  | delay => "DELAY"
  | truth b => if b then "TRUE" else "FALSE"
  | pi => "PI"

def all : List Keyword :=
  [defWord, endWord, decl, returnWord, halt, goto] ++ DataType.all.map type ++
  [ifWord, thenWord, elseWord, endIf, forWord, toWord, step, endFor, whileWord, endWhile, repeatWord,
    untilWord, switch, caseWord, defaultWord, endSwitch] ++
  Path.all.map (motion · false) ++ Path.all.map (motion · true) ++
  [wait, delay, truth true, truth false, pi]

def ofText? (s : String) : Option Keyword := all.find? (·.text == s)

theorem ofText?_text (w : Keyword) : ofText? w.text = some w := by
  cases w with
  | type t => cases t <;> decide
  | motion path relative => cases path <;> cases relative <;> decide
  | truth b => cases b <;> decide
  | _ => decide

end Keyword

end ArmLang
