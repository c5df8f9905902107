namespace ArmLang.Text.Quoted

/-- Resolves backslashes: `\n` and `\t` stand for a line feed and a tab, any other character after
a backslash for itself, and a backslash at the end for itself. -/
def unescape : List Char → List Char
  | [] => []
  | ['\\'] => ['\\']
  | '\\' :: 'n' :: cs => '\n' :: unescape cs
  | '\\' :: 't' :: cs => '\t' :: unescape cs
  | '\\' :: c :: cs => c :: unescape cs
  | c :: cs => c :: unescape cs

/-- The text between two quotation marks; anything else is taken as it stands. -/
def strip : List Char → List Char
  | '"' :: cs => if cs.getLast? = some '"' then cs.dropLast else '"' :: cs
  | cs => cs

def decode (s : String) : String := String.ofList (unescape (strip s.toList))

def escape : Char → List Char
  | '\\' => ['\\', '\\']
  | '"' => ['\\', '"']
  | '\n' => ['\\', 'n']
  | '\t' => ['\\', 't']
  | c => [c]

def encode (s : String) : String := String.ofList ('"' :: s.toList.flatMap escape ++ ['"'])

theorem unescape_escape (c : Char) (cs : List Char) :
    unescape (escape c ++ cs) = c :: unescape cs := by
  fun_cases escape c with
  | case1 => simp [unescape]
  | case2 => simp [unescape]
  | case3 => simp [unescape]
  | case4 => simp [unescape]
  | case5 hb =>
    rw [List.singleton_append, unescape]
    all_goals simp_all

theorem unescape_flatMap_escape (cs : List Char) : unescape (cs.flatMap escape) = cs := by
  induction cs with
  | nil => rfl
  | cons c cs ih => rw [List.flatMap_cons, unescape_escape, ih]

theorem decode_encode (s : String) : decode (encode s) = s := by
  simp [decode, encode, strip, unescape_flatMap_escape]

end ArmLang.Text.Quoted
