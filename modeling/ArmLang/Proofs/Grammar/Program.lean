import ArmLang.Proofs.Grammar.StatementSoundness

namespace ArmLang

theorem Program.read_start (tokens : List Token) :
    (Program.read tokens).1.start = (first? (Program.significant tokens)).getD ⟨1, 1⟩ := by
  unfold Program.read
  dsimp only
  cases hs : Program.significant tokens with
  | nil => rfl
  | cons t rest =>
    rw [List.takeWhile_cons]
    by_cases hk : t.kind = .fileEnd
    · simp [hk, nextLocation, Program.endLocation, first?]
    · simp [hk, nextLocation, first?]

/-- If nothing was noted, the tokens up to the end of the file are, comments apart, a derivation of
the program that was read, and its nodes are where their first tokens are. -/
theorem derives_of_read_silent {tokens : List Token} (h : (Program.read tokens).2 = []) :
    Statement.DerivesAll
        ((tokens.filter (·.kind ≠ .semicolon)).takeWhile (·.kind ≠ .fileEnd))
        (Program.read tokens).1.body ∧
      (Program.read tokens).1.start =
        (first? (tokens.filter (·.kind ≠ .semicolon))).getD ⟨1, 1⟩ := by
  constructor
  · let s := (Program.significant tokens).takeWhile (·.kind ≠ .fileEnd)
    let stop := Program.endLocation (Program.significant tokens)
    obtain ⟨ts, rest, _, _, hd, hall⟩ := Statement.readBody_grounded false stop s _ rfl h
    rw [hall rfl] at hd
    exact hd
  · exact Program.read_start tokens

/-- A comment, a conditional with parenthesised targets in it, and a token past the end. -/
def branchTokens : List Token :=
  [⟨.semicolon, ";", ⟨1, 1⟩⟩, ⟨.lineEnd, "", ⟨1, 8⟩⟩,
    ⟨.keyword .ifWord, "IF", ⟨2, 1⟩⟩, ⟨.leftParen, "(", ⟨2, 4⟩⟩, ⟨.identifier, "a", ⟨2, 5⟩⟩,
    ⟨.plus, "+", ⟨2, 7⟩⟩, ⟨.integer, "1", ⟨2, 9⟩⟩, ⟨.rightParen, ")", ⟨2, 10⟩⟩,
    ⟨.times, "*", ⟨2, 12⟩⟩, ⟨.minus, "-", ⟨2, 14⟩⟩, ⟨.identifier, "b", ⟨2, 15⟩⟩,
    ⟨.keyword .thenWord, "THEN", ⟨2, 17⟩⟩, ⟨.lineEnd, "", ⟨2, 21⟩⟩,
    ⟨.leftParen, "(", ⟨3, 3⟩⟩, ⟨.identifier, "a", ⟨3, 4⟩⟩, ⟨.rightParen, ")", ⟨3, 5⟩⟩,
    ⟨.assign, "=", ⟨3, 7⟩⟩, ⟨.identifier, "b", ⟨3, 9⟩⟩, ⟨.assign, "=", ⟨3, 11⟩⟩,
    ⟨.integer, "2", ⟨3, 13⟩⟩, ⟨.lineEnd, "", ⟨3, 14⟩⟩,
    ⟨.keyword .elseWord, "ELSE", ⟨4, 1⟩⟩, ⟨.lineEnd, "", ⟨4, 5⟩⟩,
    ⟨.keyword .endIf, "ENDIF", ⟨5, 1⟩⟩, ⟨.keyword .returnWord, "RETURN", ⟨5, 7⟩⟩,
    ⟨.fileEnd, "", ⟨6, 1⟩⟩, ⟨.invalid, "?", ⟨7, 1⟩⟩]

theorem derives_branchTokens :
    (Program.read branchTokens).2 = [] ∧
      Statement.DerivesAll
        ((branchTokens.filter (·.kind ≠ .semicolon)).takeWhile (·.kind ≠ .fileEnd))
        (Program.read branchTokens).1.body ∧
      (Program.read branchTokens).1.start =
        (first? (branchTokens.filter (·.kind ≠ .semicolon))).getD ⟨1, 1⟩ := by
  have h : (Program.read branchTokens).2 = [] := by decide +kernel
  exact ⟨h, derives_of_read_silent h⟩

end ArmLang
