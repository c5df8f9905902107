import ArmLang.Proofs.Program.Locality

namespace ArmLang

namespace Statement

open Reader

variable {e : Token}

theorem readBody_nil (nested : Bool) (stop : Location) : readBody nested stop [] = ⟨[], 0, []⟩ := by
  rw [readBody]

theorem lineLength_append (he : e.kind = .lineEnd) (l : List Token) :
    ∃ n, n ≤ l.length + 1 ∧ ∀ rest, lineLength (l ++ e :: rest) = n := by
  induction l with
  | nil => exact ⟨1, Nat.le_refl 1, fun rest => if_pos he⟩
  | cons t l ih =>
    obtain ⟨n, hn, h⟩ := ih
    by_cases ht : t.kind = .lineEnd
    · exact ⟨1, Nat.le_add_left .., fun rest => if_pos ht⟩
    · refine ⟨1 + n, ?_, fun rest => ?_⟩
      · rw [List.length_cons]
        omega
      · rw [List.cons_append, lineLength, if_neg ht, h]

/-- What is passed over ends with the line at the latest. -/
theorem roundReader_local (he : e.kind = .lineEnd) {l : List Token}
    (hl : ∀ t ∈ l, opensOrClosesBody t.kind = false) :
    ∃ (o : Option Statement) (n : Nat) (noted : List (Issue GrammarError)), 0 < n ∧
      n ≤ l.length + 1 ∧ ∀ stop rest, roundReader stop (l ++ e :: rest) = ⟨.ok o, n, noted⟩ := by
  obtain ⟨q, hq, herr, h⟩ := itemReader_local he hl
  have hround (stop rest) : roundReader stop (l ++ e :: rest) = recover (l ++ e :: rest) q := by
    rw [roundReader, h]
  have hpos (stop rest) : 0 < (roundReader stop (l ++ e :: rest)).used := by
    cases l with
    | nil => exact recover_used_pos e stop rest
    | cons t l => exact recover_used_pos t stop (l ++ e :: rest)
  cases ho : q.outcome with
  | ok o =>
    have hok (stop rest) : roundReader stop (l ++ e :: rest) = ⟨.ok o, q.used, q.noted⟩ := by
      rw [hround, recover, ho]
      dsimp only
      rw [← ho]
    refine ⟨o, q.used, q.noted, ?_, hq, hok⟩
    have := hpos .unknown []
    rwa [hok] at this
  | error err =>
    have hu := herr err ho
    obtain ⟨n, hn, hline⟩ := lineLength_append he (l.drop q.used)
    have hpassed (stop rest) : roundReader stop (l ++ e :: rest) =
        ⟨.ok none, q.used + n, q.noted ++ [err]⟩ := by
      rw [hround, recover, ho]
      dsimp only
      rw [List.drop_append_of_le_length hu, hline]
    refine ⟨none, q.used + n, q.noted ++ [err], ?_, ?_, hpassed⟩
    · have := hpos .unknown []
      rwa [hpassed] at this
    · rw [List.length_drop] at hn
      omega

/-- A line, whatever is wrong with it, adds its own statements and problems to a body. -/
theorem readBody_line (he : e.kind = .lineEnd) (l : List Token)
    (hl : ∀ t ∈ l, opensOrClosesBody t.kind = false) :
    ∃ (ss : List Statement) (noted : List (Issue GrammarError)), ∀ nested stop rest,
      readBody nested stop (l ++ e :: rest) =
        let more := readBody nested stop rest
        ⟨ss ++ more.statements, l.length + 1 + more.used, noted ++ more.noted⟩ := by
  obtain ⟨o, n, noted, hpos, hn, hround⟩ := roundReader_local he hl
  have hbody (nested stop rest) : readBody nested stop (l ++ e :: rest) =
      let more := readBody nested stop ((l ++ e :: rest).drop n)
      ⟨o.toList ++ more.statements, n + more.used, noted ++ more.noted⟩ := by
    cases l with
    | nil => exact readBody_of_round (by simp [he, closesBody]) (hround stop rest)
    | cons t l =>
      have ht := closesBody_eq_false (hl t List.mem_cons_self)
      exact readBody_of_round (by simp [ht]) (hround stop rest)
  -- A round ends with the line or in front of its end; then what is left is a shorter line.
  by_cases hend : n = l.length + 1
  · refine ⟨o.toList, noted, fun nested stop rest => ?_⟩
    have hdrop : (l ++ e :: rest).drop n = rest := by simp [hend]
    rw [hbody, hdrop, hend]
  · obtain ⟨ss, noted', ih⟩ := readBody_line he (l.drop n)
      fun t ht => hl t (List.mem_of_mem_drop ht)
    refine ⟨o.toList ++ ss, noted ++ noted', fun nested stop rest => ?_⟩
    have hdrop : (l ++ e :: rest).drop n = l.drop n ++ e :: rest :=
      List.drop_append_of_le_length (by omega)
    have hlength : n + ((l.drop n).length + 1) = l.length + 1 := by
      rw [List.length_drop]
      omega
    rw [hbody, hdrop, ih]
    dsimp only
    rw [← Nat.add_assoc, hlength, List.append_assoc, List.append_assoc]
termination_by l.length
decreasing_by
  simp only [List.length_drop]
  omega

end Statement

namespace Program

theorem significant_append (a b : List Token) :
    significant (a ++ b) = significant a ++ significant b :=
  List.filter_append ..

theorem endLocation_append {a b : List Token} (ha : ∀ t ∈ a, t.kind ≠ .fileEnd) (hb : b ≠ []) :
    endLocation (a ++ b) = endLocation b := by
  have hnone : a.find? (·.kind = .fileEnd) = none := by simpa using ha
  obtain ⟨t, ht⟩ := Option.isSome_iff_exists.1 (List.getLast?_isSome.2 hb)
  unfold endLocation
  rw [List.find?_append, hnone, Option.none_or, List.getLast?_append, ht, Option.some_or]

def bodyOf (tokens : List Token) : Statement.Body :=
  let tokens := significant tokens
  Statement.readBody false (endLocation tokens) (tokens.takeWhile (·.kind ≠ .fileEnd))

theorem read_body (tokens : List Token) : (read tokens).1.body = (bodyOf tokens).statements :=
  rfl

theorem read_issues (tokens : List Token) : (read tokens).2 = (bodyOf tokens).noted :=
  rfl

theorem bodyOf_append {a : List Token} (ha : ∀ t ∈ significant a, t.kind ≠ .fileEnd)
    (b : List Token) :
    ∃ stop s, bodyOf b = Statement.readBody false stop s ∧
      bodyOf (a ++ b) = Statement.readBody false stop (significant a ++ s) := by
  have hwindow : (significant (a ++ b)).takeWhile (·.kind ≠ .fileEnd) =
      significant a ++ (significant b).takeWhile (·.kind ≠ .fileEnd) := by
    rw [significant_append]
    exact List.takeWhile_append_of_pos fun t ht => by simpa using ha t ht
  refine ⟨endLocation (significant (a ++ b)), (significant b).takeWhile (·.kind ≠ .fileEnd), ?_, ?_⟩
  · by_cases hb : significant b = []
    · rw [bodyOf, hb]
      exact (Statement.readBody_nil ..).trans (Statement.readBody_nil ..).symm
    · rw [bodyOf, significant_append, endLocation_append ha hb]
  · rw [← hwindow]
    rfl

/-- Problems are local to their lines: whatever is wrong with lines in which no body inside another
statement begins or ends, they add their own statements and problems to a program or to the rest of
a body, and what follows is read as if they were not there. -/
theorem read_append {lines : List Token}
    (hends : lines.getLast?.map (·.kind) = some .lineEnd)
    (hflat : ∀ t ∈ lines, t.kind ≠ .fileEnd ∧ Statement.opensOrClosesBody t.kind = false)
    (rest : List Token) :
    (read (lines ++ rest)).1.body = (read lines).1.body ++ (read rest).1.body ∧
      (read (lines ++ rest)).2 = (read lines).2 ++ (read rest).2 ∧
        ∀ nested stop s, Statement.readBody nested stop (significant lines ++ s) =
          let more := Statement.readBody nested stop s
          ⟨(read lines).1.body ++ more.statements, (significant lines).length + more.used,
            (read lines).2 ++ more.noted⟩ := by
  obtain ⟨e, hlast, he⟩ : ∃ e, lines.getLast? = some e ∧ e.kind = .lineEnd := by simpa using hends
  obtain ⟨init, rfl⟩ := List.getLast?_eq_some_iff.1 hlast
  have hsignificant : significant (init ++ [e]) = significant init ++ [e] := by
    rw [significant_append]
    simp [significant, he]
  have hinit : ∀ t ∈ significant init, Statement.opensOrClosesBody t.kind = false := by
    intro t ht
    exact (hflat t (List.mem_append_left _ (List.mem_filter.1 ht |>.1))).2
  have hgoes : ∀ t ∈ significant (init ++ [e]), t.kind ≠ .fileEnd := by
    intro t ht
    exact (hflat t (List.mem_filter.1 ht |>.1)).1
  obtain ⟨ss, noted, h⟩ := Statement.readBody_line he (significant init) hinit
  have hlines (nested stop s) : Statement.readBody nested stop (significant (init ++ [e]) ++ s) =
      let more := Statement.readBody nested stop s
      ⟨ss ++ more.statements, (significant (init ++ [e])).length + more.used,
        noted ++ more.noted⟩ := by
    rw [hsignificant, List.append_assoc, List.singleton_append, h, List.length_append]
    rfl
  have hbody (rest) : bodyOf (init ++ [e] ++ rest) =
      ⟨ss ++ (bodyOf rest).statements, (significant (init ++ [e])).length + (bodyOf rest).used,
        noted ++ (bodyOf rest).noted⟩ := by
    obtain ⟨stop, s, hrest, hall⟩ := bodyOf_append hgoes rest
    rw [hall, hlines, hrest]
  have halone : bodyOf (init ++ [e]) = ⟨ss, (significant (init ++ [e])).length, noted⟩ := by
    have hnil : bodyOf [] = ⟨[], 0, []⟩ := Statement.readBody_nil ..
    have h := hbody []
    rw [hnil] at h
    simpa using h
  simp only [read_body, read_issues, hbody, halone]
  exact ⟨trivial, trivial, hlines⟩

def garbledLines : List Token :=
  [⟨.keyword (.motion .ptp false), "PTP", ⟨1, 1⟩⟩, ⟨.lineEnd, "\n", ⟨1, 4⟩⟩,
    ⟨.identifier, "x", ⟨2, 1⟩⟩, ⟨.assign, "=", ⟨2, 3⟩⟩, ⟨.semicolon, ";", ⟨2, 4⟩⟩,
    ⟨.rightParen, ")", ⟨2, 5⟩⟩, ⟨.lineEnd, "\n", ⟨2, 6⟩⟩]

def unclosedRoutine : List Token :=
  [⟨.keyword .defWord, "DEF", ⟨3, 1⟩⟩, ⟨.identifier, "main", ⟨3, 5⟩⟩, ⟨.leftParen, "(", ⟨3, 9⟩⟩,
    ⟨.rightParen, ")", ⟨3, 10⟩⟩, ⟨.fileEnd, "", ⟨3, 11⟩⟩]

theorem issues_garbledLines :
    (read garbledLines).2 = [⟨.noMotionTarget, ⟨1, 4⟩⟩, ⟨.noExpression (.piece ")"), ⟨2, 5⟩⟩] ∧
      (read (garbledLines ++ unclosedRoutine)).2 =
        (read garbledLines).2 ++ [⟨.noRoutineEnd, ⟨3, 11⟩⟩] := by
  have hunclosed : (read unclosedRoutine).2 = [⟨.noRoutineEnd, ⟨3, 11⟩⟩] := by decide +kernel
  constructor
  · decide +kernel
  · rw [← hunclosed]
    exact (read_append (by decide) (by decide) unclosedRoutine).2.1

end Program

end ArmLang
