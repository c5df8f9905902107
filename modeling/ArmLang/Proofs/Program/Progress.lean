import ArmLang.Program.Read

namespace ArmLang

namespace Reading

/-- If something was read, a token was used up for it. -/
def Spends (r : Reading α) : Prop := ∀ a, r.outcome = .ok a → 0 < r.used

theorem spends_one (a : α) : Spends ⟨.ok a, 1, []⟩ := fun _ _ => Nat.one_pos

theorem spends_failure (e : GrammarError) (l : Location) : (failure e l : Reading α).Spends := by
  intro a h
  cases h

theorem spends_after (r : Reading α) (n : Nat) : (r.after (n + 1)).Spends := by
  intro a _
  change 0 < n + 1 + r.used
  omega

theorem Spends.andThen {r : Reading α} (h : r.Spends) (f : α → Reading β) :
    (r.andThen f).Spends := by
  intro b hb
  unfold Reading.andThen at hb ⊢
  split at hb
  · cases hb
  · next a ha =>
    have := h a ha
    dsimp only
    omega

theorem Spends.map {r : Reading α} (h : r.Spends) (f : α → β) : (r.map f).Spends :=
  h.andThen _

end Reading

namespace Expr

theorem readPrimary_spends (stop : Location) (s : List Token) : (readPrimary stop s).Spends := by
  cases s with
  | nil =>
    rw [readPrimary]
    exact Reading.spends_failure _ stop
  | cons t rest =>
    rw [readPrimary]
    split
    · exact (Reading.spends_after _ 0).andThen _
    · split
      · exact Reading.spends_one _
      · exact Reading.spends_failure _ t.location

theorem readUnary_spends (stop : Location) (s : List Token) : (readUnary stop s).Spends := by
  cases s with
  | nil =>
    rw [readUnary]
    exact readPrimary_spends stop []
  | cons t rest =>
    rw [readUnary]
    split
    · exact (Reading.spends_after _ 0).map _
    · exact readPrimary_spends stop (t :: rest)

mutual

theorem readTier_spends (t : Tier) (stop : Location) (s : List Token) :
    (readTier t stop s).Spends := by
  rw [readTier]
  exact (readOperand_spends t stop s).andThen _
termination_by 2 * t.height + 1

theorem readOperand_spends (t : Tier) (stop : Location) (s : List Token) :
    (readOperand t stop s).Spends := by
  cases t with
  | product =>
    rw [readOperand]
    exact readUnary_spends stop s
  | disjunction | conjunction | equality | comparison | sum =>
    rw [readOperand]
    exact readTier_spends _ stop s
termination_by 2 * t.height
decreasing_by all_goals simp [Tier.height]

end

theorem read_spends (stop : Location) (s : List Token) : (read stop s).Spends := by
  rw [read]
  exact (readTier_spends .disjunction stop s).andThen _

end Expr

namespace Statement

theorem readItem_spends (t : Token) (stop : Location) (s : List Token) :
    (readItem t stop s).Spends := by
  have hevaluation : ((readEvaluation stop (t :: s)).map some).Spends :=
    Reading.Spends.map ((Expr.read_spends stop (t :: s)).andThen _) _
  rw [readItem.eq_def]
  split
  · exact (Reading.spends_after _ 0).map _
  · exact (Reading.spends_after _ 0).map _
  · exact (Reading.spends_after _ 0).map _
  · exact (Reading.spends_after _ 0).map _
  · exact (Reading.spends_after _ 0).map _
  · exact Reading.spends_one none
  · exact Reading.spends_one none
  · split
    · exact (Reading.spends_after _ 1).map _
    · exact hevaluation
  · exact hevaluation

theorem lineLength_pos (t : Token) (s : List Token) : 0 < lineLength (t :: s) := by
  unfold lineLength
  split <;> omega

theorem recover_outcome (r : Reading (Option Statement)) (s : List Token) :
    ∃ o, (recover s r).outcome = .ok o := by
  unfold recover
  split
  · next o ho => exact ⟨o, ho⟩
  · exact ⟨none, rfl⟩

/-- Whatever comes next, a token is used up for it: if it cannot be read it is passed over. -/
theorem recover_used_pos (t : Token) (stop : Location) (s : List Token) :
    0 < (recover (t :: s) (readItem t stop s)).used := by
  have hspends := readItem_spends t stop s
  generalize readItem t stop s = r at hspends
  unfold recover
  split
  · next o ho => exact hspends o ho
  · cases hu : r.used with
    | zero =>
      have := lineLength_pos t s
      simpa [hu] using this
    | succ n =>
      dsimp only
      omega

end Statement

end ArmLang
