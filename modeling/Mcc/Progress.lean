import Mathlib

/-!
Infinite runs of a system under a schedule, and the rule by which something eventually happens in
them: as long as it has not, one kind of step makes a rank smaller, and no other step undoes that.
-/

namespace Progress

variable {State Label Rank : Type*}

def trace (step : State → Label → State) (start : State) (schedule : Nat → Label) : Nat → State
  | 0 => start
  | time + 1 => step (trace step start schedule time) (schedule time)

variable {start : State}

theorem trace_invariant {step : State → Label → State} {schedule : Nat → Label}
    {kept : State → Prop} (initial : kept start)
    (preserved : ∀ state label, kept state → kept (step state label)) :
    ∀ time, kept (trace step start schedule time) := by
  intro time
  induction time with
  | zero => exact initial
  | succ time ih => exact preserved _ _ ih

variable {time : Nat}

theorem trace_stays {step : State → Label → State} {schedule : Nat → Label} (kept : State → Prop)
    (preserved : ∀ state label, kept state → kept (step state label)) {later : Nat}
    (order : time ≤ later) (now : kept (trace step start schedule time)) :
    kept (trace step start schedule later) := by
  obtain ⟨distance, rfl⟩ := Nat.exists_eq_add_of_le order
  induction distance with
  | zero => exact now
  | succ distance ih => exact preserved _ _ (ih (Nat.le_add_right _ _))

def Recurs (schedule : Nat → Label) (label : Label) : Prop :=
  ∀ time, ∃ later ≥ time, schedule later = label

/-- What one step does to a goal that is still ahead: it reaches it, it lowers the rank, or it
waits for a helpful step that stays the same. -/
def Approaches [LT Rank] (goal : State → Prop) (rank : State → Rank) (helpful : State → Label)
    (before after : State) (label : Label) : Prop :=
  goal after ∨ rank after < rank before ∨
    (rank after = rank before ∧ helpful after = helpful before ∧ label ≠ helpful before)

section Helpful

variable [LT Rank] (states : Nat → State) {schedule : Nat → Label} (goal : State → Prop)
  {rank : State → Rank} {helpful : State → Label} (fair : ∀ state, Recurs schedule (helpful state))
  (approaches : ∀ later ≥ time, ¬goal (states later) →
    Approaches goal rank helpful (states later) (states (later + 1)) (schedule later))

include approaches in
theorem waits_or_improves :
    ∀ distance,
      (∃ later ≥ time, goal (states later) ∨ rank (states later) < rank (states time)) ∨
        (rank (states (time + distance)) = rank (states time) ∧
          helpful (states (time + distance)) = helpful (states time)) := by
  intro distance
  induction distance with
  | zero => exact .inr ⟨rfl, rfl⟩
  | succ distance ih =>
    rcases ih with improved | ⟨sameRank, sameHelp⟩
    · exact .inl improved
    · by_cases reached : goal (states (time + distance))
      · exact .inl ⟨time + distance, Nat.le_add_right _ _, .inl reached⟩
      · rcases approaches _ (Nat.le_add_right _ _) reached with now | lower | ⟨kept, help, -⟩
        · exact .inl ⟨time + distance + 1, by omega, .inl now⟩
        · exact .inl ⟨time + distance + 1, by omega, .inr (sameRank ▸ lower)⟩
        · exact .inr ⟨kept.trans sameRank, help.trans sameHelp⟩

include fair approaches

theorem improves_of_helpful :
    ∃ later ≥ time, goal (states later) ∨ rank (states later) < rank (states time) := by
  obtain ⟨turn, after, isHelp⟩ := fair (states time) time
  obtain ⟨distance, rfl⟩ := Nat.exists_eq_add_of_le after
  rcases waits_or_improves states goal approaches distance with improved | ⟨sameRank, sameHelp⟩
  · exact improved
  · by_cases reached : goal (states (time + distance))
    · exact ⟨time + distance, after, .inl reached⟩
    · rcases approaches _ after reached with now | lower | ⟨-, -, other⟩
      · exact ⟨time + distance + 1, by omega, .inl now⟩
      · exact ⟨time + distance + 1, by omega, .inr (sameRank ▸ lower)⟩
      · exact absurd (isHelp.trans sameHelp.symm) other

theorem eventually_of_helpful [WellFoundedLT Rank] : ∃ later ≥ time, goal (states later) := by
  generalize isRank : rank (states time) = bound
  induction bound using WellFoundedLT.induction generalizing time with
  | ind bound ih =>
    obtain ⟨later, after, reached | lower⟩ := improves_of_helpful states goal fair approaches
    · exact ⟨later, after, reached⟩
    · obtain ⟨last, beyond, reached⟩ := ih _ (isRank ▸ lower)
        (fun time order => approaches time (Nat.le_trans after order)) rfl
      exact ⟨last, Nat.le_trans after beyond, reached⟩

end Helpful

theorem trace_eventually [LT Rank] [WellFoundedLT Rank] {step : State → Label → State}
    {schedule : Nat → Label} (kept goal : State → Prop) (rank : State → Rank) {label : Label}
    (recurs : Recurs schedule label) (now : kept (trace step start schedule time))
    (preserved : ∀ state label, kept state → kept (step state label))
    (lowers : ∀ state, kept state → ¬goal state →
      goal (step state label) ∨ rank (step state label) < rank state)
    (waits : ∀ state other, kept state → other ≠ label → ¬goal state →
      goal (step state other) ∨ rank (step state other) = rank state) :
    ∃ later ≥ time, goal (trace step start schedule later) := by
  have approaches : ∀ later ≥ time, ¬goal (trace step start schedule later) →
      Approaches goal rank (fun _ => label) (trace step start schedule later)
        (trace step start schedule (later + 1)) (schedule later) := by
    intro later after ahead
    have still := trace_stays kept preserved after now
    by_cases turn : schedule later = label
    · rw [trace, turn]
      rcases lowers _ still ahead with reached | lower
      · exact .inl reached
      · exact .inr (.inl lower)
    · rcases waits _ _ still turn ahead with reached | same
      · exact .inl reached
      · exact .inr (.inr ⟨same, rfl, turn⟩)
  exact eventually_of_helpful _ goal (fun _ => recurs) approaches

theorem trace_all {ι : Type*} [Finite ι] {step : State → Label → State} {schedule : Nat → Label}
    (goal : ι → State → Prop) (stays : ∀ i state label, goal i state → goal i (step state label))
    (each : ∀ i, ∃ later ≥ time, goal i (trace step start schedule later)) :
    ∃ later ≥ time, ∀ i, goal i (trace step start schedule later) := by
  choose turn after reached using each
  obtain ⟨last, bound⟩ := Finite.exists_le turn
  exact ⟨max time last, Nat.le_max_left _ _, fun i =>
    trace_stays (goal i) (stays i) (Nat.le_trans (bound i) (Nat.le_max_right _ _)) (reached i)⟩

end Progress
