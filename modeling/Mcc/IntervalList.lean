import Mathlib

/-!
Lists of half-open intervals of natural numbers, kept sorted with a gap between
neighbours. Adding an interval absorbs every interval it overlaps or touches.
-/

namespace IntervalList

structure Interval where
  start : Nat
  stop : Nat
  nonempty : start < stop

def Interval.Holds (interval : Interval) (position : Nat) : Prop :=
  interval.start ≤ position ∧ position < interval.stop

def hull (first second : Interval) : Interval where
  start := min first.start second.start
  stop := max first.stop second.stop
  nonempty := by
    have := first.nonempty
    omega

def Touches (first second : Interval) : Prop :=
  second.start ≤ first.stop ∧ first.start ≤ second.stop

instance (first second : Interval) : Decidable (Touches first second) :=
  inferInstanceAs (Decidable (_ ∧ _))

def Separated (intervals : List Interval) : Prop :=
  intervals.Pairwise fun first second => first.stop < second.start

def Covered (intervals : List Interval) (position : Nat) : Prop :=
  ∃ interval ∈ intervals, interval.Holds position

def absorb (added : Interval) : List Interval → List Interval
  | [] => [added]
  | first :: rest =>
    if added.stop < first.start then added :: first :: rest
    else if first.stop < added.start then first :: absorb added rest
    else absorb (hull added first) rest

theorem covered_cons (first : Interval) (rest : List Interval) (position : Nat) :
    Covered (first :: rest) position ↔ first.Holds position ∨ Covered rest position := by
  simp [Covered]

theorem hull_holds {first second : Interval} (touch : Touches first second) (position : Nat) :
    (hull first second).Holds position ↔ first.Holds position ∨ second.Holds position := by
  have firstNonempty := first.nonempty
  have secondNonempty := second.nonempty
  simp only [Touches] at touch
  simp only [hull, Interval.Holds]
  omega

theorem covered_absorb (added : Interval) (intervals : List Interval) (position : Nat) :
    Covered (absorb added intervals) position ↔ added.Holds position ∨ Covered intervals position := by
  induction intervals generalizing added with
  | nil => simp [absorb, Covered]
  | cons first rest ih =>
    simp only [absorb]
    split
    · exact covered_cons added (first :: rest) position
    · rename_i notBefore
      split
      · rw [covered_cons, ih, covered_cons]
        exact or_left_comm
      · rename_i notAfter
        have touch : Touches added first := ⟨by omega, by omega⟩
        rw [ih, hull_holds touch, covered_cons, or_assoc]

theorem all_absorb {good : Interval → Prop}
    (closed : ∀ first second, good first → good second → good (hull first second))
    (added : Interval) (intervals : List Interval) (addedGood : good added)
    (allGood : ∀ interval ∈ intervals, good interval) :
    ∀ interval ∈ absorb added intervals, good interval := by
  induction intervals generalizing added with
  | nil => simpa [absorb] using addedGood
  | cons first rest ih =>
    have firstGood := allGood first (by simp)
    have restGood : ∀ interval ∈ rest, good interval :=
      fun interval member => allGood interval (by simp [member])
    simp only [absorb]
    split
    · simp only [List.mem_cons]
      rintro interval (rfl | member)
      · exact addedGood
      · exact allGood interval (by simpa using member)
    · split
      · simp only [List.mem_cons]
        rintro interval (rfl | member)
        · exact firstGood
        · exact ih added addedGood restGood interval member
      · exact ih (hull added first) (closed added first addedGood firstGood) restGood

theorem lower_absorb (bound : Nat) (added : Interval) (intervals : List Interval)
    (addedBound : bound ≤ added.start) (bounds : ∀ interval ∈ intervals, bound ≤ interval.start) :
    ∀ interval ∈ absorb added intervals, bound ≤ interval.start := by
  apply all_absorb _ added intervals addedBound bounds
  intro first second firstBound secondBound
  simp only [hull]
  omega

theorem upper_absorb (bound : Nat) (added : Interval) (intervals : List Interval)
    (addedBound : added.stop ≤ bound) (bounds : ∀ interval ∈ intervals, interval.stop ≤ bound) :
    ∀ interval ∈ absorb added intervals, interval.stop ≤ bound := by
  apply all_absorb _ added intervals addedBound bounds
  intro first second firstBound secondBound
  simp only [hull]
  omega

theorem separated_absorb (added : Interval) (intervals : List Interval)
    (separated : Separated intervals) : Separated (absorb added intervals) := by
  induction intervals generalizing added with
  | nil => simp [absorb, Separated]
  | cons first rest ih =>
    obtain ⟨gaps, restSeparated⟩ := List.pairwise_cons.mp separated
    have firstNonempty := first.nonempty
    simp only [absorb]
    split
    · rename_i before
      refine List.pairwise_cons.mpr ⟨?_, separated⟩
      simp only [List.mem_cons]
      rintro interval (rfl | member)
      · exact before
      · exact Nat.lt_trans before (Nat.lt_trans firstNonempty (gaps interval member))
    · split
      · rename_i after
        refine List.pairwise_cons.mpr ⟨?_, ih added restSeparated⟩
        intro interval member
        exact lower_absorb (first.stop + 1) added rest after gaps interval member
      · exact ih (hull added first) restSeparated

end IntervalList
