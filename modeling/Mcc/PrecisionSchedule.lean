import Mathlib

/-!
The I/O scheduler in precision mode. The position in the list of intervals never moves: the first
interval is used for every packet.
-/

namespace Mcc.IoScheduler

inductive TrafficModel where
  | cbr
  | file (intervals : List Int32)

def configure : TrafficModel → List Int32
  | .cbr => []
  | .file intervals => intervals

def threash (ts : Int32) : Nat := (ts.toInt % 2 ^ 64).toNat

/-- The time between each sending and the one before; `none` is a read outside the list. -/
def precisionLoop (timestamps : List Int32) (index prevTs : Nat) : List Nat → Option (List Nat)
  | [] => some []
  | curTs :: rest => do
      let ts ← timestamps[index]?
      if threash ts ≤ curTs - prevTs then
        return (curTs - prevTs) :: (← precisionLoop timestamps index curTs rest)
      else precisionLoop timestamps index prevTs rest

def Follows (timestamps : List Int32) : Prop :=
  ∀ prevTs clock, (prevTs :: clock).Pairwise (· ≤ ·) →
    ∃ gaps, precisionLoop timestamps 0 prevTs clock = some gaps ∧
      ∀ (k gap : Nat) ts, gaps[k]? = some gap → timestamps[k % timestamps.length]? = some ts →
        ts.toInt ≤ gap

variable {first : Int32} {more : List Int32}

theorem precisionLoop_gaps (prevTs : Nat) (clock : List Nat) :
    ∃ gaps, precisionLoop (first :: more) 0 prevTs clock = some gaps ∧
      ∀ gap ∈ gaps, threash first ≤ gap := by
  induction clock generalizing prevTs with
  | nil => exact ⟨[], rfl, nofun⟩
  | cons curTs rest ih =>
    by_cases late : threash first ≤ curTs - prevTs
    · obtain ⟨gaps, done, all⟩ := ih curTs
      exact ⟨_, by simp [precisionLoop, late, done], List.forall_mem_cons.mpr ⟨late, all⟩⟩
    · obtain ⟨gaps, done, all⟩ := ih prevTs
      exact ⟨gaps, by simp [precisionLoop, late, done], all⟩

def punctual (period : Nat) : Nat → Nat → List Nat
  | 0, _ => []
  | count + 1, prevTs => (prevTs + period) :: punctual period count (prevTs + period)

theorem punctual_ge {period count prevTs : Nat} :
    ∀ curTs ∈ punctual period count prevTs, prevTs ≤ curTs := by
  induction count generalizing prevTs with
  | zero => exact nofun
  | succ count ih =>
    refine List.forall_mem_cons.mpr ⟨Nat.le_add_right _ _, fun curTs later => ?_⟩
    exact Nat.le_trans (Nat.le_add_right _ _) (ih curTs later)

theorem punctual_ordered (period count prevTs : Nat) :
    (prevTs :: punctual period count prevTs).Pairwise (· ≤ ·) := by
  induction count generalizing prevTs with
  | zero => exact List.pairwise_singleton _ _
  | succ count ih => exact List.pairwise_cons.mpr ⟨punctual_ge, ih _⟩

theorem precisionLoop_punctual (count prevTs : Nat) :
    precisionLoop (first :: more) 0 prevTs (punctual (threash first) count prevTs) =
      some (List.replicate count (threash first)) := by
  induction count generalizing prevTs with
  | zero => rfl
  | succ count ih => simp [punctual, precisionLoop, ih, List.replicate_succ]

theorem follows_iff (model : TrafficModel) : Follows (configure model) ↔
    ∃ first more, configure model = first :: more ∧
      ∀ ts ∈ configure model, ts.toInt ≤ threash first := by
  generalize configure model = timestamps
  constructor
  · intro follows
    cases timestamps with
    | nil =>
      obtain ⟨gaps, done, -⟩ := follows 0 [0] (by decide)
      cases done
    | cons first more =>
      refine ⟨first, more, rfl, fun ts listed => ?_⟩
      obtain ⟨k, inside, rfl⟩ := List.mem_iff_getElem.mp listed
      obtain ⟨gaps, done, keeps⟩ := follows 0 _ (punctual_ordered (threash first) (k + 1) 0)
      cases (precisionLoop_punctual (k + 1) 0).symm.trans done
      refine keeps k _ _ (by simp) ?_
      rw [Nat.mod_eq_of_lt inside, List.getElem?_eq_getElem inside]
  · rintro ⟨first, more, rfl, least⟩ prevTs clock -
    obtain ⟨gaps, done, all⟩ := @precisionLoop_gaps first more prevTs clock
    refine ⟨gaps, done, fun k gap ts sent next => ?_⟩
    have enough := least ts (List.mem_of_getElem? next)
    have late := all gap (List.mem_of_getElem? sent)
    omega

theorem empty_list_read : ¬Follows (configure .cbr) := by
  intro follows
  obtain ⟨gaps, done, -⟩ := follows 0 [0] (by decide)
  cases done

end Mcc.IoScheduler
