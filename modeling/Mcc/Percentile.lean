import Mathlib

/-!
The percentiles of the round-trip times that the client reports. The scan takes bucket 0 for "not yet
found", halves the total to an integer, and does not look at the last bucket.
-/

namespace Mcc.Percentile

def numRtt : Nat := 5000

variable (rttLog : Nat → Nat)

def added : Nat → Int32
  | 0 => 0
  | count + 1 => added count + Int32.ofNat (rttLog count)

def totalRtt : Int32 := added rttLog (numRtt + 1)

/-- `ptr_50` and `ptr` at the end of the loop from `ptr` on. The comparison with `total_rtt * 0.01`
is exact for every `int`. -/
def scan : Nat → Nat → Nat → Int32 → Nat × Nat
  | 0, ptr, ptr50, _ => (ptr50, ptr)
  | left + 1, ptr, ptr50, acc =>
    let acc := acc + Int32.ofNat (rttLog ptr)
    let ptr50 := if 0 = ptr50 ∧ acc ≥ totalRtt rttLog / 2 then ptr else ptr50
    if 100 * (totalRtt rttLog - acc).toInt ≤ (totalRtt rttLog).toInt then (ptr50, ptr)
    else scan left (ptr + 1) ptr50 acc

def report : Nat × Nat := scan rttLog numRtt 0 0 0

def cumulative (bucket : Nat) : Nat := ∑ i ∈ Finset.range (bucket + 1), rttLog i

def total : Nat := cumulative rttLog numRtt

structure IsMedian (bucket : Nat) : Prop where
  inside : bucket ≤ numRtt
  enough : total rttLog ≤ 2 * cumulative rttLog bucket
  least : ∀ other < bucket, 2 * cumulative rttLog other < total rttLog

/-- Either 99 of 100 round trips are in bucket 0, or the bucket is neither the first nor the last and
no bucket between the first and it reaches half of an odd total but for one half. -/
def Seen (bucket : Nat) : Prop :=
  bucket = 0 ∧ 100 * (total rttLog - cumulative rttLog 0) ≤ total rttLog ∨
    0 < bucket ∧ bucket < numRtt ∧
      ∀ other < bucket, 0 < other → 2 * cumulative rttLog other + 1 ≠ total rttLog

def Half (bucket : Nat) : Prop := total rttLog / 2 ≤ cumulative rttLog bucket

def Ends (bucket : Nat) : Prop := 100 * (total rttLog - cumulative rttLog bucket) ≤ total rttLog

def Chosen (stop bucket : Nat) : Prop :=
  bucket = 0 ∧ (∀ other < stop, 0 < other → ¬Half rttLog other) ∨
    0 < bucket ∧ bucket < stop ∧ Half rttLog bucket ∧ ∀ other < bucket, 0 < other → ¬Half rttLog other

variable {rttLog}

theorem cumulative_mono {first second : Nat} (order : first ≤ second) :
    cumulative rttLog first ≤ cumulative rttLog second :=
  Finset.sum_le_sum_of_subset (Finset.range_mono (Nat.succ_le_succ order))

theorem added_eq (bucket : Nat) : added rttLog (bucket + 1) = Int32.ofNat (cumulative rttLog bucket) := by
  induction bucket with
  | zero => simp [added, cumulative]
  | succ bucket ih =>
    rw [added, ih, cumulative, cumulative, Finset.sum_range_succ _ (bucket + 1), Int32.ofNat_add]

section

variable (fits : total rttLog < 2 ^ 31)
include fits

theorem half_iff {bucket : Nat} (inside : bucket ≤ numRtt) :
    added rttLog (bucket + 1) ≥ totalRtt rttLog / 2 ↔ Half rttLog bucket := by
  have below : cumulative rttLog bucket ≤ total rttLog := cumulative_mono inside
  have two : (2 : Int32).toInt = 2 := rfl
  have half : (totalRtt rttLog / 2).toInt = total rttLog / 2 := by
    rw [totalRtt, added_eq, ← total, Int32.toInt_div, Int32.toInt_ofNat_of_lt fits, two,
      Int.tdiv_eq_ediv_of_nonneg (Int.natCast_nonneg _)]
    exact Int.bmod_eq_of_le (by omega) (by omega)
  rw [ge_iff_le, Int32.le_iff_toInt_le, half, added_eq, Int32.toInt_ofNat_of_lt (by omega), Half]
  omega

theorem ends_iff {bucket : Nat} (inside : bucket ≤ numRtt) :
    100 * (totalRtt rttLog - added rttLog (bucket + 1)).toInt ≤ (totalRtt rttLog).toInt ↔
      Ends rttLog bucket := by
  have below : cumulative rttLog bucket ≤ total rttLog := cumulative_mono inside
  have rest : totalRtt rttLog - added rttLog (bucket + 1) =
      Int32.ofNat (total rttLog - cumulative rttLog bucket) := by
    rw [totalRtt, added_eq, added_eq, ← total, Int32.ofNat_sub _ _ below]
  rw [rest, totalRtt, added_eq, ← total, Int32.toInt_ofNat_of_lt fits,
    Int32.toInt_ofNat_of_lt (by omega), Ends]
  omega

theorem Chosen.next {ptr ptr50 : Nat} (inside : ptr ≤ numRtt) (chosen : Chosen rttLog ptr ptr50) :
    Chosen rttLog (ptr + 1)
      (if 0 = ptr50 ∧ added rttLog (ptr + 1) ≥ totalRtt rttLog / 2 then ptr else ptr50) := by
  have halves := half_iff fits inside
  rcases chosen with ⟨rfl, missing⟩ | ⟨positive, inside, half, first⟩
  · split
    · rename_i found
      rcases Nat.eq_zero_or_pos ptr with rfl | positive
      · exact .inl ⟨rfl, fun other small positive => by omega⟩
      · exact .inr ⟨positive, Nat.lt_succ_self _, halves.mp found.2, missing⟩
    · rename_i unfound
      refine .inl ⟨rfl, fun other small positive half => ?_⟩
      rcases Nat.lt_succ_iff_lt_or_eq.mp small with less | rfl
      · exact missing other less positive half
      · exact unfound ⟨rfl, halves.mpr half⟩
  · rw [if_neg fun found => by omega]
    exact .inr ⟨positive, Nat.lt_succ_of_lt inside, half, first⟩

theorem scan_spec {left ptr ptr50 : Nat} (rest : ptr + left = numRtt)
    (chosen : Chosen rttLog ptr ptr50) {found : Nat × Nat}
    (scanned : scan rttLog left ptr ptr50 (added rttLog ptr) = found) :
    Chosen rttLog (min (found.2 + 1) numRtt) found.1 ∧ (found.2 < numRtt → Ends rttLog found.2) ∧
      ∀ other, ptr ≤ other → other < found.2 → ¬Ends rttLog other := by
  induction left generalizing ptr ptr50 with
  | zero =>
    subst scanned rest
    exact ⟨by rwa [scan, Nat.min_eq_right (Nat.le_succ _)], fun less => absurd less (Nat.lt_irrefl _),
      fun other above below => absurd above (Nat.not_le.mpr below)⟩
  | succ left ih =>
    rw [scan, ← added] at scanned
    have next := chosen.next fits (by omega)
    have isEnd := ends_iff fits (show ptr ≤ numRtt by omega)
    split at scanned
    · rename_i ends
      subst scanned
      exact ⟨by rwa [Nat.min_eq_left (by omega)], fun _ => isEnd.mp ends,
        fun other above below => absurd above (Nat.not_le.mpr below)⟩
    · rename_i goesOn
      obtain ⟨last, stops, before⟩ := ih (by omega) next scanned
      refine ⟨last, stops, fun other above below => ?_⟩
      rcases Nat.eq_or_lt_of_le above with rfl | later
      · exact fun ends => goesOn (isEnd.mpr ends)
      · exact before other later below

end

def twoBuckets (first second : Nat) : Nat → Nat
  | 0 => first
  | 1 => second
  | _ => 0

theorem twoBuckets_cumulative (first second bucket : Nat) :
    cumulative (twoBuckets first second) (bucket + 1) = first + second := by
  induction bucket with
  | zero => simp [cumulative, Finset.sum_range_succ, twoBuckets]
  | succ bucket ih =>
    rw [cumulative, Finset.sum_range_succ, ← cumulative, ih]
    rfl

end Mcc.Percentile
