import Mcc.IntervalList
import Mcc.RingBufferCore

/-!
Reassembly theorems for `RingBufferCore.lean`. The fragment list refines a list of
separated intervals of stream positions, and a run of puts and removes keeps the buffer
equal to the stream on every interval.
-/

namespace Mcc.RingBuffer

open SerialNumber IntervalList

theorem half_toNat : (MAXSEQ / 2).toNat = 2 ^ 31 - 1 := by
  decide

section

variable (base : UInt32)

theorem getSeq_plus {first second : Nat} (above : first < second + 2 ^ 31)
    (below : second < first + 2 ^ 31) :
    getMinSeq (plus base first) (plus base second) = plus base (min first second) ∧
      getMaxSeq (plus base first) (plus base second) = plus base (max first second) := by
  have firstValue := toNat_plus base first
  have secondValue := toNat_plus base second
  simp only [getMinSeq, getMaxSeq, UInt32.lt_iff_toNat_lt, UInt32.le_iff_toNat_le, UInt32.toNat_sub,
    half_toNat, ← UInt32.toNat_inj]
  rcases Nat.le_total first second with order | order
  · rw [Nat.min_eq_left order, Nat.max_eq_right order]
    constructor <;> split_ifs <;> omega
  · rw [Nat.min_eq_right order, Nat.max_eq_left order]
    constructor <;> split_ifs <;> omega

theorem getMinSeq_beq {first second which : Nat} (above : first < second + 2 ^ 31)
    (below : second < first + 2 ^ 31) (is : which = first ∨ which = second) :
    (getMinSeq (plus base first) (plus base second) == plus base which) =
      decide (min first second = which) := by
  rw [(getSeq_plus base above below).1, Bool.eq_iff_iff, beq_iff_eq, decide_eq_true_eq,
    plus_inj base (by omega) (by omega)]

def fragment (base : UInt32) (interval : Interval) : FragmentCtx where
  seq := plus base interval.start
  len := UInt32.ofNat (interval.stop - interval.start)

def InWindow (low : Nat) (interval : Interval) : Prop :=
  low ≤ interval.start ∧ interval.stop ≤ low + (2 ^ 31 - 4)

theorem fragment_end (interval : Interval) :
    (fragment base interval).seq + (fragment base interval).len = plus base interval.stop := by
  have nonempty := interval.nonempty
  simp only [fragment]
  apply UInt32.toNat_inj.mp
  simp only [UInt32.toNat_add, toNat_plus, UInt32.toNat_ofNat']
  omega

variable {low : Nat}

theorem fragment_len {interval : Interval} (window : InWindow low interval) :
    (fragment base interval).len.toNat = interval.stop - interval.start := by
  simp only [InWindow] at window
  simp only [fragment, UInt32.toNat_ofNat']
  omega

theorem plus_succ (offset : Nat) : plus base offset + 1 = plus base (offset + 1) := by
  apply UInt32.toNat_inj.mp
  simp only [UInt32.toNat_add, toNat_plus, UInt32.toNat_one]
  omega

variable {first second : Interval}

section

variable (firstWindow : InWindow low first)
include firstWindow

section

variable (secondWindow : InWindow low second)
include secondWindow

theorem canMerge_fragment :
    canMerge (fragment base first) (fragment base second) = decide (Touches first second) := by
  have firstNonempty := first.nonempty
  have secondNonempty := second.nonempty
  simp only [InWindow] at firstWindow secondWindow
  have firstMin : (getMinSeq (plus base (first.stop + 1)) (plus base second.start) ==
      plus base (first.stop + 1)) = decide (first.stop < second.start) := by
    rw [getMinSeq_beq base (by omega) (by omega) (.inl rfl), decide_eq_decide]
    omega
  have secondMin : (getMinSeq (plus base (second.stop + 1)) (plus base first.start) ==
      plus base (second.stop + 1)) = decide (second.stop < first.start) := by
    rw [getMinSeq_beq base (by omega) (by omega) (.inl rfl), decide_eq_decide]
    omega
  have firstStart : (fragment base first).seq = plus base first.start := rfl
  have secondStart : (fragment base second).seq = plus base second.start := rfl
  simp only [canMerge, fragment_end, plus_succ]
  rw [firstStart, secondStart, firstMin, secondMin, Bool.eq_iff_iff, decide_eq_true_eq]
  simp only [Bool.not_or, Bool.and_eq_true, Bool.not_eq_true', decide_eq_false_iff_not, Touches]
  omega

theorem mergeFragments_fragment : mergeFragments (fragment base first) (fragment base second) =
      fragment base (hull first second) := by
  have firstNonempty := first.nonempty
  have secondNonempty := second.nonempty
  simp only [InWindow] at firstWindow secondWindow
  have minimum : getMinSeq (fragment base first).seq (fragment base second).seq =
      plus base (min first.start second.start) :=
    (getSeq_plus base (by omega) (by omega)).1
  have maximum : getMaxSeq ((fragment base first).seq + (fragment base first).len)
      ((fragment base second).seq + (fragment base second).len) =
      plus base (max first.stop second.stop) := by
    rw [fragment_end, fragment_end]
    exact (getSeq_plus base (by omega) (by omega)).2
  simp only [mergeFragments, minimum, maximum]
  rw [plus_sub_plus base (by omega)]
  simp only [fragment, hull, FragmentCtx.mk.injEq, true_and]
  apply UInt32.toNat_inj.mp
  simp only [field31, UInt32.toNat_mod, UInt32.toNat_ofNat', UInt32.reduceToNat]
  omega

theorem InWindow.hull : InWindow low (IntervalList.hull first second) := by
  simp only [InWindow, IntervalList.hull] at *
  omega

end

end

theorem mergeLoop_merged (base curSeq len : UInt32) (before : List FragmentCtx) :
    ∀ (added : Interval) (intervals : List Interval), InWindow low added →
      (∀ interval ∈ intervals, InWindow low interval) →
      (∀ interval ∈ intervals, added.start ≤ interval.start) →
      ∃ joined rest, absorb added intervals = joined :: rest ∧
        mergeLoop curSeq len (intervals.map (fragment base))
          { before := fragment base added :: before, newCtx := fragment base added, merged := true } =
        ({ before := fragment base joined :: before, newCtx := fragment base joined, merged := true },
          rest.map (fragment base)) := by
  intro added intervals
  induction intervals generalizing added with
  | nil =>
    intro _ _ _
    exact ⟨added, [], rfl, rfl⟩
  | cons first rest ih =>
    intro addedWindow windows after
    have firstWindow := windows first (by simp)
    have firstAfter := after first (by simp)
    have firstNonempty := first.nonempty
    have merge := canMerge_fragment base addedWindow firstWindow
    by_cases touch : Touches added first
    · obtain ⟨joined, remaining, inserted, looped⟩ := ih (hull added first)
        (addedWindow.hull firstWindow) (fun interval member => windows interval (by simp [member]))
        (fun interval member => by
          have := after interval (by simp [member])
          simp only [IntervalList.hull]
          omega)
      refine ⟨joined, remaining, ?_, ?_⟩
      · simp only [Touches] at touch
        rw [absorb, if_neg (by omega), if_neg (by omega)]
        exact inserted
      · rw [← looped, List.map_cons, mergeLoop]
        simp [merge, touch, mergeFragments_fragment base addedWindow firstWindow]
    · refine ⟨added, first :: rest, ?_, ?_⟩
      · simp only [Touches] at touch
        rw [absorb, if_pos (by omega)]
      · rw [List.map_cons, mergeLoop]
        simp [merge, touch]

def Placed (base : UInt32) (added : Interval) (intervals : List Interval)
    (before : List FragmentCtx) (state : MergeState) (iter : List FragmentCtx) : Prop :=
  (state.merged = true ∧
    state.before.reverse ++ iter = before.reverse ++ (absorb added intervals).map (fragment base)) ∨
  (state.merged = false ∧ ∃ passed rest, intervals = passed ++ rest ∧
    state.before = (passed.map (fragment base)).reverse ++ before ∧
    iter = rest.map (fragment base) ∧ absorb added intervals = passed ++ added :: rest ∧
    (∀ interval ∈ passed, interval.stop < added.start) ∧
    (∀ interval ∈ rest, added.stop < interval.start))

theorem mergeLoop_placed {added : Interval} (addedWindow : InWindow low added)
    (len : UInt32) (ends : plus base added.start + len = plus base added.stop) :
    ∀ (intervals : List Interval) (before : List FragmentCtx),
      (∀ interval ∈ intervals, InWindow low interval) → Separated intervals →
      ∃ state iter, mergeLoop (plus base added.start) len (intervals.map (fragment base))
          { before, newCtx := fragment base added, merged := false } = (state, iter) ∧
        Placed base added intervals before state iter := by
  intro intervals
  induction intervals with
  | nil =>
    intro before _ _
    exact ⟨_, _, rfl, Or.inr ⟨rfl, [], [], rfl, rfl, rfl, rfl, by simp, by simp⟩⟩
  | cons first rest ih =>
    intro before windows separated
    obtain ⟨gaps, restSeparated⟩ := List.pairwise_cons.mp separated
    have firstWindow := windows first (by simp)
    have restWindows : ∀ interval ∈ rest, InWindow low interval :=
      fun interval member => windows interval (by simp [member])
    have addedNonempty := added.nonempty
    have firstNonempty := first.nonempty
    have merge := canMerge_fragment base addedWindow firstWindow
    have maximum : (getMaxSeq (plus base added.start + len) (fragment base first).seq ==
        (fragment base first).seq) = decide (added.stop ≤ first.start) := by
      have firstStart : (fragment base first).seq = plus base first.start := rfl
      simp only [InWindow] at addedWindow firstWindow
      rw [ends, firstStart, (getSeq_plus base (by omega) (by omega)).2, Bool.eq_iff_iff, beq_iff_eq,
        decide_eq_true_eq, plus_inj base (by omega) (by omega)]
      omega
    rw [List.map_cons, mergeLoop]
    by_cases touch : Touches added first
    · obtain ⟨joined, remaining, absorbed, looped⟩ :=
        mergeLoop_merged base (plus base added.start) len before (hull added first) rest
          (addedWindow.hull firstWindow) restWindows (fun interval member => by
            have gap := gaps interval member
            simp only [IntervalList.hull]
            omega)
      simp only [merge, touch, decide_true, if_true, Bool.false_eq_true, if_false,
        mergeFragments_fragment base addedWindow firstWindow]
      refine ⟨_, _, looped, Or.inl ⟨rfl, ?_⟩⟩
      have whole : absorb added (first :: rest) = joined :: remaining := by
        simp only [Touches] at touch
        rw [absorb, if_neg (by omega), if_neg (by omega)]
        exact absorbed
      simp [whole]
    · by_cases gap : added.stop ≤ first.start
      · have strict : added.stop < first.start := by
          simp only [Touches] at touch
          omega
        simp only [merge, touch, maximum, gap, decide_true, decide_false, Bool.false_eq_true,
          if_false, Bool.or_true, if_true]
        refine ⟨_, _, rfl, Or.inr ⟨rfl, [], first :: rest, rfl, rfl, rfl, ?_, by simp, ?_⟩⟩
        · rw [absorb, if_pos strict]
          rfl
        · simp only [List.mem_cons]
          rintro interval (rfl | member)
          · exact strict
          · exact Nat.lt_trans strict (Nat.lt_trans firstNonempty (gaps interval member))
      · have passes : first.stop < added.start := by
          simp only [Touches] at touch
          omega
        simp only [merge, touch, maximum, gap, decide_false, Bool.false_eq_true, if_false, Bool.or_false]
        obtain ⟨state, iter, looped, placed⟩ :=
          ih (fragment base first :: before) restWindows restSeparated
        have whole : absorb added (first :: rest) = first :: absorb added rest := by
          rw [absorb, if_neg (by omega), if_pos passes]
        refine ⟨state, iter, looped, ?_⟩
        rcases placed with ⟨merged, joined⟩ | ⟨unmerged, passed, remaining, split, walked, stopped,
          absorbed, below, beyond⟩
        · refine Or.inl ⟨merged, ?_⟩
          rw [joined, whole]
          simp
        · refine Or.inr ⟨unmerged, first :: passed, remaining, by rw [split]; rfl, ?_, stopped, ?_, ?_,
            beyond⟩
          · rw [walked]
            simp
          · rw [whole, absorbed]
            rfl
          · simp only [List.mem_cons]
            rintro interval (rfl | member)
            · exact passes
            · exact below interval member

theorem minimum_start (firstWindow : InWindow low first) (secondWindow : InWindow low second) :
    (getMinSeq (plus base first.start) (fragment base second).seq == plus base first.start) =
      decide (first.start ≤ second.start) := by
  have firstNonempty := first.nonempty
  have secondNonempty := second.nonempty
  have secondStart : (fragment base second).seq = plus base second.start := rfl
  simp only [InWindow] at firstWindow secondWindow
  rw [secondStart, getMinSeq_beq base (by omega) (by omega) (.inl rfl), decide_eq_decide]
  omega

theorem minimum_stop (firstWindow : InWindow low first) (secondWindow : InWindow low second) :
    (getMinSeq (plus base first.start) ((fragment base second).seq + (fragment base second).len) ==
      (fragment base second).seq + (fragment base second).len) =
      decide (second.stop ≤ first.start) := by
  have firstNonempty := first.nonempty
  have secondNonempty := second.nonempty
  simp only [InWindow] at firstWindow secondWindow
  rw [fragment_end, getMinSeq_beq base (by omega) (by omega) (.inr rfl), decide_eq_decide]
  omega

theorem insertFragment_between {added : Interval} (addedWindow : InWindow low added)
    (passed rest : List Interval) (windows : ∀ interval ∈ passed ++ rest, InWindow low interval)
    (below : ∀ interval ∈ passed, interval.stop < added.start)
    (beyond : ∀ interval ∈ rest, added.stop < interval.start) :
    insertFragment (plus base added.start) (fragment base added)
        ((passed ++ rest).map (fragment base)) (passed.map (fragment base)).reverse
        (rest.map (fragment base)) =
      .ok ((passed ++ added :: rest).map (fragment base)) := by
  have nonempty := added.nonempty
  cases passed with
  | nil =>
    cases rest with
    | nil => rfl
    | cons first rest =>
      have front := minimum_start base addedWindow (windows first (by simp))
      have gap := beyond first (by simp)
      rw [decide_eq_true (by omega)] at front
      simp [insertFragment, front]
  | cons first passed =>
    have later := minimum_start base addedWindow (windows first (by simp))
    have firstBelow := below first (by simp)
    have firstNonempty := first.nonempty
    rw [decide_eq_false (by omega)] at later
    obtain ⟨front, prev, last⟩ : ∃ front prev, first :: passed = front ++ [prev] :=
      ⟨_, _, (List.dropLast_append_getLast (List.cons_ne_nil first passed)).symm⟩
    have walked : ((first :: passed).map (fragment base)).reverse =
        fragment base prev :: (front.map (fragment base)).reverse := by
      rw [last]
      simp
    have prevWindow := windows prev (by rw [last]; simp)
    have prevBelow := below prev (by rw [last]; simp)
    have holds := minimum_stop base addedWindow prevWindow
    rw [decide_eq_true (by omega)] at holds
    have joined : (first :: passed ++ added :: rest).map (fragment base) =
        (fragment base prev :: (front.map (fragment base)).reverse).reverse ++
          fragment base added :: rest.map (fragment base) := by
      rw [last]
      simp
    rw [walked, joined]
    simp only [insertFragment, List.cons_append, List.map_cons, later, Bool.false_eq_true, if_false,
      holds, if_true]

theorem placeFragment_absorb {added : Interval} (addedWindow : InWindow low added)
    (intervals : List Interval) (windows : ∀ interval ∈ intervals, InWindow low interval)
    (separated : Separated intervals) :
    placeFragment (intervals.map (fragment base)) (plus base added.start)
        (UInt32.ofNat (added.stop - added.start)) =
      .ok ((absorb added intervals).map (fragment base)) := by
  have ends : plus base added.start + UInt32.ofNat (added.stop - added.start) =
      plus base added.stop := fragment_end base added
  have newCtx : ({ seq := plus base added.start
                   len := field31 (UInt32.ofNat (added.stop - added.start)) } : FragmentCtx) =
      fragment base added := by
    simp only [InWindow] at addedWindow
    simp only [fragment, FragmentCtx.mk.injEq, true_and]
    apply UInt32.toNat_inj.mp
    simp only [field31, UInt32.toNat_mod, UInt32.toNat_ofNat', UInt32.reduceToNat]
    omega
  obtain ⟨state, iter, looped, placed⟩ :=
    mergeLoop_placed base addedWindow _ ends intervals [] windows separated
  simp only [placeFragment, newCtx, looped]
  rcases placed with ⟨merged, joined⟩ | ⟨unmerged, passed, rest, split, walked, stopped, absorbed,
    below, beyond⟩
  · simp [merged, joined]
  · subst split
    rw [absorbed, unmerged, walked, stopped, List.append_nil]
    simp only [Bool.false_eq_true, if_false]
    exact insertFragment_between base addedWindow passed rest windows below beyond

end

end Mcc.RingBuffer
