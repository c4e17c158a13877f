import Mcc.RingBuffer

/-!
Runs of `RBPut` and `RBRemove` against a fixed byte stream. Every put carries a slice of the
stream at its true sequence number; the buffer then holds exactly what it accepted.
-/

namespace Mcc.RingBuffer

open SerialNumber IntervalList
open UInt32 (toNat_add toNat_ofNat' toNat_sub toNat_zero)

def slice (stream : Nat → UInt8) (position count : Nat) : List UInt8 :=
  (List.range count).map fun index => stream (position + index)

inductive Call where
  | put (position count : Nat)
  | remove (count : Nat)
  deriving Repr, DecidableEq

structure Session where
  buff : TcpRingBuffer
  removed : Nat
  accepted : List (Nat × Nat)

open Session

def Session.call (stream : Nat → UInt8) (initSeq : UInt32) (session : Session) :
    Call → Except Fault Session
  | .put position count => do
      let (buff, returned) ← rbPut session.buff (slice stream position count)
        (UInt32.ofNat count) (plus initSeq position)
      return { session with
        buff
        accepted := if 0 < returned then (position, count) :: session.accepted else session.accepted }
  | .remove count => do
      let (buff, returned) ← rbRemove session.buff count
      return { session with buff, removed := session.removed + returned }

def Session.run (stream : Nat → UInt8) (initSeq : UInt32) (session : Session) :
    List Call → Except Fault Session
  | [] => .ok session
  | first :: rest => do
      let next ← session.call stream initSeq first
      next.run stream initSeq rest

def Session.Held (session : Session) (position : Nat) : Prop :=
  session.removed ≤ position ∧
    ∃ taken ∈ session.accepted, taken.1 ≤ position ∧ position < taken.1 + taken.2

def Session.Near (session : Session) : Call → Prop
  | .put position count =>
    session.removed < position + 2 ^ 31 ∧ position + count < session.removed + 2 ^ 31
  | .remove _ => True

variable {session : Session} {position count : Nat}

theorem near_of_span (rbm : RBManager) (behind : session.removed ≤ position + rbm.chunkSize)
    (ahead : position + count ≤ session.removed + rbm.chunkSize) :
    session.Near (.put position count) := by
  have bounded := rbm.bounded
  constructor <;> omega

def Session.AllNear (stream : Nat → UInt8) (initSeq : UInt32) (session : Session) :
    List Call → Prop
  | [] => True
  | first :: rest => session.Near first ∧
      ∀ next, session.call stream initSeq first = .ok next → next.AllNear stream initSeq rest

def leading (low : Nat) : List Interval → Nat
  | [] => 0
  | first :: _ => if first.start = low then first.stop - first.start else 0

variable {low : Nat} {intervals : List Interval}

theorem leading_covered : ∀ index < leading low intervals, Covered intervals (low + index) := by
  intro index bound
  cases intervals with
  | nil => simp [leading] at bound
  | cons first rest =>
    simp only [leading] at bound
    split at bound
    · rename_i starts
      exact ⟨first, by simp, by simp only [Interval.Holds]; omega⟩
    · omega

theorem leading_stops (separated : Separated intervals)
    (lower : ∀ interval ∈ intervals, low ≤ interval.start) :
    ¬Covered intervals (low + leading low intervals) := by
  rintro ⟨interval, member, holds⟩
  cases intervals with
  | nil => simp at member
  | cons first rest =>
    have firstLower := lower first (by simp)
    have nonempty := first.nonempty
    obtain ⟨gaps, _⟩ := List.pairwise_cons.mp separated
    simp only [Interval.Holds, leading] at holds
    rcases List.mem_cons.mp member with same | later
    · subst same
      split at holds <;> omega
    · have gap := gaps interval later
      split at holds <;> omega

theorem leading_eq_zero (separated : Separated intervals)
    (lower : ∀ interval ∈ intervals, low ≤ interval.start) :
    leading low intervals = 0 ↔ ¬Covered intervals low := by
  constructor
  · intro zero
    have stops := leading_stops separated lower
    rwa [zero, Nat.add_zero] at stops
  · intro uncovered
    by_contra positive
    exact uncovered (leading_covered 0 (by omega))

structure Stored (capacity : Nat) (stream : Nat → UInt8) (removed : Nat) (buff : TcpRingBuffer)
    (intervals : List Interval) : Prop where
  size : buff.size = capacity
  length : buff.data.length = capacity
  head : buff.head = buff.headOffset.toNat
  order : buff.headOffset.toNat ≤ buff.tailOffset.toNat
  inside : buff.tailOffset.toNat ≤ capacity
  lastLen : buff.lastLen = (buff.tailOffset.toNat : Int) - buff.headOffset.toNat
  lower : ∀ interval ∈ intervals, removed ≤ interval.start
  upper : ∀ interval ∈ intervals,
    interval.stop ≤ removed + (buff.tailOffset.toNat - buff.headOffset.toNat)
  bytes : ∀ position, Covered intervals position →
    buff.data[buff.head + (position - removed)]? = some (stream position)

def bookkeeping (buff : TcpRingBuffer) : List FragmentCtx × UInt32 × Nat × UInt64 :=
  (buff.fctx, buff.headSeq, buff.mergedLen, buff.cumLen)

variable {removed : Nat} {stream : Nat → UInt8} {buff : TcpRingBuffer}

theorem Stored.bounds {capacity : Nat} (stored : Stored capacity stream removed buff intervals)
    (covered : Covered intervals position) :
    removed ≤ position ∧ position < removed + (buff.tailOffset.toNat - buff.headOffset.toNat) := by
  obtain ⟨interval, member, holds⟩ := covered
  have lower := stored.lower interval member
  have upper := stored.upper interval member
  simp only [Interval.Holds] at holds
  omega

theorem compact_stored (rbm : RBManager)
    (stored : Stored rbm.chunkSize stream removed buff intervals) {endOff : UInt32}
    (fits : endOff.toNat ≤ rbm.chunkSize) :
    ∃ moved, compact buff endOff = .ok moved ∧ Stored rbm.chunkSize stream removed moved intervals ∧
      moved.headOffset.toNat + endOff.toNat ≤ rbm.chunkSize ∧
      bookkeeping moved = bookkeeping buff := by
  have bounded := rbm.bounded
  have order := stored.order
  have inside := stored.inside
  have sizeWord : (UInt32.ofInt buff.size).toNat = rbm.chunkSize := by
    simp only [stored.size, UInt32.ofInt, toNat_ofNat']
    omega
  have sum : (buff.headOffset + endOff).toNat = buff.headOffset.toNat + endOff.toNat := by
    rw [toNat_add]
    omega
  simp only [compact, UInt32.le_iff_toNat_le, sizeWord, sum]
  split
  · have count : sizeT buff.lastLen = buff.tailOffset.toNat - buff.headOffset.toNat := by
      simp only [sizeT, stored.lastLen]
      omega
    have supply : buff.tailOffset.toNat - buff.headOffset.toNat ≤ (buff.data.drop buff.head).length := by
      rw [List.length_drop, stored.length, stored.head]
      omega
    have room : 0 + (buff.tailOffset.toNat - buff.headOffset.toNat) ≤ buff.data.length := by
      rw [stored.length]
      omega
    have moves : memmove buff.data 0 buff.head (sizeT buff.lastLen) =
        .ok (buff.data.take 0 ++ (buff.data.drop buff.head).take
          (buff.tailOffset.toNat - buff.headOffset.toNat) ++
          buff.data.drop (0 + (buff.tailOffset.toNat - buff.headOffset.toNat))) := by
      rw [memmove, count, if_pos ⟨by omega, by rw [stored.length, stored.head]; omega⟩]
      exact memcpy_ok room supply
    rw [moves]
    refine ⟨_, rfl, ?_, ?_, rfl⟩
    · have tail : (buff.tailOffset - buff.headOffset).toNat =
          buff.tailOffset.toNat - buff.headOffset.toNat := by
        rw [toNat_sub]
        have bound := buff.tailOffset.toNat_lt
        omega
      constructor
      · exact stored.size
      · simp only []
        rw [length_copied room supply, stored.length]
      · rfl
      · simp only [toNat_zero]
        omega
      · simp only [tail]
        omega
      · simp only [stored.lastLen, tail, toNat_zero]
        omega
      · exact stored.lower
      · simp only [tail, toNat_zero, Nat.sub_zero]
        exact stored.upper
      · intro position covered
        have bounds := stored.bounds covered
        simp only [Nat.zero_add]
        have copied := getElem?_copied room supply (position - removed)
        simp only [Nat.zero_add] at copied
        rw [copied, if_pos (by omega), Nat.sub_zero, List.getElem?_drop]
        exact stored.bytes position covered
    · simp only [toNat_zero]
      omega
  · exact ⟨buff, rfl, stored, by omega, rfl⟩

theorem length_slice (stream : Nat → UInt8) (position count : Nat) :
    (slice stream position count).length = count := by
  simp [slice]

theorem getElem?_slice (stream : Nat → UInt8) (position : Nat) {index : Nat} (bound : index < count) :
    (slice stream position count)[index]? = some (stream (position + index)) := by
  simp [slice, bound]

theorem copyIn_stored (rbm : RBManager)
    (stored : Stored rbm.chunkSize stream removed buff intervals) {added : Interval}
    (lower : removed ≤ added.start) {endOff : UInt32} (ends : endOff.toNat = added.stop - removed)
    (fits : buff.headOffset.toNat + endOff.toNat ≤ rbm.chunkSize) :
    ∃ copied, copyIn buff (slice stream added.start (added.stop - added.start))
        (UInt32.ofNat (added.stop - added.start)) ((added.start - removed : Nat) : Int) endOff =
          .ok copied ∧
      Stored rbm.chunkSize stream removed copied (absorb added intervals) ∧
      bookkeeping copied = bookkeeping buff := by
  have bounded := rbm.bounded
  have nonempty := added.nonempty
  have order := stored.order
  have inside := stored.inside
  have sum : (buff.headOffset + endOff).toNat = buff.headOffset.toNat + endOff.toNat := by
    rw [toNat_add]
    omega
  have len : (UInt32.ofNat (added.stop - added.start)).toNat = added.stop - added.start := by
    rw [toNat_ofNat']
    omega
  have room : (buff.head + (added.start - removed)) + (added.stop - added.start) ≤ buff.data.length := by
    rw [stored.length, stored.head]
    omega
  have supply : added.stop - added.start ≤
      (slice stream added.start (added.stop - added.start)).length := by
    rw [length_slice]
  have target : (buff.head : Int) + ((added.start - removed : Nat) : Int) =
      ((buff.head + (added.start - removed) : Nat) : Int) := by omega
  simp only [copyIn, len, target, memcpy_ok room supply]
  refine ⟨_, rfl, ?_, rfl⟩
  generalize tailEq : (if buff.tailOffset < buff.headOffset + endOff then
    buff.headOffset + endOff else buff.tailOffset) = tail
  have tailValue : tail.toNat = max buff.tailOffset.toNat (buff.headOffset.toNat + endOff.toNat) := by
    rw [← tailEq]
    simp only [UInt32.lt_iff_toNat_lt, sum]
    split <;> omega
  constructor
  · exact stored.size
  · simp only []
    rw [length_copied room supply, stored.length]
  · exact stored.head
  · simp only [tailValue]
    omega
  · simp only [tailValue]
    omega
  · simp only [signed, toNat_sub, tailValue]
    split <;> omega
  · exact lower_absorb removed added intervals lower stored.lower
  · simp only [tailValue]
    apply upper_absorb _ added intervals (by omega)
    intro interval member
    have upper := stored.upper interval member
    omega
  · intro position covered
    simp only []
    rw [getElem?_copied room supply]
    rcases (covered_absorb added intervals position).mp covered with fresh | old
    · simp only [Interval.Holds] at fresh
      rw [if_pos (by omega), getElem?_slice stream added.start (by omega)]
      congr 2
      omega
    · have bounds := stored.bounds old
      split
      · rw [getElem?_slice stream added.start (by omega)]
        congr 2
        omega
      · exact stored.bytes position old

structure Consistent (rbm : RBManager) (stream : Nat → UInt8) (initSeq : UInt32)
    (session : Session) (intervals : List Interval) : Prop where
  stored : Stored rbm.chunkSize stream session.removed session.buff intervals
  headSeq : session.buff.headSeq = plus initSeq session.removed
  fctx : session.buff.fctx = intervals.map (fragment initSeq)
  separated : Separated intervals
  held : ∀ position, session.Held position ↔ Covered intervals position
  mergedLen : session.buff.mergedLen = leading session.removed intervals
  cumLen : session.buff.cumLen = UInt64.ofNat (session.removed + session.buff.mergedLen)

variable {rbm : RBManager} {initSeq : UInt32}

theorem Consistent.window (consistent : Consistent rbm stream initSeq session intervals) :
    ∀ interval ∈ intervals, InWindow session.removed interval := by
  intro interval member
  have lower := consistent.stored.lower interval member
  have upper := consistent.stored.upper interval member
  have inside := consistent.stored.inside
  have bounded := rbm.bounded
  simp only [InWindow]
  omega

theorem initial_consistent (rbm : RBManager) (stream : Nat → UInt8) (initSeq : UInt32)
    (data : List UInt8) (chunk : data.length = rbm.chunkSize) :
    Consistent rbm stream initSeq
      { buff := rbInit rbm data initSeq, removed := 0, accepted := [] } [] where
  stored := {
    size := rfl
    length := chunk
    head := rfl
    order := by simp [rbInit]
    inside := by simp [rbInit]
    lastLen := by simp [rbInit]
    lower := by simp
    upper := by simp
    bytes := by simp [Covered]
  }
  headSeq := by simp [rbInit]
  fctx := rfl
  separated := List.Pairwise.nil
  held := by simp [Held, Covered]
  mergedLen := rfl
  cumLen := rfl

theorem headSeq_eq_fragment (initSeq : UInt32) {interval : Interval}
    (window : InWindow removed interval) :
    plus initSeq removed = (fragment initSeq interval).seq ↔ interval.start = removed := by
  have nonempty := interval.nonempty
  have start : (fragment initSeq interval).seq = plus initSeq interval.start := rfl
  simp only [InWindow] at window
  rw [start, plus_inj initSeq (by omega) (by omega)]
  exact eq_comm

theorem absorb_ne_nil (added : Interval) (intervals : List Interval) : absorb added intervals ≠ [] := by
  intro empty
  have covered := (covered_absorb added intervals added.start).mpr
    (Or.inl ⟨Nat.le_refl _, added.nonempty⟩)
  rw [empty] at covered
  simp [Covered] at covered

theorem linkFragment_leading (initSeq : UInt32) {added : Interval}
    (fctx : buff.fctx = intervals.map (fragment initSeq))
    (headSeq : buff.headSeq = plus initSeq removed) (separated : Separated intervals)
    (windows : ∀ interval ∈ intervals, InWindow removed interval)
    (addedWindow : InWindow removed added) (mergedLen : buff.mergedLen = leading removed intervals)
    (cumLen : buff.cumLen = UInt64.ofNat (removed + buff.mergedLen)) :
    linkFragment buff (plus initSeq added.start) (UInt32.ofNat (added.stop - added.start)) =
      .ok { buff with
        fctx := (absorb added intervals).map (fragment initSeq)
        mergedLen := leading removed (absorb added intervals)
        cumLen := UInt64.ofNat (removed + leading removed (absorb added intervals)) } := by
  have placed := placeFragment_absorb initSeq addedWindow intervals windows separated
  have newWindows : ∀ interval ∈ absorb added intervals, InWindow removed interval :=
    all_absorb (fun _ _ => InWindow.hull) added intervals addedWindow windows
  have newSeparated := separated_absorb added intervals separated
  have lower : ∀ interval ∈ intervals, removed ≤ interval.start :=
    fun interval member => (windows interval member).1
  have newLower : ∀ interval ∈ absorb added intervals, removed ≤ interval.start :=
    fun interval member => (newWindows interval member).1
  have kept : leading removed (absorb added intervals) = 0 → leading removed intervals = 0 := by
    rw [leading_eq_zero newSeparated newLower, leading_eq_zero separated lower]
    exact fun uncovered covered => uncovered ((covered_absorb added intervals removed).mpr (Or.inr covered))
  simp only [linkFragment, fctx, placed]
  generalize resultEq : absorb added intervals = result at *
  cases result with
  | nil => exact absurd resultEq (absorb_ne_nil added intervals)
  | cons first rest =>
    have firstWindow := newWindows first (by simp)
    have starts := headSeq_eq_fragment initSeq firstWindow
    have len := fragment_len initSeq firstWindow
    by_cases atHead : first.start = removed
    · have run : leading removed (first :: rest) = first.stop - first.start := by
        simp [leading, atHead]
      have sum : buff.cumLen + UInt64.ofInt (((first.stop - first.start : Nat) : Int) - buff.mergedLen) =
          UInt64.ofNat (removed + (first.stop - first.start)) := by
        rw [cumLen]
        apply UInt64.toNat_inj.mp
        simp only [UInt64.toNat_add, UInt64.toNat_ofNat', UInt64.ofInt]
        omega
      simp only [bind, Except.bind, List.map_cons, headSeq, starts.mpr atHead, if_true, run, sum, len]
      rfl
    · have run : leading removed (first :: rest) = 0 := by
        simp [leading, atHead]
      have old : buff.mergedLen = 0 := by
        rw [mergedLen]
        exact kept run
      have notHead : ¬plus initSeq removed = (fragment initSeq first).seq :=
        fun same => atHead (starts.mp same)
      simp only [bind, Except.bind, List.map_cons, headSeq, notHead, if_false, run, Nat.add_zero]
      rw [old, Nat.add_zero] at cumLen
      simp only [← old, ← cumLen]
      rfl

theorem ofNat_ne_zero (count : Nat) (positive : 0 < count) (small : count < 2 ^ 32) :
    UInt32.ofNat count ≠ 0 := by
  intro zero
  have value := congrArg UInt32.toNat zero
  simp only [toNat_ofNat', toNat_zero] at value
  omega

section

variable (consistent : Consistent rbm stream initSeq session intervals)
include consistent

theorem rbPut_refused (near : session.Near (.put position count))
    (refused : count = 0 ∨ position < session.removed ∨
      session.removed + rbm.chunkSize < position + count) :
    ∃ returned ≤ 0, rbPut session.buff (slice stream position count) (UInt32.ofNat count)
      (plus initSeq position) = .ok (session.buff, returned) := by
  obtain ⟨notOld, notFar⟩ := near
  by_cases empty : count = 0
  · subst empty
    exact ⟨0, by omega, rfl⟩
  have nonzero := ofNat_ne_zero count (by omega) (by omega)
  have minimum : getMinSeq session.buff.headSeq (plus initSeq position) =
      plus initSeq (min session.removed position) := by
    rw [consistent.headSeq]
    exact (getSeq_plus initSeq (by omega) (by omega)).1
  by_cases old : position < session.removed
  · refine ⟨0, by omega, ?_⟩
    have behind : plus initSeq (min session.removed position) ≠ session.buff.headSeq := by
      rw [consistent.headSeq, ne_eq, plus_inj initSeq (by omega) (by omega)]
      omega
    simp only [rbPut, nonzero, if_false, minimum, ne_eq, behind, not_false_eq_true, if_true]
    rfl
  · refine ⟨-2, by omega, ?_⟩
    have ahead : plus initSeq (min session.removed position) = session.buff.headSeq := by
      rw [consistent.headSeq, Nat.min_eq_left (by omega)]
    have distance := toNat_plus_sub_plus initSeq (Nat.not_lt.mp old) (by omega)
    have full : session.buff.size <
        signed (plus initSeq position - session.buff.headSeq + UInt32.ofNat count) := by
      rw [consistent.stored.size, signed, toNat_add, consistent.headSeq, distance,
        toNat_ofNat']
      split <;> omega
    simp only [rbPut, nonzero, if_false, minimum, ahead, ne_eq, not_true, full, if_true]
    rfl

theorem rbPut_accepted {added : Interval} (fresh : session.removed ≤ added.start)
    (room : added.stop ≤ session.removed + rbm.chunkSize) :
    ∃ buff, rbPut session.buff (slice stream added.start (added.stop - added.start))
        (UInt32.ofNat (added.stop - added.start)) (plus initSeq added.start) =
          .ok (buff, ((added.stop - added.start : Nat) : Int)) ∧
      Stored rbm.chunkSize stream session.removed buff (absorb added intervals) ∧
      bookkeeping buff = ((absorb added intervals).map (fragment initSeq), session.buff.headSeq,
        leading session.removed (absorb added intervals),
        UInt64.ofNat (session.removed + leading session.removed (absorb added intervals))) := by
  have bounded := rbm.bounded
  have nonempty := added.nonempty
  have nonzero := ofNat_ne_zero (added.stop - added.start) (by omega) (by omega)
  have addedWindow : InWindow session.removed added := ⟨fresh, by omega⟩
  have minimum : getMinSeq session.buff.headSeq (plus initSeq added.start) = session.buff.headSeq := by
    rw [consistent.headSeq, (getSeq_plus initSeq (by omega) (by omega)).1, Nat.min_eq_left fresh]
  have distance := toNat_plus_sub_plus initSeq fresh (by omega)
  have putx : signed (plus initSeq added.start - session.buff.headSeq) =
      ((added.start - session.removed : Nat) : Int) := by
    rw [consistent.headSeq, signed, distance, if_pos (by omega)]
  have countSigned : signed (UInt32.ofNat (added.stop - added.start)) =
      ((added.stop - added.start : Nat) : Int) := by
    rw [signed, toNat_ofNat', Nat.mod_eq_of_lt (by omega), if_pos (by omega)]
  have endValue : (plus initSeq added.start - session.buff.headSeq +
      UInt32.ofNat (added.stop - added.start)).toNat = added.stop - session.removed := by
    rw [toNat_add, consistent.headSeq, distance, toNat_ofNat']
    omega
  generalize endEq : plus initSeq added.start - session.buff.headSeq +
    UInt32.ofNat (added.stop - added.start) = endOff at *
  have notFull : ¬session.buff.size < signed endOff := by
    rw [consistent.stored.size, signed, endValue, if_pos (by omega)]
    omega
  obtain ⟨moved, compacted, movedStored, movedRoom, movedBook⟩ :=
    compact_stored rbm consistent.stored (show endOff.toNat ≤ rbm.chunkSize by omega)
  obtain ⟨copied, copies, copiedStored, copiedBook⟩ :=
    copyIn_stored rbm movedStored fresh endValue movedRoom
  rw [movedBook] at copiedBook
  simp only [bookkeeping, Prod.mk.injEq] at copiedBook
  obtain ⟨copiedFctx, copiedHead, copiedMerged, copiedCum⟩ := copiedBook
  have linked := linkFragment_leading initSeq
    (copiedFctx.trans consistent.fctx) (copiedHead.trans consistent.headSeq) consistent.separated
    consistent.window addedWindow (copiedMerged.trans consistent.mergedLen)
    (by rw [copiedCum, copiedMerged]; exact consistent.cumLen)
  refine ⟨{ copied with
    fctx := (absorb added intervals).map (fragment initSeq)
    mergedLen := leading session.removed (absorb added intervals)
    cumLen := UInt64.ofNat (session.removed + leading session.removed (absorb added intervals)) },
    ?_, ?_, ?_⟩
  · simp only [rbPut, bind, Except.bind, nonzero, if_false, minimum, ne_eq, not_true, endEq, notFull,
      putx, compacted, copies, linked, countSigned]
    rfl
  · exact { copiedStored with }
  · simp only [bookkeeping, copiedHead]

theorem put_consistent (near : session.Near (.put position count)) :
    ∃ next nextIntervals, session.call stream initSeq (.put position count) = .ok next ∧
      Consistent rbm stream initSeq next nextIntervals := by
  by_cases refused : count = 0 ∨ position < session.removed ∨
      session.removed + rbm.chunkSize < position + count
  · obtain ⟨returned, bound, put⟩ := rbPut_refused consistent near refused
    refine ⟨session, intervals, ?_, consistent⟩
    simp only [call, put, bind, Except.bind, if_neg (by omega : ¬0 < returned)]
    rfl
  · have fresh : session.removed ≤ position := by omega
    have room : position + count ≤ session.removed + rbm.chunkSize := by omega
    let added : Interval := ⟨position, position + count, by omega⟩
    have span : added.stop - added.start = count := by simp [added]
    obtain ⟨buff, put, stored, book⟩ := rbPut_accepted consistent
      (show session.removed ≤ added.start from fresh) room
    simp only [bookkeeping, Prod.mk.injEq] at book
    obtain ⟨fctx, headSeq, mergedLen, cumLen⟩ := book
    rw [span] at put
    refine ⟨{ session with buff, accepted := (position, count) :: session.accepted },
      absorb added intervals, ?_, ?_⟩
    · simp only [call, bind, Except.bind]
      rw [put]
      simp only [if_pos (by omega : (0 : Int) < count)]
      rfl
    · constructor
      · exact stored
      · exact headSeq.trans consistent.headSeq
      · exact fctx
      · exact separated_absorb added intervals consistent.separated
      · intro place
        rw [covered_absorb, ← consistent.held place]
        simp only [Held, List.mem_cons, exists_eq_or_imp, Interval.Holds, added]
        constructor
        · rintro ⟨after, inside | taken⟩
          · exact Or.inl inside
          · exact Or.inr ⟨after, taken⟩
        · rintro (inside | ⟨after, taken⟩)
          · exact ⟨by omega, Or.inl inside⟩
          · exact ⟨after, Or.inr taken⟩
      · exact mergedLen
      · rw [cumLen, mergedLen]

end

def advance (count : Nat) : List Interval → List Interval
  | [] => []
  | first :: rest =>
    if short : first.start + count < first.stop then ⟨first.start + count, first.stop, short⟩ :: rest
    else rest

theorem covered_advance (separated : Separated intervals)
    (lower : ∀ interval ∈ intervals, low ≤ interval.start) (bound : count ≤ leading low intervals)
    (position : Nat) :
    Covered (advance count intervals) position ↔ low + count ≤ position ∧ Covered intervals position := by
  cases intervals with
  | nil => simp [advance, Covered]
  | cons first rest =>
    obtain ⟨gaps, _⟩ := List.pairwise_cons.mp separated
    have firstLower := lower first (by simp)
    have nonempty := first.nonempty
    simp only [leading] at bound
    have later : Covered rest position → low + count ≤ position := by
      rintro ⟨interval, member, holds⟩
      have gap := gaps interval member
      simp only [Interval.Holds] at holds
      split at bound <;> omega
    simp only [advance]
    split
    · rw [covered_cons, covered_cons]
      simp only [Interval.Holds]
      constructor
      · rintro (inside | rest)
        · split at bound <;> exact ⟨by omega, Or.inl (by omega)⟩
        · exact ⟨later rest, Or.inr rest⟩
      · rintro ⟨after, inside | rest⟩
        · left
          split at bound <;> omega
        · exact Or.inr rest
    · rw [covered_cons]
      constructor
      · exact fun rest => ⟨later rest, Or.inr rest⟩
      · rintro ⟨after, inside | rest⟩
        · simp only [Interval.Holds] at inside
          split at bound <;> omega
        · exact rest

theorem separated_advance (separated : Separated intervals) : Separated (advance count intervals) := by
  cases intervals with
  | nil => exact separated
  | cons first rest =>
    obtain ⟨gaps, restSeparated⟩ := List.pairwise_cons.mp separated
    simp only [advance]
    split
    · exact List.pairwise_cons.mpr ⟨gaps, restSeparated⟩
    · exact restSeparated

theorem leading_advance (separated : Separated intervals) (bound : count ≤ leading low intervals)
    (positive : 0 < count) :
    leading (low + count) (advance count intervals) = leading low intervals - count := by
  cases intervals with
  | nil =>
    simp only [leading] at bound
    omega
  | cons first rest =>
    obtain ⟨gaps, _⟩ := List.pairwise_cons.mp separated
    have starts : first.start = low := by
      by_contra different
      simp only [leading, different, if_false] at bound
      omega
    have run : leading low (first :: rest) = first.stop - first.start := by
      simp [leading, starts]
    rw [run] at bound ⊢
    simp only [advance]
    split
    · simp only [leading]
      split <;> omega
    · cases rest with
      | nil =>
        simp only [leading]
        omega
      | cons next rest =>
        have gap := gaps next (by simp)
        simp only [leading]
        split <;> omega

section

variable (consistent : Consistent rbm stream initSeq session intervals)
include consistent

theorem rbRemove_advance (positive : 0 < count) (merged : count ≤ session.buff.mergedLen) :
    ∃ buff, rbRemove session.buff count = .ok (buff, count) ∧
      Stored rbm.chunkSize stream (session.removed + count) buff (advance count intervals) ∧
      bookkeeping buff = ((advance count intervals).map (fragment initSeq),
        plus initSeq (session.removed + count), session.buff.mergedLen - count,
        session.buff.cumLen) := by
  have bounded := rbm.bounded
  have order := consistent.stored.order
  have inside := consistent.stored.inside
  have mergedLen := consistent.mergedLen
  cases intervals with
  | nil =>
    simp only [leading] at mergedLen
    omega
  | cons first rest =>
    have nonempty := first.nonempty
    have window := consistent.window first (by simp)
    have firstUpper := consistent.stored.upper first (by simp)
    obtain ⟨gaps, _⟩ := List.pairwise_cons.mp consistent.separated
    have starts : first.start = session.removed := by
      by_contra different
      simp only [leading, different, if_false] at mergedLen
      omega
    have run : session.buff.mergedLen = first.stop - first.start := by
      simp [mergedLen, leading, starts]
    have len := fragment_len initSeq window
    have headValue : (session.buff.headOffset + UInt32.ofNat count).toNat =
        session.buff.headOffset.toNat + count := by
      rw [toNat_add, toNat_ofNat']
      omega
    have headSeq : session.buff.headSeq + UInt32.ofNat count =
        plus initSeq (session.removed + count) := by
      rw [consistent.headSeq]
      exact plus_plus initSeq session.removed count
    have kept : ∀ position, Covered (advance count (first :: rest)) position →
        session.removed + count ≤ position ∧ Covered (first :: rest) position :=
      fun position => (covered_advance consistent.separated consistent.stored.lower
        (by rw [← mergedLen]; exact merged) position).mp
    refine ⟨{ session.buff with
      headOffset := session.buff.headOffset + UInt32.ofNat count
      head := (session.buff.headOffset + UInt32.ofNat count).toNat
      headSeq := session.buff.headSeq + UInt32.ofNat count
      mergedLen := session.buff.mergedLen - count
      lastLen := session.buff.lastLen - count
      fctx := (advance count (first :: rest)).map (fragment initSeq) }, ?_, ?_, ?_⟩
    · have unclipped : ¬session.buff.mergedLen < count := by omega
      simp only [rbRemove, unclipped, if_false, if_neg (Nat.ne_of_gt positive), consistent.fctx,
        List.map_cons, len]
      by_cases whole : count = first.stop - first.start
      · have gone : ¬first.start + count < first.stop := by omega
        simp [whole.symm, advance, gone]
      · have short : first.start + count < first.stop := by omega
        have shortened : ({ seq := (fragment initSeq first).seq + UInt32.ofNat count
                            len := field31 ((fragment initSeq first).len - UInt32.ofNat count) } :
            FragmentCtx) = fragment initSeq ⟨first.start + count, first.stop, short⟩ := by
          simp only [fragment, FragmentCtx.mk.injEq]
          refine ⟨plus_plus initSeq first.start count, ?_⟩
          apply UInt32.toNat_inj.mp
          simp only [InWindow] at window
          simp only [field31, UInt32.toNat_mod, toNat_sub, toNat_ofNat', UInt32.reduceToNat]
          omega
        rw [if_neg whole, if_pos (by omega), shortened]
        simp [advance, short]
    · constructor
      · exact consistent.stored.size
      · exact consistent.stored.length
      · rfl
      · simp only [headValue]
        omega
      · exact consistent.stored.inside
      · simp only [headValue, consistent.stored.lastLen]
        omega
      · intro interval member
        exact (kept interval.start ⟨interval, member, Nat.le_refl _, interval.nonempty⟩).1
      · intro interval member
        have last : Covered (advance count (first :: rest)) (interval.stop - 1) :=
          ⟨interval, member, by have := interval.nonempty; simp only [Interval.Holds]; omega⟩
        have bounds := consistent.stored.bounds (kept _ last).2
        have intervalNonempty := interval.nonempty
        simp only [headValue]
        omega
      · intro position covered
        obtain ⟨after, before⟩ := kept position covered
        have byte := consistent.stored.bytes position before
        rw [consistent.stored.head] at byte
        simp only [headValue]
        rw [← byte]
        congr 1
        omega
    · simp only [bookkeeping, headSeq]

theorem remove_consistent (count : Nat) :
    ∃ next nextIntervals, session.call stream initSeq (.remove count) = .ok next ∧
      Consistent rbm stream initSeq next nextIntervals := by
  generalize takenEq : (if session.buff.mergedLen < count then session.buff.mergedLen else count) = taken
  have merged : taken ≤ session.buff.mergedLen := by
    rw [← takenEq]
    split <;> omega
  have clipped : rbRemove session.buff count = rbRemove session.buff taken := by
    simp only [rbRemove, takenEq, if_neg (Nat.not_lt.mpr merged)]
  rcases Nat.eq_zero_or_pos taken with zero | positive
  · refine ⟨session, intervals, ?_, consistent⟩
    subst zero
    simp only [call, clipped]
    simp [rbRemove, bind, Except.bind]
    rfl
  · obtain ⟨buff, removes, stored, book⟩ := rbRemove_advance consistent positive merged
    simp only [bookkeeping, Prod.mk.injEq] at book
    obtain ⟨fctx, headSeq, mergedLen, cumLen⟩ := book
    have leads : taken ≤ leading session.removed intervals := by
      rw [← consistent.mergedLen]
      exact merged
    refine ⟨{ session with buff, removed := session.removed + taken }, advance taken intervals, ?_, ?_⟩
    · simp only [call, clipped, removes, bind, Except.bind]
      rfl
    · constructor
      · exact stored
      · exact headSeq
      · exact fctx
      · exact separated_advance consistent.separated
      · intro place
        rw [covered_advance consistent.separated consistent.stored.lower leads, ← consistent.held place]
        simp only [Held]
        constructor
        · rintro ⟨after, held⟩
          exact ⟨after, by omega, held⟩
        · rintro ⟨after, _, held⟩
          exact ⟨after, held⟩
      · simp only [mergedLen, consistent.mergedLen]
        exact (leading_advance consistent.separated leads positive).symm
      · simp only [cumLen, consistent.cumLen, mergedLen]
        congr 1
        omega

theorem call_consistent (call : Call) (near : session.Near call) :
    ∃ next nextIntervals, session.call stream initSeq call = .ok next ∧
      Consistent rbm stream initSeq next nextIntervals := by
  cases call with
  | put position count => exact put_consistent consistent near
  | remove count => exact remove_consistent consistent count

end

theorem run_consistent (calls : List Call) (consistent : Consistent rbm stream initSeq session intervals)
    (near : session.AllNear stream initSeq calls) :
    ∃ final finalIntervals, session.run stream initSeq calls = .ok final ∧
      Consistent rbm stream initSeq final finalIntervals := by
  induction calls generalizing session intervals with
  | nil => exact ⟨session, intervals, rfl, consistent⟩
  | cons first rest ih =>
    obtain ⟨next, nextIntervals, called, nextConsistent⟩ := call_consistent consistent first near.1
    obtain ⟨final, finalIntervals, ran, finalConsistent⟩ := ih nextConsistent (near.2 next called)
    refine ⟨final, finalIntervals, ?_, finalConsistent⟩
    simp only [Session.run, called, bind, Except.bind]
    exact ran

def offset (buff : TcpRingBuffer) (frag : FragmentCtx) : Nat := (frag.seq - buff.headSeq).toNat

structure Reassembled (stream : Nat → UInt8) (initSeq : UInt32) (session : Session) : Prop where
  headSeq : session.buff.headSeq = plus initSeq session.removed
  bytes : ∀ index < session.buff.mergedLen,
    session.buff.data[session.buff.head + index]? = some (stream (session.removed + index))
  contiguous : ∀ index < session.buff.mergedLen, session.Held (session.removed + index)
  longest : ¬session.Held (session.removed + session.buff.mergedLen)
  sorted : session.buff.fctx.Pairwise fun first second =>
    offset session.buff first + first.len.toNat < offset session.buff second
  exactly : ∀ position, session.Held position ↔ session.removed ≤ position ∧
    ∃ frag ∈ session.buff.fctx, offset session.buff frag ≤ position - session.removed ∧
      position - session.removed < offset session.buff frag + frag.len.toNat
  head : session.buff.head = session.buff.headOffset.toNat
  lastLen : session.buff.lastLen = (session.buff.tailOffset.toNat : Int) - session.buff.headOffset.toNat

theorem offset_fragment {interval : Interval} (headSeq : buff.headSeq = plus initSeq removed)
    (window : InWindow removed interval) :
    offset buff (fragment initSeq interval) = interval.start - removed := by
  have nonempty := interval.nonempty
  simp only [InWindow] at window
  rw [offset, headSeq]
  exact toNat_plus_sub_plus initSeq window.1 (by omega)

theorem Consistent.reassembled (consistent : Consistent rbm stream initSeq session intervals) :
    Reassembled stream initSeq session := by
  have windows := consistent.window
  have covered : ∀ index < session.buff.mergedLen, Covered intervals (session.removed + index) := by
    rw [consistent.mergedLen]
    exact leading_covered
  constructor
  · exact consistent.headSeq
  · intro index bound
    have byte := consistent.stored.bytes _ (covered index bound)
    rwa [Nat.add_sub_cancel_left] at byte
  · intro index bound
    exact (consistent.held _).mpr (covered index bound)
  · rw [consistent.held, consistent.mergedLen]
    exact leading_stops consistent.separated consistent.stored.lower
  · rw [consistent.fctx, List.pairwise_map]
    refine consistent.separated.imp_of_mem ?_
    intro first second firstMember secondMember gap
    have nonempty := first.nonempty
    have lower := (windows first firstMember).1
    rw [offset_fragment consistent.headSeq (windows first firstMember),
      offset_fragment consistent.headSeq (windows second secondMember),
      fragment_len initSeq (windows first firstMember)]
    omega
  · intro position
    rw [consistent.held]
    constructor
    · rintro ⟨interval, member, holds⟩
      have window := windows interval member
      have lower := window.1
      simp only [Interval.Holds] at holds
      refine ⟨by omega, fragment initSeq interval, ?_, ?_⟩
      · rw [consistent.fctx]
        exact List.mem_map_of_mem member
      · rw [offset_fragment consistent.headSeq window, fragment_len initSeq window]
        omega
    · rintro ⟨after, frag, member, inside⟩
      rw [consistent.fctx] at member
      obtain ⟨interval, intervalMember, rfl⟩ := List.mem_map.mp member
      have window := windows interval intervalMember
      have lower := window.1
      have nonempty := interval.nonempty
      rw [offset_fragment consistent.headSeq window, fragment_len initSeq window] at inside
      exact ⟨interval, intervalMember, by simp only [Interval.Holds]; omega⟩
  · exact consistent.stored.head
  · exact consistent.stored.lastLen

/-- Every run of puts near the head and removes leaves in the buffer exactly the accepted bytes that
are not yet removed. -/
theorem reassembly_correct (rbm : RBManager) (stream : Nat → UInt8) (initSeq : UInt32)
    (chunk : List UInt8) (chunkLength : chunk.length = rbm.chunkSize) (calls : List Call)
    (near : Session.AllNear stream initSeq
      { buff := rbInit rbm chunk initSeq, removed := 0, accepted := [] } calls) :
    ∃ final, Session.run stream initSeq
        { buff := rbInit rbm chunk initSeq, removed := 0, accepted := [] } calls = .ok final ∧
      Reassembled stream initSeq final := by
  obtain ⟨final, finalIntervals, ran, consistent⟩ := run_consistent calls
    (initial_consistent rbm stream initSeq chunk chunkLength) near
  exact ⟨final, ran, consistent.reassembled⟩

theorem reassembly_correct_wrapping : ∃ final,
    Session.run (fun position => UInt8.ofNat position) 0xFFFFFFFE
      { buff := rbInit ⟨8, by decide, by decide⟩ (List.replicate 8 0) 0xFFFFFFFE,
        removed := 0, accepted := [] }
      [.put 4 3, .put 0 2, .remove 1, .put 1 4, .put 4 3, .remove 9] = .ok final ∧
    Reassembled (fun position => UInt8.ofNat position) 0xFFFFFFFE final := by
  apply reassembly_correct ⟨8, by decide, by decide⟩ _ _ _ (by decide)
  let rbm : RBManager := ⟨8, by decide, by decide⟩
  refine ⟨near_of_span rbm (by decide) (by decide), ?_⟩
  rintro _ ⟨⟩
  refine ⟨near_of_span rbm (by decide) (by decide), ?_⟩
  rintro _ ⟨⟩
  refine ⟨trivial, ?_⟩
  rintro _ ⟨⟩
  refine ⟨near_of_span rbm (by decide) (by decide), ?_⟩
  rintro _ ⟨⟩
  refine ⟨near_of_span rbm (by decide) (by decide), ?_⟩
  rintro _ ⟨⟩
  exact ⟨trivial, fun _ _ => trivial⟩

end Mcc.RingBuffer
