import Mcc.TimerWheelCore

/-!
Timing of the retransmission wheel over whole runs: a stream is handled never before its deadline
and, unless it is removed, by the first complete check at or after it.
-/

namespace Mcc.TimerWheel

open SerialNumber

structure Session where
  mtcp : Manager
  epoch : UInt32
  clock : Nat
  deadline : Nat → Nat

open Session

def Session.curTs (session : Session) : UInt32 := plus session.epoch session.clock

inductive Step where
  | advance (milliseconds : Nat)
  | add (id : Nat) (rto : UInt32)
  | remove (id : Nat)
  | check (thresh : Int)
  deriving Repr, DecidableEq

namespace Session

def inserts (session : Session) (id : Nat) : Bool :=
  (session.mtcp.stream id).onRtoIdx < 0 && !(session.mtcp.stream id).onTimewaitList

/-- The callers of `AddtoRTOList` set `ts_rto` to `cur_ts + rto` first. -/
def stamp (session : Session) (id : Nat) (rto : UInt32) : Manager :=
  let stamped := { session.mtcp.stream id with tsRto := session.curTs + rto }
  { session.mtcp with stream := setStream session.mtcp.stream id stamped }

def step (session : Session) : Step → Session
  | .advance milliseconds => { session with clock := session.clock + milliseconds }
  | .add id rto => { session with
      mtcp := addtoRTOList (session.stamp id rto) id
      deadline := fun other =>
        if other = id && session.inserts id then session.clock + rto.toNat
        else session.deadline other }
  | .remove id => { session with mtcp := removeFromRTOList session.mtcp id }
  | .check thresh => { session with
      mtcp := (checkRtmTimeout session.mtcp session.curTs thresh).mtcp }

def lead (session : Session) : Int :=
  signed (session.mtcp.rtoStore.rtoNowTs - session.curTs)

/-- The step stays away from the two places where a stream gets into a wrong list, and from
differences that leave the signed range. -/
def Safe (session : Session) : Step → Prop
  | .advance milliseconds =>
    session.mtcp.rtoListCnt = 0 ∨ (milliseconds : Int) < session.lead + 2 ^ 31
  | .add id rto => session.inserts id = true → (session.mtcp.rtoListCnt = 0 → rto.toNat < 2 ^ 31) ∧
      (session.mtcp.rtoListCnt ≠ 0 → session.lead ≤ rto.toNat ∧ (rto.toNat : Int) < session.lead + 2 ^ 31)
  | .remove _ => True
  | .check _ => session.mtcp.rtoListCnt = 0 ∨ session.mtcp.rtoStore.rtoList rtoHash = [] ∨
      (session.mtcp.rtoStore.rtoNowIdx.toNat % 1000 : Nat) + (1 - session.lead) < 1000

structure CheckTimely (session : Session) (thresh : Int) : Prop where
  queued : ∀ id ∈ (checkRtmTimeout session.mtcp session.curTs thresh).handled,
    0 ≤ (session.mtcp.stream id).onRtoIdx
  notEarly : ∀ id ∈ (checkRtmTimeout session.mtcp session.curTs thresh).handled,
    session.deadline id ≤ session.clock
  kept : ∀ id, 0 ≤ (session.mtcp.stream id).onRtoIdx →
    id ∉ (checkRtmTimeout session.mtcp session.curTs thresh).handled →
    0 ≤ ((checkRtmTimeout session.mtcp session.curTs thresh).mtcp.stream id).onRtoIdx
  onTime : (checkRtmTimeout session.mtcp session.curTs thresh).cnt ≤ thresh →
    ∀ id, 0 ≤ ((checkRtmTimeout session.mtcp session.curTs thresh).mtcp.stream id).onRtoIdx →
      session.clock < session.deadline id

def StepTimely (session : Session) : Step → Prop
  | .check thresh => session.CheckTimely thresh
  | _ => True

def AllSafe (session : Session) : List Step → Prop
  | [] => True
  | first :: rest => session.Safe first ∧ (session.step first).AllSafe rest

def AllTimely (session : Session) : List Step → Prop
  | [] => True
  | first :: rest => session.StepTimely first ∧ (session.step first).AllTimely rest

end Session

def InSlot (base index due slot : Nat) : Prop :=
  (slot < rtoHash ∧ base ≤ due ∧ due < base + rtoHash ∧ slot = (index + (due - base)) % rtoHash) ∨
    (slot = rtoHash ∧ base + rtoHash ≤ due + index % 1000)

structure Placed (epoch : UInt32) (deadline : Nat → Nat) (base : Nat) (mtcp : Manager) : Prop where
  now : mtcp.rtoStore.rtoNowTs = plus epoch base
  index : mtcp.rtoStore.rtoNowIdx.toNat < rtoHash
  count : ∃ members : List Nat, members.Nodup ∧ mtcp.rtoListCnt = members.length ∧
    ∀ id, id ∈ members ↔ 0 ≤ (mtcp.stream id).onRtoIdx
  lists : ∀ (slot id : Nat), id ∈ mtcp.rtoStore.rtoList slot ↔ (mtcp.stream id).onRtoIdx = slot
  nodup : ∀ slot, (mtcp.rtoStore.rtoList slot).Nodup
  slots : ∀ (id slot : Nat), (mtcp.stream id).onRtoIdx = slot →
    InSlot base mtcp.rtoStore.rtoNowIdx.toNat (deadline id) slot

variable {epoch : UInt32} {deadline : Nat → Nat} {base : Nat} {mtcp : Manager}

theorem Placed.count_zero (placed : Placed epoch deadline base mtcp) :
    mtcp.rtoListCnt = 0 ↔ ∀ id, (mtcp.stream id).onRtoIdx < 0 := by
  obtain ⟨members, _, length, member⟩ := placed.count
  constructor
  · intro zero id
    by_contra queued
    have inside := (member id).mpr (by omega)
    have nonempty := List.length_pos_of_mem inside
    omega
  · intro idle
    have empty : members = [] := by
      apply List.eq_nil_iff_forall_not_mem.mpr
      intro id inside
      have queued := (member id).mp inside
      have absent := idle id
      omega
    rw [length, empty]
    rfl

section

variable (stream : Nat → TimerStream)

theorem setOnRtoIdx_self (id : Nat) (index : Int) :
    (setOnRtoIdx stream id index id).onRtoIdx = index := by
  simp [setOnRtoIdx, setStream]

theorem setOnRtoIdx_ne {id other} (index : Int)
    (different : other ≠ id) : setOnRtoIdx stream id index other = stream other := by
  simp [setOnRtoIdx, setStream, different]

theorem takeOff_placed (placed : Placed epoch deadline base mtcp) {id slot : Nat}
    (queued : (mtcp.stream id).onRtoIdx = slot) : Placed epoch deadline base (takeOff mtcp id slot) := by
  constructor
  · exact placed.now
  · exact placed.index
  · obtain ⟨members, distinct, length, member⟩ := placed.count
    have inside : id ∈ members := (member id).mpr (by omega)
    refine ⟨members.erase id, distinct.erase id, ?_, ?_⟩
    · have positive := List.length_pos_of_mem inside
      simp only [takeOff, length, List.length_erase_of_mem inside]
      omega
    · intro other
      by_cases same : other = id
      · subst same
        simp [takeOff, setOnRtoIdx_self, distinct.not_mem_erase]
      · rw [List.mem_erase_of_ne same, member]
        simp only [takeOff, setOnRtoIdx_ne _ _ same]
  · intro other stream
    have lists := placed.lists other stream
    simp only [takeOff, setList]
    by_cases same : stream = id
    · subst same
      rw [setOnRtoIdx_self]
      split
      · rename_i here
        subst here
        simp [(placed.nodup other).not_mem_erase]
      · rename_i elsewhere
        rw [lists, queued]
        omega
    · rw [setOnRtoIdx_ne _ _ same, ← lists]
      split
      · rename_i here
        subst here
        exact List.mem_erase_of_ne same
      · rfl
  · intro other
    simp only [takeOff, setList]
    split
    · exact (placed.nodup slot).erase id
    · exact placed.nodup other
  · intro stream place standing
    by_cases same : stream = id
    · subst same
      simp only [takeOff, setOnRtoIdx_self] at standing
      omega
    · simp only [takeOff, setOnRtoIdx_ne _ _ same] at standing
      exact placed.slots stream place standing

theorem insertTail_placed (placed : Placed epoch deadline base mtcp) {id slot due}
    (absent : (mtcp.stream id).onRtoIdx < 0)
    (place : InSlot base mtcp.rtoStore.rtoNowIdx.toNat due slot) :
    Placed epoch (fun other => if other = id then due else deadline other) base
      { insertTail mtcp id slot with rtoListCnt := mtcp.rtoListCnt + 1 } := by
  constructor
  · exact placed.now
  · exact placed.index
  · obtain ⟨members, distinct, length, member⟩ := placed.count
    have outside : id ∉ members := by
      rw [member]
      omega
    refine ⟨id :: members, List.nodup_cons.mpr ⟨outside, distinct⟩, ?_, ?_⟩
    · simp [length]
    · intro other
      by_cases same : other = id
      · subst same
        simp [insertTail, setOnRtoIdx_self]
      · simp only [List.mem_cons, same, false_or, member, insertTail, setOnRtoIdx_ne _ _ same]
  · intro other stream
    have lists := placed.lists other stream
    simp only [insertTail, setList]
    by_cases same : stream = id
    · subst same
      rw [setOnRtoIdx_self]
      split
      · rename_i here
        simp [here]
      · rename_i elsewhere
        rw [lists]
        omega
    · rw [setOnRtoIdx_ne _ _ same, ← lists]
      split
      · rename_i here
        subst here
        simp [same]
      · rfl
  · intro other
    simp only [insertTail, setList]
    split
    · have outside : id ∉ mtcp.rtoStore.rtoList slot := by
        rw [placed.lists]
        omega
      exact List.nodup_append.mpr ⟨placed.nodup slot, List.nodup_singleton id, by
        intro first firstMember second secondMember same
        rw [List.mem_singleton] at secondMember
        exact outside (secondMember ▸ same ▸ firstMember)⟩
    · exact placed.nodup other
  · intro stream other standing
    by_cases same : stream = id
    · subst same
      simp only [insertTail, setOnRtoIdx_self] at standing
      have equal : other = slot := by omega
      rw [if_pos rfl, equal]
      exact place
    · simp only [insertTail, setOnRtoIdx_ne _ _ same] at standing
      rw [if_neg same]
      exact placed.slots stream other standing

theorem slotOffset_eq (store : RtoHashstore) {diff} (near : diff < rtoHash)
    (index : store.rtoNowIdx.toNat < rtoHash) :
    slotOffset store diff = (store.rtoNowIdx.toNat + diff) % rtoHash := by
  simp only [rtoHash] at near index
  simp only [slotOffset, UInt32.toNat_add, UInt32.ofInt, UInt32.toNat_ofNat', rtoHash]
  omega

theorem checkList_placed (thresh : Int) (slot : Nat) (list : List Nat) (progress : Progress)
    (placed : Placed epoch deadline base progress.mtcp)
    (whole : progress.mtcp.rtoStore.rtoList slot = list) :
    ∃ taken, (checkList thresh slot list progress).handled = progress.handled ++ taken ∧
      (∀ id ∈ taken, (progress.mtcp.stream id).onRtoIdx = slot) ∧
      (∀ id, id ∉ taken → ((checkList thresh slot list progress).mtcp.stream id).onRtoIdx =
        (progress.mtcp.stream id).onRtoIdx) ∧
      Placed epoch deadline base (checkList thresh slot list progress).mtcp ∧
      (checkList thresh slot list progress).mtcp.rtoStore.rtoNowIdx = progress.mtcp.rtoStore.rtoNowIdx ∧
      ((checkList thresh slot list progress).cnt ≤ thresh →
        (checkList thresh slot list progress).mtcp.rtoStore.rtoList slot = []) ∧
      (∀ other, other ≠ slot → (checkList thresh slot list progress).mtcp.rtoStore.rtoList other =
        progress.mtcp.rtoStore.rtoList other) := by
  induction list generalizing progress with
  | nil => exact ⟨[], by simp [checkList], by simp, by simp [checkList], placed, rfl,
      fun _ => whole, fun _ _ => rfl⟩
  | cons walk rest ih =>
    have standing : (progress.mtcp.stream walk).onRtoIdx = slot :=
      (placed.lists slot walk).mp (by rw [whole]; exact List.mem_cons_self)
    simp only [checkList]
    split
    · rename_i cut
      exact ⟨[], by simp, by simp, by simp, placed, rfl, fun complete => absurd complete (Int.not_le.mpr cut),
        fun _ _ => rfl⟩
    · rw [if_pos (by omega)]
      have left : (takeOff progress.mtcp walk slot).rtoStore.rtoList slot = rest := by
        simp [takeOff, setList, whole]
      obtain ⟨taken, handled, from_, kept, after, index, complete, others⟩ := ih
        { mtcp := takeOff progress.mtcp walk slot, cnt := progress.cnt + 1,
          handled := progress.handled ++ [walk] }
        (takeOff_placed placed standing) left
      refine ⟨walk :: taken, ?_, ?_, ?_, after, index, complete, ?_⟩
      · rw [handled]
        simp
      · intro id member
        rcases List.mem_cons.mp member with same | later
        · rw [same]
          exact standing
        · have before := from_ id later
          by_cases same : id = walk
          · rw [same]
            exact standing
          · simp only [takeOff, setOnRtoIdx_ne _ _ same] at before
            exact before
      · intro id outside
        rw [List.mem_cons, not_or] at outside
        rw [kept id outside.2]
        simp only [takeOff, setOnRtoIdx_ne _ _ outside.1]
      · intro other different
        rw [others other different]
        simp [takeOff, setList, different]

theorem rearrange_empty (mtcp : Manager) (far : mtcp.rtoStore.rtoList rtoHash = []) :
    rearrangeRTOStore mtcp = mtcp := by
  simp [rearrangeRTOStore, far]

theorem index_moved {index} (bound : index.toNat < rtoHash) :
    ((index + 1) % UInt32.ofNat rtoHash).toNat = (index.toNat + 1) % rtoHash := by
  simp only [rtoHash] at bound
  simp only [UInt32.toNat_mod, UInt32.toNat_add, UInt32.toNat_ofNat', rtoHash, UInt32.toNat_one,
    Nat.reducePow, Nat.reduceMod]
  omega

theorem tick_eq (mtcp : Manager) (index : mtcp.rtoStore.rtoNowIdx.toNat < rtoHash)
    (far : mtcp.rtoStore.rtoList rtoHash = [] ∨ mtcp.rtoStore.rtoNowIdx.toNat % 1000 + 1 < 1000) :
    tick mtcp = { mtcp with rtoStore := { mtcp.rtoStore with
      rtoNowIdx := (mtcp.rtoStore.rtoNowIdx + 1) % UInt32.ofNat rtoHash
      rtoNowTs := mtcp.rtoStore.rtoNowTs + 1 } } := by
  simp only [tick]
  split
  · rename_i turn
    rcases far with empty | between
    · exact rearrange_empty _ empty
    · have value := congrArg UInt32.toNat turn
      rw [UInt32.toNat_mod, index_moved index] at value
      simp only [rtoHash, UInt32.toNat_zero, UInt32.reduceToNat] at value index
      omega
  · rfl

theorem tick_placed (placed : Placed epoch deadline base mtcp)
    (clear : mtcp.rtoStore.rtoList mtcp.rtoStore.rtoNowIdx.toNat = [])
    (far : mtcp.rtoStore.rtoList rtoHash = [] ∨ mtcp.rtoStore.rtoNowIdx.toNat % 1000 + 1 < 1000) :
    Placed epoch deadline (base + 1) (tick mtcp) := by
  have index := placed.index
  have moved := index_moved index
  rw [tick_eq mtcp index far]
  refine { placed with now := ?_, index := ?_, slots := ?_ }
  · simp only [placed.now]
    exact plus_plus epoch base 1
  · simp only [moved]
    exact Nat.mod_lt _ (by decide)
  · intro id slot standing
    have member := (placed.lists slot id).mpr standing
    simp only [moved]
    rcases placed.slots id slot standing with ⟨near, lower, upper, place⟩ | ⟨beyond, later⟩
    · left
      have notNow : deadline id ≠ base := by
        intro same
        rw [place, same, Nat.sub_self, Nat.add_zero, Nat.mod_eq_of_lt index, clear] at member
        exact absurd member List.not_mem_nil
      simp only [rtoHash] at near upper place index ⊢
      omega
    · right
      rcases far with empty | between
      · rw [beyond, empty] at member
        exact absurd member List.not_mem_nil
      · simp only [rtoHash] at beyond later index ⊢
        omega

theorem checkLoop_placed {clock} (thresh : Int) (fuel : Nat) (progress : Progress)
    (placed : Placed epoch deadline base progress.mtcp) (behind : clock < base + 2 ^ 31)
    (ahead : base ≤ clock + 2 ^ 31)
    (far : progress.mtcp.rtoStore.rtoList rtoHash = [] ∨
      progress.mtcp.rtoStore.rtoNowIdx.toNat % 1000 + (clock + 1 - base) < 1000)
    (enough : clock + 1 - base ≤ fuel) :
    ∃ taken final, (checkLoop (plus epoch clock) thresh fuel progress).handled =
        progress.handled ++ taken ∧
      (∀ id ∈ taken, 0 ≤ (progress.mtcp.stream id).onRtoIdx ∧ deadline id ≤ clock) ∧
      (∀ id, id ∉ taken →
        ((checkLoop (plus epoch clock) thresh fuel progress).mtcp.stream id).onRtoIdx =
          (progress.mtcp.stream id).onRtoIdx) ∧
      Placed epoch deadline final (checkLoop (plus epoch clock) thresh fuel progress).mtcp ∧
      base ≤ final ∧ final ≤ max base (clock + 1) ∧
      ((checkLoop (plus epoch clock) thresh fuel progress).cnt ≤ thresh → clock < final) := by
  induction fuel generalizing base progress with
  | zero => exact ⟨[], base, by simp [checkLoop], by simp, by simp [checkLoop], placed, Nat.le_refl _,
      Nat.le_max_left _ _, fun _ => by omega⟩
  | succ fuel ih =>
    simp only [checkLoop]
    have difference := signed_plus_sub_plus epoch behind ahead
    rw [placed.now, difference]
    split
    · exact ⟨[], base, by simp, by simp, by simp, placed, Nat.le_refl _, Nat.le_max_left _ _,
        fun _ => by omega⟩
    · rename_i due
      obtain ⟨taken, handled, standing, kept, after, index, complete, others⟩ :=
        checkList_placed thresh progress.mtcp.rtoStore.rtoNowIdx.toNat _ progress placed rfl
      generalize checkList thresh progress.mtcp.rtoStore.rtoNowIdx.toNat
        (progress.mtcp.rtoStore.rtoList progress.mtcp.rtoStore.rtoNowIdx.toNat) progress =
        checked at *
      have indexBound := placed.index
      have now : ∀ id ∈ taken, 0 ≤ (progress.mtcp.stream id).onRtoIdx ∧ deadline id ≤ clock := by
        intro id member
        have place := placed.slots id _ (standing id member)
        refine ⟨by rw [standing id member]; omega, ?_⟩
        simp only [InSlot, rtoHash] at place indexBound
        omega
      split
      · exact ⟨taken, base, handled, now, kept, after, Nat.le_refl _, Nat.le_max_left _ _,
          fun whole => absurd whole (by omega)⟩
      · rename_i whole
        have cleared : checked.mtcp.rtoStore.rtoList checked.mtcp.rtoStore.rtoNowIdx.toNat = [] := by
          rw [index]
          exact complete (by omega)
        have farList := others rtoHash (by simp only [rtoHash] at indexBound ⊢; omega)
        have farNow : checked.mtcp.rtoStore.rtoList rtoHash = [] ∨
            checked.mtcp.rtoStore.rtoNowIdx.toNat % 1000 + 1 < 1000 := by
          rw [farList, index]
          exact far.imp_right fun between => by omega
        have ticked := tick_placed after cleared farNow
        have moved := tick_eq checked.mtcp after.index farNow
        have farNext : (tick checked.mtcp).rtoStore.rtoList rtoHash = [] ∨
            (tick checked.mtcp).rtoStore.rtoNowIdx.toNat % 1000 + (clock + 1 - (base + 1)) < 1000 := by
          rw [moved, index_moved after.index, index]
          simp only [farList]
          refine far.imp_right fun between => ?_
          simp only [rtoHash] at indexBound ⊢
          omega
        obtain ⟨later, final, laterHandled, laterNow, laterKept, laterPlaced, grows, bounded, ends⟩ :=
          ih { checked with mtcp := tick checked.mtcp } ticked (by omega) (by omega) farNext (by omega)
        have sameStream : (tick checked.mtcp).stream = checked.mtcp.stream := by rw [moved]
        simp only [sameStream] at laterNow laterKept
        refine ⟨taken ++ later, final, ?_, ?_, ?_, laterPlaced, by omega, by omega, ends⟩
        · rw [laterHandled, handled, List.append_assoc]
        · intro id member
          by_cases early : id ∈ taken
          · exact now id early
          · rcases List.mem_append.mp member with first | second
            · exact absurd first early
            · obtain ⟨queued, due⟩ := laterNow id second
              rw [kept id early] at queued
              exact ⟨queued, due⟩
        · intro id outside
          rw [List.mem_append, not_or] at outside
          rw [laterKept id outside.2, kept id outside.1]

def Session.Good (session : Session) : Prop :=
  ∃ base, Placed session.epoch session.deadline base session.mtcp ∧
    (session.mtcp.rtoListCnt ≠ 0 → base < session.clock + 2 ^ 31 ∧ session.clock < base + 2 ^ 31)

variable {session : Session}

theorem lead_eq (placed : Placed session.epoch session.deadline base session.mtcp)
    (above : base < session.clock + 2 ^ 31) (below : session.clock < base + 2 ^ 31) :
    session.lead = (base : Int) - session.clock := by
  rw [lead, placed.now, curTs]
  exact signed_plus_sub_plus session.epoch above (by omega)

theorem check_good (good : session.Good) (thresh : Int) (safe : session.Safe (.check thresh)) :
    session.CheckTimely thresh ∧ (session.step (.check thresh)).Good := by
  obtain ⟨base, placed, range⟩ := good
  by_cases empty : session.mtcp.rtoListCnt = 0
  · have idle := placed.count_zero.mp empty
    refine ⟨⟨?_, ?_, ?_, ?_⟩, base, ?_, ?_⟩
    · simp [checkRtmTimeout, empty]
    · simp [checkRtmTimeout, empty]
    · intro id queued
      exact absurd queued (by have := idle id; omega)
    · intro _ id queued
      simp only [checkRtmTimeout, empty, if_true] at queued
      exact absurd queued (by have := idle id; omega)
    · simpa [Session.step, checkRtmTimeout, empty] using placed
    · simp [Session.step, checkRtmTimeout, empty]
  · obtain ⟨above, below⟩ := range empty
    have lead := lead_eq placed above below
    have far : session.mtcp.rtoStore.rtoList rtoHash = [] ∨
        session.mtcp.rtoStore.rtoNowIdx.toNat % 1000 + (session.clock + 1 - base) < 1000 := by
      rcases safe with zero | blank | between
      · exact absurd zero empty
      · exact Or.inl blank
      · right
        rw [lead] at between
        omega
    have fuel : session.clock + 1 - base ≤
        (session.curTs - session.mtcp.rtoStore.rtoNowTs).toNat + 1 := by
      by_cases due : base ≤ session.clock
      · rw [placed.now, curTs, toNat_plus_sub_plus session.epoch due (by omega)]
        omega
      · omega
    obtain ⟨taken, final, handled, now, kept, after, grows, bounded, ends⟩ :=
      checkLoop_placed thresh _ { mtcp := session.mtcp, cnt := 0, handled := [] } placed below
        (by omega) far fuel
    have computed : checkRtmTimeout session.mtcp session.curTs thresh =
        checkLoop (plus session.epoch session.clock) thresh
          ((session.curTs - session.mtcp.rtoStore.rtoNowTs).toNat + 1)
          { mtcp := session.mtcp, cnt := 0, handled := [] } := by
      rw [checkRtmTimeout, if_neg empty]
      rfl
    rw [← computed] at handled kept after ends
    rw [List.nil_append] at handled
    refine ⟨⟨?_, ?_, ?_, ?_⟩, final, after, fun _ => ?_⟩
    · rw [handled]
      exact fun id member => (now id member).1
    · rw [handled]
      exact fun id member => (now id member).2
    · intro id queued outside
      rw [handled] at outside
      rw [kept id outside]
      exact queued
    · intro complete id queued
      have passed := ends complete
      obtain ⟨slot, standing⟩ := Int.eq_ofNat_of_zero_le queued
      have place := after.slots id slot standing
      simp only [InSlot, rtoHash] at place
      omega
    · simp only [Session.step]
      omega

theorem onRtoIdx_stamp (session : Session) (id other : Nat) (rto : UInt32) :
    ((session.stamp id rto).stream other).onRtoIdx = (session.mtcp.stream other).onRtoIdx := by
  simp only [stamp, setStream]
  split
  · rename_i here
    rw [here]
  · rfl

theorem stamp_placed (placed : Placed session.epoch session.deadline base session.mtcp) (id : Nat)
    (rto : UInt32) : Placed session.epoch session.deadline base (session.stamp id rto) := by
  have same := fun other => onRtoIdx_stamp session id other rto
  refine { placed with count := ?_, lists := ?_, slots := ?_ } <;> simp only [same]
  · exact placed.count
  · exact placed.lists
  · exact placed.slots

theorem rebase_placed (placed : Placed epoch deadline base mtcp) (empty : mtcp.rtoListCnt = 0)
    (target : Nat) :
    Placed epoch deadline target { mtcp with rtoStore := { mtcp.rtoStore with
      rtoNowIdx := 0
      rtoNowTs := plus epoch target } } := by
  have idle := placed.count_zero.mp empty
  refine { placed with now := rfl, index := by simp [rtoHash], slots := ?_ }
  intro id slot standing
  have absent := idle id
  simp only [] at standing
  omega

theorem insertByDeadline_placed {due id} (placed : Placed epoch deadline base mtcp)
    (absent : (mtcp.stream id).onRtoIdx < 0) (stamped : (mtcp.stream id).tsRto = plus epoch due)
    (lower : base ≤ due) (upper : due < base + 2 ^ 31) :
    Placed epoch (fun other => if other = id then due else deadline other) base
      (insertByDeadline mtcp id) := by
  have index := placed.index
  have difference : signed ((mtcp.stream id).tsRto - mtcp.rtoStore.rtoNowTs) =
      ((due - base : Nat) : Int) := by
    rw [stamped, placed.now, signed_plus_sub_plus epoch upper (by omega)]
    omega
  simp only [insertByDeadline, difference]
  split
  · rename_i near
    have nearNat : due - base < rtoHash := by omega
    rw [slotOffset_eq mtcp.rtoStore nearNat index]
    refine insertTail_placed placed absent (Or.inl ⟨Nat.mod_lt _ (by decide), lower, by omega, rfl⟩)
  · refine insertTail_placed placed absent (Or.inr ⟨rfl, by omega⟩)

theorem tsRto_stamp (session : Session) (id : Nat) (rto : UInt32) :
    ((session.stamp id rto).stream id).tsRto = plus session.epoch (session.clock + rto.toNat) := by
  simp only [stamp, setStream, if_true, curTs]
  exact plus_add_word session.epoch session.clock rto

section

variable (good : session.Good)
include good

theorem rebase_stamp_placed (id : Nat) (rto : UInt32) (safe : session.Safe (.add id rto)) :
    ∃ base, Placed session.epoch session.deadline base (rebase (session.stamp id rto) id) ∧
      (session.mtcp.rtoListCnt ≠ 0 ∨ session.inserts id = true →
        base < session.clock + 2 ^ 31 ∧ session.clock < base + 2 ^ 31) ∧
      (session.inserts id = true →
        base ≤ session.clock + rto.toNat ∧ session.clock + rto.toNat < base + 2 ^ 31) := by
  obtain ⟨base, placed, range⟩ := good
  have stampedPlaced := stamp_placed placed id rto
  by_cases empty : session.mtcp.rtoListCnt = 0
  · refine ⟨session.clock + rto.toNat, ?_, ?_, fun _ => by omega⟩
    · have rebased := rebase_placed stampedPlaced empty (session.clock + rto.toNat)
      rw [← tsRto_stamp session id rto] at rebased
      rw [rebase, if_pos (show (session.stamp id rto).rtoListCnt = 0 from empty)]
      exact rebased
    · rintro (queued | inserts)
      · exact absurd empty queued
      · have small := (safe inserts).1 empty
        omega
  · obtain ⟨above, below⟩ := range empty
    have lead := lead_eq placed above below
    refine ⟨base, ?_, fun _ => ⟨above, below⟩, ?_⟩
    · rw [rebase, if_neg (show ¬(session.stamp id rto).rtoListCnt = 0 from empty)]
      exact stampedPlaced
    · intro inserts
      have ahead := (safe inserts).2 empty
      rw [lead] at ahead
      omega

theorem add_good (id : Nat) (rto : UInt32) (safe : session.Safe (.add id rto)) :
    (session.step (.add id rto)).Good := by
  obtain ⟨base, placed, range, ahead⟩ := rebase_stamp_placed good id rto safe
  have sameStream : (rebase (session.stamp id rto) id).stream = (session.stamp id rto).stream := by
    rw [rebase]
    split <;> rfl
  have sameCount : (rebase (session.stamp id rto) id).rtoListCnt = session.mtcp.rtoListCnt := by
    rw [rebase]
    split <;> rfl
  have waits : ((session.stamp id rto).stream id).onTimewaitList =
      (session.mtcp.stream id).onTimewaitList := by
    simp [stamp, setStream]
  have queued := onRtoIdx_stamp session id id rto
  refine ⟨base, ?_⟩
  simp only [Session.step, addtoRTOList, sameStream, queued, waits]
  by_cases inserts : session.inserts id = true
  · have both := inserts
    simp only [Session.inserts, Bool.and_eq_true, decide_eq_true_eq, Bool.not_eq_true'] at both
    obtain ⟨lower, upper⟩ := ahead inserts
    rw [if_pos both.1, both.2]
    simp only [Bool.false_eq_true, if_false, inserts, Bool.and_true, decide_eq_true_eq]
    refine ⟨?_, fun _ => range (Or.inr inserts)⟩
    refine insertByDeadline_placed placed ?_ ?_ lower upper
    · rw [sameStream, queued]
      exact both.1
    · rw [sameStream, tsRto_stamp]
  · have unchanged : (if (session.mtcp.stream id).onRtoIdx < 0 then
        if (session.mtcp.stream id).onTimewaitList = true then rebase (session.stamp id rto) id
        else insertByDeadline (rebase (session.stamp id rto) id) id
      else rebase (session.stamp id rto) id) = rebase (session.stamp id rto) id := by
      simp only [Session.inserts, Bool.and_eq_true, decide_eq_true_eq, Bool.not_eq_true', not_and,
        Bool.not_eq_false] at inserts
      split
      · rename_i absent
        rw [if_pos (inserts absent)]
      · rfl
    rw [unchanged, sameCount]
    simp only [inserts, Bool.and_false, Bool.false_eq_true, if_false]
    exact ⟨placed, fun nonzero => range (Or.inl nonzero)⟩

theorem remove_good (id : Nat) : (session.step (.remove id)).Good := by
  obtain ⟨base, placed, range⟩ := good
  simp only [Session.step, removeFromRTOList]
  split
  · exact ⟨base, placed, range⟩
  · rename_i queued
    have standing : (session.mtcp.stream id).onRtoIdx =
        ((session.mtcp.stream id).onRtoIdx.toNat : Int) := by omega
    refine ⟨base, takeOff_placed placed standing, fun _ => range ?_⟩
    intro empty
    exact queued (placed.count_zero.mp empty id)

theorem advance_good (milliseconds : Nat)
    (safe : session.Safe (.advance milliseconds)) : (session.step (.advance milliseconds)).Good := by
  obtain ⟨base, placed, range⟩ := good
  refine ⟨base, placed, fun nonzero => ?_⟩
  obtain ⟨above, below⟩ := range nonzero
  have lead := lead_eq placed above below
  rcases safe with empty | near
  · exact absurd empty nonzero
  · rw [lead] at near
    simp only [Session.step]
    omega

theorem step_good (step : Step) (safe : session.Safe step) :
    session.StepTimely step ∧ (session.step step).Good := by
  cases step with
  | advance milliseconds => exact ⟨trivial, advance_good good milliseconds safe⟩
  | add id rto => exact ⟨trivial, add_good good id rto safe⟩
  | remove id => exact ⟨trivial, remove_good good id⟩
  | check thresh => exact check_good good thresh safe

end

theorem run_timely (steps : List Step) (good : session.Good) (safe : session.AllSafe steps) :
    session.AllTimely steps := by
  induction steps generalizing session with
  | nil => trivial
  | cons first rest ih =>
    obtain ⟨timely, next⟩ := step_good good first safe.1
    exact ⟨timely, ih next safe.2⟩

def Session.initial (stream : Nat → TimerStream) (epoch : UInt32) (clock : Nat) : Session where
  mtcp := { rtoStore := initRTOHashstore, rtoListCnt := 0,
            stream := fun id => { stream id with onRtoIdx := -1 } }
  epoch := epoch
  clock := clock
  deadline := fun _ => 0

theorem initial_good (epoch : UInt32) (clock : Nat) : (initial stream epoch clock).Good := by
  refine ⟨(0 - epoch).toNat, ?_, fun nonzero => absurd rfl nonzero⟩
  constructor
  · exact (plus_toNat_sub epoch 0).symm
  · exact (by decide : (0 : UInt32).toNat < rtoHash)
  · exact ⟨[], List.nodup_nil, rfl, fun id => by simp [initial]⟩
  · intro slot id
    simp only [initial, initRTOHashstore, List.not_mem_nil, false_iff]
    omega
  · exact fun _ => List.nodup_nil
  · intro id slot standing
    simp only [initial] at standing
    omega

end

/-- If nothing is inserted behind the base of a non-empty wheel and no far deadline is
redistributed, every check handles exactly the streams that are due. -/
theorem wheel_timely (stream : Nat → TimerStream) (epoch : UInt32) (clock : Nat) (steps : List Step)
    (safe : (Session.initial stream epoch clock).AllSafe steps) :
    (Session.initial stream epoch clock).AllTimely steps :=
  run_timely steps (initial_good stream epoch clock) safe

def idle : TimerStream := { tsRto := 0, onRtoIdx := -1, onTimewaitList := false }

theorem wheel_timely_wrapping : (Session.initial (fun _ => idle) 0xFFFFFFF0 0).AllTimely
    [.add 0 10, .add 1 15, .add 2 4000, .advance 12, .check 5, .remove 2, .advance 4, .check 5] := by
  apply wheel_timely
  refine ⟨?_, ?_, ?_, ?_, ?_, trivial, ?_, ?_, trivial⟩
  · exact fun _ => by decide
  · exact fun _ => by decide
  · exact fun _ => by decide
  · exact Or.inr (by decide)
  · exact Or.inr (Or.inr (by decide))
  · exact Or.inr (by decide)
  · exact Or.inr (Or.inl (by decide))

theorem wheel_late : ¬(Session.initial (fun _ => idle) 0 0).AllTimely
    [.add 0 100, .add 1 10, .advance 10, .check 5] := by
  intro timely
  exact absurd (timely.2.2.2.1.onTime (by decide) 1 (by decide)) (by decide)

end Mcc.TimerWheel
