import Mcc.Machine
import Mcc.RingQueue

/-!
The event queues of `eventpoll.c` and the three calls that work on them: `AddEpollEvent`,
`FlushEpollEvents` (from `core.c`) and `mtcp_epoll_wait`.
-/

namespace Mcc.EventPoll

open SerialNumber RingQueue

inductive SocketType where
  | unused
  | stream
  | proxy
  | listener
  | epoll
  | pipe
  deriving Repr, DecidableEq

structure SocketMap where
  socktype : SocketType
  epoll : UInt32
  events : UInt32
  epData : UInt64
  deriving Repr, DecidableEq

structure EpollEventInt (count : Nat) where
  events : UInt32
  data : UInt64
  sockid : Fin count
  deriving Repr, DecidableEq

structure EventQueue (count size : Nat) where
  events : Vector (EpollEventInt count) size
  start : Fin size
  endIndex : Fin size
  numEvents : Int
  deriving Repr, DecidableEq

variable {count size : Nat}

def createEventQueue (count size : Nat) [NeZero count] [NeZero size] : EventQueue count size where
  events := Vector.replicate size { events := 0, data := 0, sockid := 0 }
  start := 0
  endIndex := 0
  numEvents := 0

def eventQueLen (eq : EventQueue count size) : Int :=
  signed (UInt32.ofInt ((eq.endIndex.val : Int) - eq.start.val) &&& UInt32.ofInt ((size : Int) - 1))

def eventQueFull (eq : EventQueue count size) : Bool := next eq.endIndex = eq.start

inductive EventQueueType where
  | usr
  | usrShadow
  | mtcp
  deriving Repr, DecidableEq

structure MtcpEpoll (count size : Nat) where
  usrQueue : EventQueue count size
  usrShadowQueue : EventQueue count size
  mtcpQueue : EventQueue count size
  waiting : Bool
  smap : Vector SocketMap count

def mtcpEpollCreate (count size : Nat) [NeZero count] [NeZero size] (smap : Vector SocketMap count) :
    MtcpEpoll count size where
  usrQueue := createEventQueue count size
  usrShadowQueue := createEventQueue count size
  mtcpQueue := createEventQueue count size
  waiting := false
  smap := smap

def MtcpEpoll.queue (ep : MtcpEpoll count size) : EventQueueType → EventQueue count size
  | .usr => ep.usrQueue
  | .usrShadow => ep.usrShadowQueue
  | .mtcp => ep.mtcpQueue

def MtcpEpoll.setQueue (ep : MtcpEpoll count size) (eq : EventQueue count size) :
    EventQueueType → MtcpEpoll count size
  | .usr => { ep with usrQueue := eq }
  | .usrShadow => { ep with usrShadowQueue := eq }
  | .mtcp => { ep with mtcpQueue := eq }

def storeEvent (eq : EventQueue count size) (event : EpollEventInt count) : EventQueue count size :=
  let stored := { eq with events := eq.events.set eq.endIndex.val event eq.endIndex.isLt }
  let kept := if eventQueFull stored then { stored with endIndex := stored.start } else stored
  let moved := { kept with endIndex := next kept.endIndex }
  { moved with numEvents := eventQueLen moved }

def raise (smap : Vector SocketMap count) (sockid : Fin count) (event : UInt32) :
    Vector SocketMap count :=
  smap.set sockid.val { smap[sockid] with events := smap[sockid].events ||| event } sockid.isLt

def clear (smap : Vector SocketMap count) (sockid : Fin count) (event : UInt32) :
    Vector SocketMap count :=
  smap.set sockid.val { smap[sockid] with events := smap[sockid].events &&& ~~~event } sockid.isLt

def addEpollEvent (ep : MtcpEpoll count size) (queueType : EventQueueType) (sockid : Fin count)
    (event : UInt32) : MtcpEpoll count size × Int :=
  if event = 0 then (ep, -1)
  else if ep.smap[sockid].events &&& event ≠ 0 then (ep, 0)
  else if eventQueFull (ep.queue queueType) then (ep, -1)
  else
    let stored := storeEvent (ep.queue queueType)
      { events := event, data := ep.smap[sockid].epData, sockid }
    ({ ep.setQueue stored queueType with smap := raise ep.smap sockid event }, 0)

def flushLoop : Nat → EventQueue count size → EventQueue count size →
    EventQueue count size × EventQueue count size
  | 0, mtcpq, usrq => (mtcpq, usrq)
  | fuel + 1, mtcpq, usrq =>
    if mtcpq.endIndex ≠ mtcpq.start ∧ eventQueFull usrq = false then
      let usrq := { usrq with
        events := usrq.events.set usrq.endIndex.val mtcpq.events[mtcpq.start] usrq.endIndex.isLt
        endIndex := next usrq.endIndex }
      let mtcpq := { mtcpq with start := next mtcpq.start }
      if eventQueFull usrq then flushLoop fuel mtcpq usrq
      else flushLoop fuel { mtcpq with numEvents := eventQueLen mtcpq }
        { usrq with numEvents := eventQueLen usrq }
    else (mtcpq, usrq)

def flushEpollEvents (ep : MtcpEpoll count size) : MtcpEpoll count size × Bool :=
  let (mtcpq, usrq) :=
    if 0 < eventQueLen ep.mtcpQueue then flushLoop size ep.mtcpQueue ep.usrQueue
    else (ep.mtcpQueue, ep.usrQueue)
  ({ ep with mtcpQueue := mtcpq, usrQueue := usrq },
    ep.waiting && (usrq.endIndex ≠ usrq.start || ep.usrShadowQueue.endIndex ≠ ep.usrShadowQueue.start))

def validEvent (smap : Vector SocketMap count) (event : EpollEventInt count) : Bool :=
  smap[event.sockid].socktype ≠ .unused && smap[event.sockid].epoll &&& event.events ≠ 0 &&
    smap[event.sockid].events &&& event.events ≠ 0

def dropEvent (eq : EventQueue count size) : EventQueue count size :=
  let moved := { eq with start := next eq.start }
  let counted := { moved with numEvents := eventQueLen moved }
  if eventQueFull counted then { counted with start := counted.endIndex } else counted

def fetchEvents : Nat → EventQueue count size → Vector SocketMap count → Nat →
    EventQueue count size × Vector SocketMap count × List (EpollEventInt count)
  | 0, eq, smap, _ => (eq, smap, [])
  | fuel + 1, eq, smap, room =>
    if eq.endIndex ≠ eq.start ∧ 0 < room then
      let event := eq.events[eq.start]
      let cleared := clear smap event.sockid event.events
      if validEvent smap event then
        let (rest, smap, events) := fetchEvents fuel (dropEvent eq) cleared (room - 1)
        (rest, smap, event :: events)
      else fetchEvents fuel (dropEvent eq) cleared room
    else (eq, smap, [])

inductive WaitResult (count : Nat) where
  | invalid
  | sleeping
  | returned (events : List (EpollEventInt count))
  deriving Repr, DecidableEq

def mtcpEpollWait (ep : MtcpEpoll count size) (maxevents timeout : Int) :
    MtcpEpoll count size × WaitResult count :=
  if maxevents ≤ 0 then (ep, .invalid)
  else if ep.usrQueue.start = ep.usrQueue.endIndex ∧
      ep.usrShadowQueue.start = ep.usrShadowQueue.endIndex ∧ timeout ≠ 0 then
    ({ ep with waiting := true }, .sleeping)
  else
    let (usrq, smap, events) := fetchEvents size ep.usrQueue ep.smap maxevents.toNat
    let (shadow, smap, shadowEvents) := fetchEvents size ep.usrShadowQueue smap
      (maxevents.toNat - events.length)
    let fetched := { ep with usrQueue := usrq, usrShadowQueue := shadow, smap }
    -- `goto wait`: both queues were emptied without a valid event
    if events ++ shadowEvents = [] ∧ timeout ≠ 0 then ({ fetched with waiting := true }, .sleeping)
    else (fetched, .returned (events ++ shadowEvents))

def wakeEpollWait (ep : MtcpEpoll count size) (maxevents timeout : Int) :
    MtcpEpoll count size × WaitResult count :=
  mtcpEpollWait { ep with waiting := false } maxevents (if 0 < timeout then 0 else timeout)

inductive Call (count : Nat) where
  | add (queueType : EventQueueType) (sockid : Fin count) (event : UInt32)
  | flush
  | wait (maxevents timeout : Int)
  | wake (maxevents timeout : Int)
  | update (sockid : Fin count) (socket : SocketMap)

inductive Result (count : Nat) where
  | added (code : Int)
  | flushed (signal : Bool)
  | waited (result : WaitResult count)
  | updated
  deriving Repr, DecidableEq

def MtcpEpoll.call (ep : MtcpEpoll count size) : Call count → MtcpEpoll count size × Result count
  | .add queueType sockid event =>
    let (next, code) := addEpollEvent ep queueType sockid event
    (next, .added code)
  | .flush =>
    let (next, signal) := flushEpollEvents ep
    (next, .flushed signal)
  | .wait maxevents timeout =>
    let (next, result) := mtcpEpollWait ep maxevents timeout
    (next, .waited result)
  | .wake maxevents timeout =>
    let (next, result) := wakeEpollWait ep maxevents timeout
    (next, .waited result)
  | .update sockid socket =>
    ({ ep with smap := ep.smap.set sockid.val socket sockid.isLt }, .updated)

def MtcpEpoll.run (ep : MtcpEpoll count size) :
    List (Call count) → MtcpEpoll count size × List (Result count)
  | [] => (ep, [])
  | first :: rest =>
    let (next, result) := ep.call first
    let (final, results) := next.run rest
    (final, result :: results)

end Mcc.EventPoll

/-!
The event queues against bounded first-in first-out queues. Adding and fetching follow them for
every size; the length, and with it the flush, only for a power of two.
-/

namespace Mcc.EventPoll

open SerialNumber RingQueue MtcpEpoll

variable {count size : Nat}

def EventQueue.contents (eq : EventQueue count size) : List (EpollEventInt count) :=
  RingQueue.contents eq.events eq.start eq.endIndex

section

variable (eq : EventQueue count size)

theorem full_iff : eventQueFull eq = true ↔ eq.contents.length + 1 = size := by
  rw [eventQueFull, decide_eq_true_eq]
  exact next_eq_start eq.events eq.start eq.endIndex

theorem empty_iff : eq.endIndex = eq.start ↔ eq.contents = [] :=
  (contents_eq_nil eq.events eq.start eq.endIndex).symm

theorem length_lt : eq.contents.length < size :=
  length_contents_lt eq.events eq.start eq.endIndex

theorem contents_create [NeZero count] [NeZero size] : (createEventQueue count size).contents = [] :=
  (empty_iff _).mp rfl

theorem contents_storeEvent (event : EpollEventInt count) (room : eventQueFull eq = false) :
    (storeEvent eq event).contents = eq.contents ++ [event] := by
  have apart : next eq.endIndex ≠ eq.start := by
    simpa [eventQueFull] using room
  have still : eventQueFull { eq with
      events := eq.events.set eq.endIndex.val event eq.endIndex.isLt } = false := room
  simp only [storeEvent, still, Bool.false_eq_true, if_false]
  exact contents_push eq.events eq.start eq.endIndex event apart

theorem contents_dropEvent (pending : eq.endIndex ≠ eq.start) :
    eq.contents = eq.events[eq.start] :: (dropEvent eq).contents := by
  have popped := contents_pop eq.events eq.start eq.endIndex pending
  have room : eventQueFull { eq with start := next eq.start } = false := by
    rw [Bool.eq_false_iff, ne_eq, full_iff]
    have bound := length_lt eq
    simp only [EventQueue.contents, popped, List.length_cons] at bound ⊢
    omega
  have recounted : eventQueFull { eq with
      start := next eq.start
      numEvents := eventQueLen { eq with start := next eq.start } } = false := room
  simp only [dropEvent, recounted, Bool.false_eq_true, if_false]
  exact popped

theorem contents_flushLoop (fuel : Nat) (mtcpq usrq : EventQueue count size)
    (enough : mtcpq.contents.length ≤ fuel) : (flushLoop fuel mtcpq usrq).1.contents =
        mtcpq.contents.drop (size - 1 - usrq.contents.length) ∧
      (flushLoop fuel mtcpq usrq).2.contents =
        usrq.contents ++ mtcpq.contents.take (size - 1 - usrq.contents.length) := by
  induction fuel generalizing mtcpq usrq with
  | zero =>
    have empty : mtcpq.contents = [] := List.length_eq_zero_iff.mp (by omega)
    simp [flushLoop, empty]
  | succ fuel ih =>
    have bound := length_lt usrq
    simp only [flushLoop]
    by_cases moves : mtcpq.endIndex ≠ mtcpq.start ∧ eventQueFull usrq = false
    · obtain ⟨pending, room⟩ := moves
      have popped := contents_pop mtcpq.events mtcpq.start mtcpq.endIndex pending
      have pushed := contents_push usrq.events usrq.start usrq.endIndex
        mtcpq.events[mtcpq.start] (by simpa [eventQueFull] using room)
      have space : usrq.contents.length + 1 ≠ size := by
        rw [ne_eq, ← full_iff, room]
        decide
      have left : size - 1 - usrq.contents.length = size - 1 - (usrq.contents.length + 1) + 1 := by omega
      have step : ∀ mtcpNext usrNext : EventQueue count size,
          mtcpq.contents = mtcpq.events[mtcpq.start] :: mtcpNext.contents →
          usrNext.contents = usrq.contents ++ [mtcpq.events[mtcpq.start]] →
          (flushLoop fuel mtcpNext usrNext).1.contents =
              mtcpq.contents.drop (size - 1 - usrq.contents.length) ∧
            (flushLoop fuel mtcpNext usrNext).2.contents =
              usrq.contents ++ mtcpq.contents.take (size - 1 - usrq.contents.length) := by
        intro mtcpNext usrNext taken stored
        rw [taken, List.length_cons] at enough
        obtain ⟨rest, moved⟩ := ih mtcpNext usrNext (by omega)
        rw [rest, moved, stored, taken, left]
        simp
      rw [if_pos ⟨pending, room⟩]
      split
      · exact step _ _ popped pushed
      · exact step _ _ popped pushed
    · rw [if_neg moves]
      by_cases empty : mtcpq.endIndex = mtcpq.start
      · rw [empty_iff] at empty
        simp [empty]
      · have full : eventQueFull usrq = true := by
          by_contra notFull
          exact moves ⟨empty, Bool.eq_false_iff.mpr notFull⟩
        rw [full_iff] at full
        have nothing : size - 1 - usrq.contents.length = 0 := by omega
        simp [nothing]

def fetchFifo : List (EpollEventInt count) → Vector SocketMap count → Nat →
    List (EpollEventInt count) × Vector SocketMap count × List (EpollEventInt count)
  | [], smap, _ => ([], smap, [])
  | event :: rest, smap, room =>
    if room = 0 then (event :: rest, smap, [])
    else
      let cleared := clear smap event.sockid event.events
      if validEvent smap event then
        let (rest, smap, events) := fetchFifo rest cleared (room - 1)
        (rest, smap, event :: events)
      else fetchFifo rest cleared room

theorem fetchEvents_fifo (fuel : Nat) (eq : EventQueue count size) (smap : Vector SocketMap count)
    (room : Nat) (enough : eq.contents.length ≤ fuel) :
    (fetchEvents fuel eq smap room).1.contents = (fetchFifo eq.contents smap room).1 ∧
      (fetchEvents fuel eq smap room).2 = (fetchFifo eq.contents smap room).2 := by
  induction fuel generalizing eq smap room with
  | zero =>
    have empty : eq.contents = [] := List.length_eq_zero_iff.mp (by omega)
    simp [fetchEvents, fetchFifo, empty]
  | succ fuel ih =>
    simp only [fetchEvents]
    by_cases empty : eq.endIndex = eq.start
    · have nothing := (empty_iff eq).mp empty
      simp [empty, fetchFifo, nothing]
    · have dropped := contents_dropEvent eq empty
      rcases Nat.eq_zero_or_pos room with full | space
      · subst full
        simp [dropped, fetchFifo]
      · rw [dropped, List.length_cons] at enough
        rw [if_pos ⟨empty, space⟩, dropped]
        simp only [fetchFifo, if_neg (Nat.ne_of_gt space)]
        split
        · obtain ⟨rest, fetched⟩ := ih (dropEvent eq)
            (clear smap eq.events[eq.start].sockid eq.events[eq.start].events) (room - 1) (by omega)
          simp only [rest, fetched, and_self]
        · exact ih (dropEvent eq) _ room (by omega)

theorem eventQueLen_and (bounded : size < 2 ^ 31) :
    eventQueLen eq = ((if eq.start.val ≤ eq.endIndex.val then eq.endIndex.val - eq.start.val
      else 2 ^ 32 - (eq.start.val - eq.endIndex.val)) &&& (size - 1) : Nat) := by
  have startBound := eq.start.isLt
  have endBound := eq.endIndex.isLt
  have mask : (UInt32.ofInt ((size : Int) - 1)).toNat = size - 1 := by
    simp only [UInt32.ofInt, UInt32.toNat_ofNat']
    omega
  have difference : (UInt32.ofInt ((eq.endIndex.val : Int) - eq.start.val)).toNat =
      if eq.start.val ≤ eq.endIndex.val then eq.endIndex.val - eq.start.val
      else 2 ^ 32 - (eq.start.val - eq.endIndex.val) := by
    simp only [UInt32.ofInt, UInt32.toNat_ofNat']
    split <;> omega
  have small := Nat.and_le_right (n := (UInt32.ofInt ((eq.endIndex.val : Int) - eq.start.val)).toNat)
    (m := size - 1)
  rw [eventQueLen, signed, UInt32.toNat_and, mask, if_pos (by omega), difference]

theorem eventQueLen_power (bounded : size < 2 ^ 31) {bits : Nat}
    (power : size = 2 ^ bits) : eventQueLen eq = eq.contents.length := by
  have startBound := eq.start.isLt
  have endBound := eq.endIndex.isLt
  have few : bits ≤ 32 := by
    by_contra many
    have large := Nat.pow_le_pow_right (by decide : 0 < 2) (Nat.le_of_lt (Nat.not_le.mp many))
    omega
  obtain ⟨rest, whole⟩ := Nat.pow_dvd_pow 2 few
  rw [eventQueLen_and eq bounded, EventQueue.contents, length_contents, distance_eq]
  rw [← power] at whole
  congr 1
  rw [show size - 1 = 2 ^ bits - 1 by rw [power], Nat.and_two_pow_sub_one_eq_mod, ← power]
  split
  · exact Nat.mod_eq_of_lt (by omega)
  · obtain ⟨less, rfl⟩ : ∃ less, rest = less + 1 := ⟨rest - 1, by
      rcases rest with _ | less
      · omega
      · rfl⟩
    rw [whole, Nat.mul_succ, show size * less + size - (eq.start.val - eq.endIndex.val) =
      size * less + (eq.endIndex.val + size - eq.start.val) by omega, Nat.mul_add_mod]
    exact Nat.mod_eq_of_lt (by omega)

end

structure EpollSpec (count : Nat) where
  usr : List (EpollEventInt count)
  usrShadow : List (EpollEventInt count)
  mtcp : List (EpollEventInt count)
  waiting : Bool
  smap : Vector SocketMap count

namespace EpollSpec

def queue (spec : EpollSpec count) : EventQueueType → List (EpollEventInt count)
  | .usr => spec.usr
  | .usrShadow => spec.usrShadow
  | .mtcp => spec.mtcp

def setQueue (spec : EpollSpec count) (queue : List (EpollEventInt count)) :
    EventQueueType → EpollSpec count
  | .usr => { spec with usr := queue }
  | .usrShadow => { spec with usrShadow := queue }
  | .mtcp => { spec with mtcp := queue }

def add (size : Nat) (spec : EpollSpec count) (queueType : EventQueueType)
    (sockid : Fin count) (event : UInt32) : EpollSpec count × Int :=
  if event = 0 then (spec, -1)
  else if spec.smap[sockid].events &&& event ≠ 0 then (spec, 0)
  else if (spec.queue queueType).length + 1 = size then (spec, -1)
  else
    let queue := spec.queue queueType ++
      [{ events := event, data := spec.smap[sockid].epData, sockid }]
    ({ spec.setQueue queue queueType with smap := raise spec.smap sockid event }, 0)

def flush (size : Nat) (spec : EpollSpec count) : EpollSpec count × Bool :=
  let room := size - 1 - spec.usr.length
  let usr := spec.usr ++ spec.mtcp.take room
  ({ spec with mtcp := spec.mtcp.drop room, usr }, spec.waiting && (usr ≠ [] || spec.usrShadow ≠ []))

def wait (spec : EpollSpec count) (maxevents timeout : Int) :
    EpollSpec count × WaitResult count :=
  if maxevents ≤ 0 then (spec, .invalid)
  else if spec.usr = [] ∧ spec.usrShadow = [] ∧ timeout ≠ 0 then
    ({ spec with waiting := true }, .sleeping)
  else
    let (usr, smap, events) := fetchFifo spec.usr spec.smap maxevents.toNat
    let (usrShadow, smap, shadowEvents) := fetchFifo spec.usrShadow smap
      (maxevents.toNat - events.length)
    let fetched := { spec with usr, usrShadow, smap }
    if events ++ shadowEvents = [] ∧ timeout ≠ 0 then ({ fetched with waiting := true }, .sleeping)
    else (fetched, .returned (events ++ shadowEvents))

def call (size : Nat) (spec : EpollSpec count) :
    Call count → EpollSpec count × Result count
  | .add queueType sockid event =>
    let (next, code) := spec.add size queueType sockid event
    (next, .added code)
  | .flush =>
    let (next, signal) := spec.flush size
    (next, .flushed signal)
  | .wait maxevents timeout =>
    let (next, result) := spec.wait maxevents timeout
    (next, .waited result)
  | .wake maxevents timeout =>
    let (next, result) := EpollSpec.wait { spec with waiting := false } maxevents
      (if 0 < timeout then 0 else timeout)
    (next, .waited result)
  | .update sockid socket =>
    ({ spec with smap := spec.smap.set sockid.val socket sockid.isLt }, .updated)

def run (size : Nat) (spec : EpollSpec count) :
    List (Call count) → EpollSpec count × List (Result count)
  | [] => (spec, [])
  | first :: rest =>
    let (next, result) := spec.call size first
    let (final, results) := next.run size rest
    (final, result :: results)

end EpollSpec

@[reducible]
def MtcpEpoll.spec (ep : MtcpEpoll count size) : EpollSpec count where
  usr := ep.usrQueue.contents
  usrShadow := ep.usrShadowQueue.contents
  mtcp := ep.mtcpQueue.contents
  waiting := ep.waiting
  smap := ep.smap

section

variable (ep : MtcpEpoll count size)

theorem queue_spec (queueType : EventQueueType) :
    ep.spec.queue queueType = (ep.queue queueType).contents := by
  cases queueType <;> rfl

theorem addEpollEvent_spec (queueType : EventQueueType) (sockid : Fin count) (event : UInt32) :
    ((addEpollEvent ep queueType sockid event).1.spec, (addEpollEvent ep queueType sockid event).2) =
      ep.spec.add size queueType sockid event := by
  simp only [addEpollEvent, EpollSpec.add, queue_spec]
  by_cases zero : event = 0
  · simp [zero]
  rw [if_neg zero, if_neg zero]
  by_cases raised : ep.smap[sockid].events &&& event ≠ 0
  · rw [if_pos raised, if_pos raised]
  rw [if_neg raised, if_neg raised]
  by_cases full : eventQueFull (ep.queue queueType) = true
  · rw [if_pos full, if_pos ((full_iff _).mp full)]
  · rw [if_neg full, if_neg (fun same => full ((full_iff _).mpr same))]
    have stored := contents_storeEvent (ep.queue queueType)
      { events := event, data := ep.smap[sockid].epData, sockid } (Bool.eq_false_iff.mpr full)
    rw [← stored]
    cases queueType <;> rfl

theorem flushEpollEvents_spec (counted : eventQueLen ep.mtcpQueue = ep.mtcpQueue.contents.length) :
    ((flushEpollEvents ep).1.spec, (flushEpollEvents ep).2) = ep.spec.flush size := by
  have bound := length_lt ep.mtcpQueue
  obtain ⟨rest, moved⟩ := contents_flushLoop size ep.mtcpQueue ep.usrQueue (by omega)
  generalize flushedEq : (if 0 < eventQueLen ep.mtcpQueue then
    flushLoop size ep.mtcpQueue ep.usrQueue else (ep.mtcpQueue, ep.usrQueue)) = flushed
  have contents : flushed.1.contents =
        ep.mtcpQueue.contents.drop (size - 1 - ep.usrQueue.contents.length) ∧
      flushed.2.contents = ep.usrQueue.contents ++
        ep.mtcpQueue.contents.take (size - 1 - ep.usrQueue.contents.length) := by
    rw [← flushedEq]
    split
    · exact ⟨rest, moved⟩
    · have empty : ep.mtcpQueue.contents = [] := List.length_eq_zero_iff.mp (by omega)
      simp [empty]
  refine Prod.ext ?_ ?_
  · simp only [flushEpollEvents, flushedEq, EpollSpec.flush, spec, contents.1, contents.2]
  · rw [Bool.eq_iff_iff]
    simp only [flushEpollEvents, flushedEq, EpollSpec.flush, Bool.and_eq_true, Bool.or_eq_true,
      decide_eq_true_eq, ne_eq, empty_iff, contents.2]

theorem mtcpEpollWait_spec (maxevents timeout : Int) :
    ((mtcpEpollWait ep maxevents timeout).1.spec, (mtcpEpollWait ep maxevents timeout).2) =
      ep.spec.wait maxevents timeout := by
  have usrBound := length_lt ep.usrQueue
  have shadowBound := length_lt ep.usrShadowQueue
  have usrEmpty := empty_iff ep.usrQueue
  have shadowEmpty := empty_iff ep.usrShadowQueue
  obtain ⟨usrRest, usrFetched⟩ :=
    fetchEvents_fifo size ep.usrQueue ep.smap maxevents.toNat (by omega)
  obtain ⟨shadowRest, shadowFetched⟩ :=
    fetchEvents_fifo size ep.usrShadowQueue (fetchFifo ep.usrQueue.contents ep.smap maxevents.toNat).2.1
      (maxevents.toNat - (fetchFifo ep.usrQueue.contents ep.smap maxevents.toNat).2.2.length) (by omega)
  simp only [mtcpEpollWait, EpollSpec.wait, spec, usrFetched, shadowFetched,
    eq_comm (a := ep.usrQueue.start), eq_comm (a := ep.usrShadowQueue.start), usrEmpty, shadowEmpty]
  by_cases invalid : maxevents ≤ 0
  · rw [if_pos invalid, if_pos invalid]
  rw [if_neg invalid, if_neg invalid]
  by_cases empty : ep.usrQueue.contents = [] ∧ ep.usrShadowQueue.contents = [] ∧ timeout ≠ 0
  · rw [if_pos empty, if_pos empty]
  rw [if_neg empty, if_neg empty]
  split
  · simp only [usrRest, shadowRest]
  · simp only [usrRest, shadowRest]

theorem call_spec (call : Call count)
    (counted : eventQueLen ep.mtcpQueue = ep.mtcpQueue.contents.length) :
    ((ep.call call).1.spec, (ep.call call).2) = ep.spec.call size call := by
  cases call with
  | add queueType sockid event =>
    simp only [MtcpEpoll.call, EpollSpec.call, ← addEpollEvent_spec]
  | flush =>
    simp only [MtcpEpoll.call, EpollSpec.call, ← flushEpollEvents_spec ep counted]
  | wait maxevents timeout =>
    simp only [MtcpEpoll.call, EpollSpec.call, ← mtcpEpollWait_spec]
  | wake maxevents timeout =>
    have waited := mtcpEpollWait_spec { ep with waiting := false } maxevents
      (if 0 < timeout then 0 else timeout)
    simp only [MtcpEpoll.call, wakeEpollWait, EpollSpec.call]
    rw [← show spec { ep with waiting := false } = { ep.spec with waiting := false } from rfl, ← waited]
  | update sockid socket => rfl

end

theorem run_spec (bounded : size < 2 ^ 31) {bits : Nat} (power : size = 2 ^ bits)
    (ep : MtcpEpoll count size) (calls : List (Call count)) :
    ((ep.run calls).1.spec, (ep.run calls).2) = ep.spec.run size calls := by
  induction calls generalizing ep with
  | nil => rfl
  | cons first rest ih =>
    have called := call_spec ep first (eventQueLen_power ep.mtcpQueue bounded power)
    have ran := ih (ep.call first).1
    simp only [MtcpEpoll.run, EpollSpec.run, ← called, ← ran]

def EpollSpec.create (smap : Vector SocketMap count) : EpollSpec count where
  usr := []
  usrShadow := []
  mtcp := []
  waiting := false
  smap := smap

structure Refines (count size : Nat) [NeZero count] [NeZero size] (smap : Vector SocketMap count)
    (calls : List (Call count)) : Prop where
  results : ((mtcpEpollCreate count size smap).run calls).2 = ((EpollSpec.create smap).run size calls).2
  queues : ∀ queueType, (((mtcpEpollCreate count size smap).run calls).1.queue queueType).contents =
    ((EpollSpec.create smap).run size calls).1.queue queueType
  capacity : ∀ queueType, (((EpollSpec.create smap).run size calls).1.queue queueType).length ≤ size - 1
  counted : ∀ queueType, eventQueLen (((mtcpEpollCreate count size smap).run calls).1.queue queueType) =
    (((EpollSpec.create smap).run size calls).1.queue queueType).length
  flushed : (flushEpollEvents ((mtcpEpollCreate count size smap).run calls).1).1.mtcpQueue.endIndex =
      (flushEpollEvents ((mtcpEpollCreate count size smap).run calls).1).1.mtcpQueue.start ∨
    eventQueFull (flushEpollEvents ((mtcpEpollCreate count size smap).run calls).1).1.usrQueue = true

theorem spec_create [NeZero count] [NeZero size] (smap : Vector SocketMap count) :
    (mtcpEpollCreate count size smap).spec = EpollSpec.create smap := by
  simp only [spec, mtcpEpollCreate, contents_create, EpollSpec.create]

theorem refines_of_power [NeZero count] [NeZero size] (bounded : size < 2 ^ 31) {bits : Nat}
    (power : size = 2 ^ bits) (smap : Vector SocketMap count) (calls : List (Call count)) :
    Refines count size smap calls := by
  have ran := run_spec bounded power (mtcpEpollCreate count size smap) calls
  rw [spec_create] at ran
  have queues : ∀ queueType,
      (((mtcpEpollCreate count size smap).run calls).1.queue queueType).contents =
        ((EpollSpec.create smap).run size calls).1.queue queueType := by
    intro queueType
    rw [← queue_spec, ← ran]
  constructor
  · rw [← ran]
  · exact queues
  · intro queueType
    have bound := length_lt (((mtcpEpollCreate count size smap).run calls).1.queue queueType)
    rw [queues] at bound
    omega
  · intro queueType
    rw [eventQueLen_power _ bounded power, queues]
  · generalize ((mtcpEpollCreate count size smap).run calls).1 = ep
    have flushed := congrArg Prod.fst
      (flushEpollEvents_spec ep (eventQueLen_power ep.mtcpQueue bounded power))
    have mtcp := congrArg EpollSpec.mtcp flushed
    have usr := congrArg EpollSpec.usr flushed
    simp only [EpollSpec.flush] at mtcp usr
    have bound := length_lt ep.usrQueue
    rw [empty_iff, full_iff, mtcp, usr, List.length_append, List.length_take]
    by_cases fits : ep.mtcpQueue.contents.length ≤ size - 1 - ep.usrQueue.contents.length
    · left
      exact List.drop_eq_nil_of_le fits
    · right
      omega

theorem succ_eq_power (number : Nat) (full : ∀ bit, 2 ^ bit ≤ number → number.testBit bit = true) :
    ∃ bits, number + 1 = 2 ^ bits := by
  refine ⟨number.size, ?_⟩
  have same : number = 2 ^ number.size - 1 := by
    apply Nat.eq_of_testBit_eq
    intro bit
    rw [Nat.testBit_two_pow_sub_one]
    by_cases low : bit < number.size
    · rw [full bit (Nat.lt_size.mp low), decide_eq_true low]
    · rw [Nat.testBit_lt_two_pow (Nat.size_le.mp (Nat.not_lt.mp low)), decide_eq_false low]
  have positive := Nat.two_pow_pos number.size
  omega

def eventKind (index : Nat) : UInt32 :=
  if index % 3 = 0 then 1 else if index % 3 = 1 then 2 else 4

def addNth (count : Nat) [NeZero count] (index : Nat) : Call count :=
  .add .mtcp (Fin.ofNat count (index / 3)) (eventKind index)

theorem eventKind_ne_zero (index : Nat) : eventKind index ≠ 0 := by
  simp only [eventKind]
  split
  · decide
  · split <;> decide

theorem eventKind_and (first second : Nat) (different : first % 3 ≠ second % 3) :
    eventKind first &&& eventKind second = 0 := by
  have firstKind : first % 3 = 0 ∨ first % 3 = 1 ∨ first % 3 = 2 := by omega
  have secondKind : second % 3 = 0 ∨ second % 3 = 1 ∨ second % 3 = 2 := by omega
  rcases firstKind with kind | kind | kind <;> rcases secondKind with other | other | other <;>
    simp only [eventKind, kind, other] at different ⊢ <;> first | contradiction | decide

theorem or_and_eq_zero (first second mask : UInt32) (firstClear : first &&& mask = 0)
    (secondClear : second &&& mask = 0) : (first ||| second) &&& mask = 0 := by
  apply UInt32.toBitVec_inj.mp
  rw [UInt32.toBitVec_and, UInt32.toBitVec_or, BitVec.and_or_distrib_right, ← UInt32.toBitVec_and,
    ← UInt32.toBitVec_and, firstClear, secondClear]
  rfl

structure Filled [NeZero size] (ep : MtcpEpoll count size) (index : Nat) : Prop where
  start : ep.mtcpQueue.start = 0
  endIndex : ep.mtcpQueue.endIndex.val = index
  unraised : ∀ (sockid : Fin count) later, index ≤ later → sockid.val = later / 3 →
    ep.smap[sockid].events &&& eventKind later = 0

theorem addNth_filled [NeZero count] [NeZero size] (sockets : size ≤ 3 * count)
    {ep : MtcpEpoll count size} {index : Nat} (filled : Filled ep index) (room : index + 1 < size) :
    Filled (ep.call (addNth count index)).1 (index + 1) := by
  have sockid : (Fin.ofNat count (index / 3)).val = index / 3 := by
    simp only [Fin.ofNat]
    exact Nat.mod_eq_of_lt (by omega)
  simp only [addNth, call]
  generalize Fin.ofNat count (index / 3) = socket at sockid ⊢
  have unraised := filled.unraised socket index (Nat.le_refl _) sockid
  have advanced : (next ep.mtcpQueue.endIndex).val = index + 1 := by
    rw [val_next, filled.endIndex, if_neg (by omega)]
  have space : next ep.mtcpQueue.endIndex ≠ 0 := by
    intro same
    have value := congrArg Fin.val same
    simp only [advanced, Fin.val_zero] at value
    omega
  have notFull : eventQueFull ep.mtcpQueue = false := by
    simp [eventQueFull, filled.start, space]
  have stillNotFull : eventQueFull { ep.mtcpQueue with
      events := ep.mtcpQueue.events.set ep.mtcpQueue.endIndex.val
        { events := eventKind index, data := ep.smap[socket].epData, sockid := socket }
        ep.mtcpQueue.endIndex.isLt } = false := notFull
  simp only [addEpollEvent, if_neg (eventKind_ne_zero index), unraised, ne_eq, not_true, if_false,
    queue, notFull, Bool.false_eq_true, setQueue, storeEvent, stillNotFull]
  constructor
  · exact filled.start
  · exact advanced
  · intro other later after place
    have before := filled.unraised other later (by omega) place
    by_cases same : other = socket
    · subst same
      have different : index % 3 ≠ later % 3 := by omega
      simp only [raise, Fin.getElem_fin, Vector.getElem_set_self]
      exact or_and_eq_zero _ _ _ before (eventKind_and index later different)
    · have apart : socket.val ≠ other.val := fun equal => same (Fin.ext equal.symm)
      simp only [raise, Fin.getElem_fin, Vector.getElem_set_ne _ _ apart]
      exact before

theorem fill_filled [NeZero count] [NeZero size] (sockets : size ≤ 3 * count) (added : Nat)
    {ep : MtcpEpoll count size} {index : Nat} (filled : Filled ep index) (room : index + added < size) :
    Filled (ep.run ((List.range' index added).map (addNth count))).1 (index + added) := by
  induction added generalizing ep index with
  | zero => exact filled
  | succ added ih =>
    have next := ih (addNth_filled sockets filled (by omega)) (by omega)
    rw [show index + 1 + added = index + (added + 1) by omega] at next
    exact next

theorem power_of_refines [NeZero count] [NeZero size] (bounded : size < 2 ^ 31)
    (sockets : size ≤ 3 * count)
    (refines : ∀ smap calls, Refines count size smap calls) : ∃ bits, size = 2 ^ bits := by
  have positive := Nat.pos_of_neZero size
  obtain ⟨bits, power⟩ := succ_eq_power (size - 1) (by
    intro bit below
    by_contra unset
    let smap : Vector SocketMap count :=
      Vector.replicate count { socktype := .stream, epoll := 0, events := 0, epData := 0 }
    let calls := (List.range' 0 (2 ^ bit)).map (addNth count)
    have empty : Filled (mtcpEpollCreate count size smap) 0 := by
      constructor
      · rfl
      · rfl
      · intro sockid later _ _
        simp [mtcpEpollCreate, smap]
    have filled := fill_filled sockets (2 ^ bit) empty (by omega)
    have counted := (refines smap calls).counted .mtcp
    rw [← (refines smap calls).queues] at counted
    simp only [queue] at counted
    rw [eventQueLen_and _ bounded, EventQueue.contents, length_contents, distance_eq, filled.start,
      filled.endIndex, Nat.zero_add, Fin.val_zero, if_pos (Nat.zero_le _), if_pos (Nat.zero_le _),
      Nat.sub_zero, Nat.two_pow_and, Bool.eq_false_iff.mpr unset] at counted
    have above := Nat.two_pow_pos bit
    simp only [Bool.toNat_false, Nat.mul_zero] at counted
    omega)
  exact ⟨bits, by omega⟩

theorem three_mul_ne_power (factor bits : Nat) : 3 * factor ≠ 2 ^ bits := by
  intro same
  have divides : 3 ∣ 2 ^ bits := ⟨factor, same.symm⟩
  have small := Nat.prime_three.dvd_of_dvd_pow divides
  omega

/-- The queues count and flush their events rightly exactly when their size is a power of two, which
that of `mtcp_epoll_create1` never is. -/
theorem epoll_refines_iff (count size : Nat) [NeZero count] [NeZero size] (bounded : size < 2 ^ 31)
    (sockets : size ≤ 3 * count) :
    ((∀ smap calls, Refines count size smap calls) ↔ ∃ bits, size = 2 ^ bits) ∧
      (size = 3 * count → ¬∀ smap calls, Refines count size smap calls) := by
  have onlyPower := @power_of_refines count size _ _ bounded sockets
  refine ⟨⟨onlyPower, ?_⟩, ?_⟩
  · rintro ⟨bits, power⟩ smap calls
    exact refines_of_power bounded power smap calls
  · intro created refines
    obtain ⟨bits, power⟩ := onlyPower refines
    exact three_mul_ne_power count bits (created.symm.trans power)

theorem epoll_refines_four : Refines 2 4
    (Vector.replicate 2 { socktype := .stream, epoll := 1, events := 0, epData := 0 })
    [.add .mtcp 0 1, .flush, .add .mtcp 1 1, .wait 8 0] :=
  ((epoll_refines_iff 2 4 (by decide) (by decide)).1.mpr ⟨2, rfl⟩) _ _

theorem epoll_first_event_lost : ¬Refines 1 3
    (Vector.replicate 1 { socktype := .stream, epoll := 1, events := 0, epData := 0 })
    [.add .mtcp 0 1] := by
  intro refines
  exact absurd refines.flushed (by decide)

end Mcc.EventPoll

/-!
The socket map together with the event queues: allocation and release of socket ids, registration
with `mtcp_epoll_ctl`, and which registration and which connection a delivered event belongs to.
-/

namespace Mcc.EventPoll

variable {count size : Nat}

def epollIn : UInt32 := 0x001

def epollOut : UInt32 := 0x004

def epollErr : UInt32 := 0x008

def epollHup : UInt32 := 0x010

/-- `owner` counts the allocations of a socket id and so names the connection that has it; `owners`
gives the connection of every queued event. -/
structure Sockets (count size : Nat) where
  ep : MtcpEpoll count size
  freeSmap : List (Fin count)
  owner : Vector Nat count
  owners : EventQueueType → List Nat

open Sockets
open List (append_assoc rel_append)

namespace Sockets

def create (count size : Nat) [NeZero count] [NeZero size] : Sockets count size where
  ep := mtcpEpollCreate count size
    (Vector.replicate count { socktype := .unused, epoll := 0, events := 0, epData := 0 })
  freeSmap := List.finRange count
  owner := Vector.replicate count 0
  owners := fun _ => []

def socket (s : Sockets count size) (sockid : Fin count) : SocketMap := s.ep.smap[sockid]

def setSocket (s : Sockets count size) (sockid : Fin count) (socket : SocketMap) :
    Sockets count size :=
  { s with ep := { s.ep with smap := s.ep.smap.set sockid.val socket sockid.isLt } }

/-- The loop of `AllocateSocket`, which puts a socket that has events left behind the others. If all
of them had, it would not end. -/
def firstFree (smap : Vector SocketMap count) :
    Nat → List (Fin count) → Option (Fin count × List (Fin count))
  | fuel + 1, sockid :: rest =>
    if smap[sockid].events = 0 then some (sockid, rest)
    else firstFree smap fuel (rest ++ [sockid])
  | _, _ => none

def allocateSocket (s : Sockets count size) (socktype : SocketType) : Sockets count size :=
  match firstFree s.ep.smap s.freeSmap.length s.freeSmap with
  | none => s
  | some (sockid, rest) =>
    { s.setSocket sockid { socktype, epoll := 0, events := 0, epData := 0 } with
      freeSmap := rest
      owner := s.owner.set sockid.val (s.owner[sockid] + 1) sockid.isLt }

def freeSocket (s : Sockets count size) (sockid : Fin count) : Sockets count size :=
  if (s.socket sockid).socktype = .unused then s
  else
    { s.setSocket sockid { s.socket sockid with socktype := .unused, epoll := 0, events := 0 } with
      freeSmap := s.freeSmap ++ [sockid] }

def stores (s : Sockets count size) (queueType : EventQueueType) (sockid : Fin count)
    (event : UInt32) : Bool :=
  event ≠ 0 && (s.socket sockid).events &&& event = 0 && !eventQueFull (s.ep.queue queueType)

def raiseEvent (s : Sockets count size) (queueType : EventQueueType) (sockid : Fin count)
    (raisedFor : Nat) (event : UInt32) : Sockets count size :=
  { s with
    ep := (addEpollEvent s.ep queueType sockid event).1
    owners :=
      if s.stores queueType sockid event then
        Function.update s.owners queueType (s.owners queueType ++ [raisedFor])
      else s.owners }

def raisePendingEvents (s : Sockets count size) (sockid : Fin count) (readable writable : Bool) :
    Sockets count size :=
  let s :=
    if (s.socket sockid).epoll &&& epollIn ≠ 0 ∧ readable then
      s.raiseEvent .usrShadow sockid s.owner[sockid] epollIn
    else s
  if (s.socket sockid).epoll &&& epollOut ≠ 0 ∧ writable then
    s.raiseEvent .usrShadow sockid s.owner[sockid] epollOut
  else s

def register (s : Sockets count size) (sockid : Fin count) (events : UInt32) (data : UInt64)
    (readable writable : Bool) : Sockets count size :=
  let s := s.setSocket sockid
    { s.socket sockid with epoll := events ||| (epollErr ||| epollHup), epData := data }
  if (s.socket sockid).socktype = .stream ∨ (s.socket sockid).socktype = .pipe then
    s.raisePendingEvents sockid readable writable
  else s

end Sockets

inductive CtlOp where
  | add
  | mod
  | del
  deriving Repr, DecidableEq

namespace Sockets

def mtcpEpollCtl (s : Sockets count size) (op : CtlOp) (sockid : Fin count) (events : UInt32)
    (data : UInt64) (readable writable : Bool) : Sockets count size × Int :=
  match op with
  | .add =>
    if (s.socket sockid).epoll ≠ 0 then (s, -1)
    else (s.register sockid events data readable writable, 0)
  | .mod =>
    if (s.socket sockid).epoll = 0 then (s, -1)
    else (s.register sockid events data readable writable, 0)
  | .del =>
    if (s.socket sockid).epoll = 0 then (s, -1)
    else (s.setSocket sockid { s.socket sockid with epoll := 0 }, 0)

def flush (s : Sockets count size) : Sockets count size :=
  let ep := (flushEpollEvents s.ep).1
  let moved := s.ep.spec.mtcp.length - ep.spec.mtcp.length
  { s with
    ep
    owners := fun
      | .usr => s.owners .usr ++ (s.owners .mtcp).take moved
      | .usrShadow => s.owners .usrShadow
      | .mtcp => (s.owners .mtcp).drop moved }

def fetched (s : Sockets count size) (ep : MtcpEpoll count size) : Sockets count size :=
  { s with
    ep
    owners := fun queueType =>
      (s.owners queueType).drop
        ((s.ep.spec.queue queueType).length - (ep.spec.queue queueType).length) }

end Sockets

def fetchOwners : List (EpollEventInt count) → List Nat → Vector SocketMap count → Nat → List Nat
  | event :: rest, owner :: owners, smap, room =>
    if room = 0 then []
    else
      let cleared := clear smap event.sockid event.events
      if validEvent smap event then owner :: fetchOwners rest owners cleared (room - 1)
      else fetchOwners rest owners cleared room
  | _, _, _, _ => []

namespace Sockets

def returnedOwners (s : Sockets count size) (maxevents : Int) : List Nat :=
  let first := fetchFifo s.ep.spec.usr s.ep.smap maxevents.toNat
  fetchOwners s.ep.spec.usr (s.owners .usr) s.ep.smap maxevents.toNat ++
    fetchOwners s.ep.spec.usrShadow (s.owners .usrShadow) first.2.1
      (maxevents.toNat - first.2.2.length)

end Sockets

inductive Operation (count : Nat) where
  | allocate (socktype : SocketType)
  | ctl (op : CtlOp) (sockid : Fin count) (events : UInt32) (data : UInt64)
      (readable writable : Bool)
  | raise (queueType : EventQueueType) (sockid : Fin count) (raisedFor : Nat) (event : UInt32)
  | flush
  | wait (maxevents timeout : Int)
  | wake (maxevents timeout : Int)
  | close (sockid : Fin count)

namespace Sockets

def step (s : Sockets count size) : Operation count → Sockets count size
  | .allocate socktype => s.allocateSocket socktype
  | .ctl op sockid events data readable writable =>
    (s.mtcpEpollCtl op sockid events data readable writable).1
  | .raise queueType sockid raisedFor event => s.raiseEvent queueType sockid raisedFor event
  | .flush => s.flush
  | .wait maxevents timeout => s.fetched (mtcpEpollWait s.ep maxevents timeout).1
  | .wake maxevents timeout => s.fetched (wakeEpollWait s.ep maxevents timeout).1
  | .close sockid => s.freeSocket sockid

def run (s : Sockets count size) (operations : List (Operation count)) : Sockets count size :=
  operations.foldl step s

end Sockets

def WaitResult.events : WaitResult count → List (EpollEventInt count)
  | .returned events => events
  | _ => []

def Sockets.returned (s : Sockets count size) : Operation count → List (EpollEventInt count)
  | .wait maxevents timeout => (mtcpEpollWait s.ep maxevents timeout).2.events
  | .wake maxevents timeout => (wakeEpollWait s.ep maxevents timeout).2.events
  | _ => []

def Sockets.returnedFor (s : Sockets count size) : Operation count → List Nat
  | .wait maxevents _ => s.returnedOwners maxevents
  | .wake maxevents _ => s.returnedOwners maxevents
  | _ => []

def hasBit (events : UInt32) (bit : Nat) : Bool := events.toBitVec.getLsbD bit

theorem hasBit_or (events event : UInt32) (bit : Nat) :
    hasBit (events ||| event) bit = (hasBit events bit || hasBit event bit) := by
  simp [hasBit]

theorem hasBit_clear (events event : UInt32) (bit : Nat) :
    hasBit (events &&& ~~~event) bit = (hasBit events bit && !hasBit event bit) := by
  by_cases inside : bit < 32
  · simp [hasBit, inside]
  · simp [hasBit, BitVec.getLsbD_of_ge _ _ (Nat.not_lt.mp inside)]

theorem hasBit_zero (bit : Nat) : hasBit 0 bit = false := by
  simp [hasBit]

theorem not_hasBit_of_and {events event} (apart : events &&& event = 0) {bit}
    (raised : hasBit event bit) : hasBit events bit = false := by
  have both : hasBit (events &&& event) bit = false := by rw [apart, hasBit_zero]
  simp only [hasBit, UInt32.toBitVec_and, BitVec.getLsbD_and] at both raised ⊢
  simpa [raised] using both

theorem eq_zero_of_hasBit {events} (clear : ∀ bit, hasBit events bit = false) : events = 0 := by
  apply UInt32.toBitVec_inj.mp
  apply BitVec.eq_of_getLsbD_eq
  intro bit _
  simpa [hasBit] using clear bit

def EpollEventInt.isFor (sockid : Fin count) (bit : Nat) (entry : EpollEventInt count) : Bool :=
  entry.sockid = sockid && hasBit entry.events bit

open EpollEventInt

def Balanced (smap : Vector SocketMap count) (entries : List (EpollEventInt count)) : Prop :=
  ∀ (sockid : Fin count) bit,
    entries.countP (EpollEventInt.isFor sockid bit) = if hasBit smap[sockid].events bit then 1 else 0

def EpollSpec.entries (spec : EpollSpec count) : List (EpollEventInt count) :=
  spec.usr ++ (spec.usrShadow ++ spec.mtcp)

open EpollSpec

variable {smap : Vector SocketMap count} {entries : List (EpollEventInt count)}

theorem Balanced.perm {others} (balanced : Balanced smap entries)
    (same : entries.Perm others) : Balanced smap others := by
  intro sockid bit
  rw [← same.countP_eq, balanced sockid bit]

theorem getElem_set_socket (smap : Vector SocketMap count) (sockid other : Fin count)
    (socket : SocketMap) :
    (smap.set sockid.val socket sockid.isLt)[other] = if other = sockid then socket else smap[other] := by
  by_cases same : other = sockid
  · simp [same]
  · have apart : sockid.val ≠ other.val := fun eq => same (Fin.ext eq.symm)
    simp [same, apart]

variable {entry : EpollEventInt count}

theorem Balanced.cons_events (balanced : Balanced smap (entry :: entries)) {bit}
    (raised : hasBit entry.events bit) : hasBit smap[entry.sockid].events bit := by
  have counted := balanced entry.sockid bit
  rw [List.countP_cons_of_pos (by simp [isFor, raised])] at counted
  by_contra unset
  rw [if_neg unset] at counted
  omega

theorem Balanced.clear (balanced : Balanced smap (entry :: entries)) :
    Balanced (EventPoll.clear smap entry.sockid entry.events) entries := by
  intro sockid bit
  have counted := balanced sockid bit
  rw [List.countP_cons] at counted
  rw [EventPoll.clear, getElem_set_socket]
  by_cases same : sockid = entry.sockid
  · subst same
    rw [if_pos rfl, hasBit_clear]
    cases raised : hasBit entry.events bit with
    | false => simpa [isFor, raised] using counted
    | true =>
      simp only [isFor, raised, balanced.cons_events raised] at counted
      simpa using counted
  · have other : ¬ entry.sockid = sockid := fun eq => same eq.symm
    simpa [isFor, same, other] using counted

theorem Balanced.raise (balanced : Balanced smap entries)
    (apart : smap[entry.sockid].events &&& entry.events = 0) :
    Balanced (EventPoll.raise smap entry.sockid entry.events) (entry :: entries) := by
  intro sockid bit
  have counted := balanced sockid bit
  rw [List.countP_cons, counted, EventPoll.raise, getElem_set_socket]
  by_cases same : sockid = entry.sockid
  · subst same
    rw [if_pos rfl, hasBit_or]
    cases raised : hasBit entry.events bit with
    | false => simp [isFor, raised]
    | true =>
      rw [not_hasBit_of_and apart raised]
      simp [isFor, raised]
  · have other : ¬ entry.sockid = sockid := fun eq => same eq.symm
    simp [isFor, same, other]

structure SameSockets (before after : Vector SocketMap count) : Prop where
  socktype : ∀ sockid : Fin count, after[sockid].socktype = before[sockid].socktype
  epData : ∀ sockid : Fin count, after[sockid].epData = before[sockid].epData

theorem SameSockets.refl (smap : Vector SocketMap count) : SameSockets smap smap :=
  ⟨fun _ => rfl, fun _ => rfl⟩

theorem SameSockets.trans {first second third : Vector SocketMap count}
    (before : SameSockets first second) (after : SameSockets second third) : SameSockets first third :=
  ⟨fun sockid => (after.socktype sockid).trans (before.socktype sockid),
    fun sockid => (after.epData sockid).trans (before.epData sockid)⟩

theorem sameSockets_set (smap : Vector SocketMap count) (sockid : Fin count) (events : UInt32) :
    SameSockets smap (smap.set sockid.val { smap[sockid] with events } sockid.isLt) := by
  constructor <;>
  · intro other
    rw [getElem_set_socket]
    split
    · rename_i same
      rw [same]
    · rfl

structure Fetched (entries rest : List (EpollEventInt count))
    (before after : Vector SocketMap count) : Prop where
  drops : rest = entries.drop (entries.length - rest.length)
  same : SameSockets before after
  balanced : ∀ others, Balanced before (entries ++ others) → Balanced after (rest ++ others)

theorem fetchFifo_fetched (entries : List (EpollEventInt count)) (smap : Vector SocketMap count)
    (room : Nat) :
    Fetched entries (fetchFifo entries smap room).1 smap (fetchFifo entries smap room).2.1 := by
  induction entries generalizing smap room with
  | nil => exact ⟨rfl, .refl _, fun _ balanced => balanced⟩
  | cons entry entries ih =>
    have cleared := sameSockets_set smap entry.sockid (smap[entry.sockid].events &&& ~~~entry.events)
    have dropped : ∀ rest : List (EpollEventInt count),
        rest = entries.drop (entries.length - rest.length) →
        rest = (entry :: entries).drop ((entry :: entries).length - rest.length) := by
      intro rest drops
      have length : rest.length ≤ entries.length := by
        rw [drops, List.length_drop]
        omega
      rw [List.length_cons, Nat.succ_sub length, List.drop_succ_cons]
      exact drops
    unfold fetchFifo
    split
    · exact ⟨by simp, .refl _, fun _ balanced => balanced⟩
    · dsimp only
      split
      · have after := ih (EventPoll.clear smap entry.sockid entry.events) (room - 1)
        exact ⟨dropped _ after.drops, cleared.trans after.same,
          fun others balanced => after.balanced others balanced.clear⟩
      · have after := ih (EventPoll.clear smap entry.sockid entry.events) room
        exact ⟨dropped _ after.drops, cleared.trans after.same,
          fun others balanced => after.balanced others balanced.clear⟩

theorem fetchOwners_related {related owners}
    (queued : List.Forall₂ related entries owners) (smap : Vector SocketMap count) (room : Nat) :
    List.Forall₂ related (fetchFifo entries smap room).2.2 (fetchOwners entries owners smap room) := by
  induction queued generalizing smap room with
  | nil => exact .nil
  | cons first rest ih =>
    unfold fetchFifo fetchOwners
    split
    · exact .nil
    · dsimp only
      split
      · exact .cons first (ih _ _)
      · exact ih _ _

structure Current (smap : Vector SocketMap count) (owner : Vector Nat count)
    (entry : EpollEventInt count) (raisedFor : Nat) : Prop where
  used : smap[entry.sockid].socktype ≠ .unused
  data : entry.data = smap[entry.sockid].epData
  owned : raisedFor = owner[entry.sockid]

variable {owner : Vector Nat count}

theorem Current.sameSockets {before after raisedFor}
    (current : Current before owner entry raisedFor) (same : SameSockets before after) :
    Current after owner entry raisedFor :=
  ⟨by rw [same.socktype]; exact current.used, by rw [same.epData]; exact current.data, current.owned⟩

structure Faithful (spec : EpollSpec count) (owner : Vector Nat count)
    (owners : EventQueueType → List Nat) : Prop where
  balanced : Balanced spec.smap spec.entries
  current : ∀ queueType, List.Forall₂ (Current spec.smap owner) (spec.queue queueType) (owners queueType)

structure Intact (s : Sockets count size) : Prop
    extends Faithful s.ep.spec s.owner s.owners where
  free : ∀ sockid ∈ s.freeSmap, (s.socket sockid).socktype = .unused
  nodup : s.freeSmap.Nodup

def Sockets.queued (s : Sockets count size) (sockid : Fin count) : Bool :=
  s.ep.spec.entries.any (·.sockid = sockid)

/-- An event is raised only for the connection that has the socket, and the data of a registration
changes, and a socket is given up, only while none of its events is queued. -/
def Operation.Allowed (s : Sockets count size) : Operation count → Prop
  | .raise _ sockid raisedFor _ =>
    (s.socket sockid).socktype ≠ .unused ∧ raisedFor = s.owner[sockid]
  | .ctl op sockid _ data _ _ =>
    op = .del ∨ data = (s.socket sockid).epData ∨ s.queued sockid = false
  | .close sockid => s.queued sockid = false
  | _ => True

def AllowedOperations (s : Sockets count size) : List (Operation count) → Prop
  | [] => True
  | operation :: rest => operation.Allowed s ∧ AllowedOperations (s.step operation) rest

variable {spec : EpollSpec count}

theorem mem_entries : entry ∈ spec.entries ↔ ∃ queueType, entry ∈ spec.queue queueType := by
  constructor
  · intro member
    simp only [EpollSpec.entries, List.mem_append] at member
    rcases member with member | member | member
    · exact ⟨.usr, member⟩
    · exact ⟨.usrShadow, member⟩
    · exact ⟨.mtcp, member⟩
  · rintro ⟨queueType, member⟩
    simp only [EpollSpec.entries, List.mem_append]
    cases queueType with
    | usr => exact .inl member
    | usrShadow => exact .inr (.inl member)
    | mtcp => exact .inr (.inr member)

variable {s : Sockets count size} {sockid : Fin count}

theorem Sockets.not_queued (unqueued : s.queued sockid = false) (member : entry ∈ s.ep.spec.entries) :
    entry.sockid ≠ sockid := by
  intro same
  have found : s.queued sockid = true :=
    List.any_eq_true.mpr ⟨entry, member, by simp [same]⟩
  rw [unqueued] at found
  cases found

theorem Intact.events_of_unqueued (intact : Intact s) (unqueued : s.queued sockid = false) :
    (s.socket sockid).events = 0 := by
  apply eq_zero_of_hasBit
  intro bit
  have zero : s.ep.spec.entries.countP (EpollEventInt.isFor sockid bit) = 0 := by
    apply List.countP_eq_zero.mpr
    intro entry member isFor
    simp only [EpollEventInt.isFor, Bool.and_eq_true, decide_eq_true_eq] at isFor
    exact not_queued unqueued member isFor.1
  have counted := intact.balanced sockid bit
  rw [zero] at counted
  cases raised : hasBit (s.socket sockid).events bit with
  | false => rfl
  | true =>
    rw [socket] at raised
    rw [if_pos raised] at counted
    cases counted

theorem Intact.unqueued (intact : Intact s) (unused : (s.socket sockid).socktype = .unused) :
    s.queued sockid = false := by
  by_contra queued
  obtain ⟨entry, member, same⟩ := List.any_eq_true.mp (Bool.eq_true_of_not_eq_false queued)
  obtain ⟨queueType, member⟩ := mem_entries.mp member
  rw [decide_eq_true_eq] at same
  rw [← same] at unused
  have used : List.Forall₂ (fun entry raisedFor => s.ep.smap[entry.sockid].socktype ≠ .unused ∧
      Current s.ep.smap s.owner entry raisedFor) (s.ep.spec.queue queueType) (s.owners queueType) :=
    (intact.current queueType).imp fun _ _ current => ⟨current.used, current⟩
  exact ((List.forall₂_and_left _ _).mp used).1 entry member unused

theorem socket_setSocket (s : Sockets count size) (sockid other : Fin count) (socket : SocketMap) :
    (s.setSocket sockid socket).socket other = if other = sockid then socket else s.socket other :=
  getElem_set_socket s.ep.smap sockid other socket

theorem Intact.change (intact : Intact s) {socket : SocketMap} {freeSmap : List (Fin count)}
    (elsewhere : ∀ other, other ≠ sockid → owner[other] = s.owner[other])
    (events : socket.events = (s.socket sockid).events)
    (here : s.queued sockid = false ∨ socket.socktype = (s.socket sockid).socktype ∧
      socket.epData = (s.socket sockid).epData ∧ owner[sockid] = s.owner[sockid])
    (free : ∀ other ∈ freeSmap,
      other = sockid ∧ socket.socktype = .unused ∨ other ≠ sockid ∧ other ∈ s.freeSmap)
    (nodup : freeSmap.Nodup) : Intact { s.setSocket sockid socket with freeSmap, owner } := by
  refine ⟨⟨fun other bit => ?_, fun queueType => ?_⟩, fun other member => ?_, nodup⟩
  · refine (intact.balanced other bit).trans ?_
    have changed : hasBit ((s.setSocket sockid socket).socket other).events bit =
        hasBit (s.socket other).events bit := by
      rw [socket_setSocket]
      split
      · rename_i same
        rw [same, events]
      · rfl
    exact congrArg (if · then 1 else 0) changed.symm
  · refine ((List.forall₂_and_left _ _).mpr ⟨fun _ => id, intact.current queueType⟩).imp ?_
    rintro entry raisedFor ⟨member, current⟩
    have changed := socket_setSocket s sockid entry.sockid socket
    by_cases same : entry.sockid = sockid
    · rcases here with unqueued | ⟨socktype, epData, owned⟩
      · exact absurd same (not_queued unqueued (mem_entries.mpr ⟨queueType, member⟩))
      · rw [if_pos same] at changed
        rw [← same] at socktype epData owned
        exact ⟨fun unused => current.used
            (socktype.symm.trans ((congrArg SocketMap.socktype changed).symm.trans unused)),
          current.data.trans (epData.symm.trans (congrArg SocketMap.epData changed.symm)),
          current.owned.trans owned.symm⟩
    · rw [if_neg same] at changed
      exact ⟨fun unused => current.used ((congrArg SocketMap.socktype changed).symm.trans unused),
        current.data.trans (congrArg SocketMap.epData changed.symm),
        current.owned.trans (elsewhere _ same).symm⟩
  · refine (congrArg SocketMap.socktype (socket_setSocket s sockid other socket)).trans ?_
    rcases free other member with ⟨same, unused⟩ | ⟨apart, member⟩
    · rw [if_pos same, unused]
    · rw [if_neg apart, intact.free other member]

theorem firstFree_first (rest : List (Fin count)) (fuel : Nat) (clear : smap[sockid].events = 0) :
    firstFree smap (fuel + 1) (sockid :: rest) = some (sockid, rest) := by
  rw [firstFree, if_pos clear]

theorem allocateSocket_cases (intact : Intact s) (socktype : SocketType) :
    s.freeSmap = [] ∧ s.allocateSocket socktype = s ∨
      ∃ sockid rest, s.freeSmap = sockid :: rest ∧
        s.allocateSocket socktype =
          { s.setSocket sockid { socktype, epoll := 0, events := 0, epData := 0 } with
            freeSmap := rest
            owner := s.owner.set sockid.val (s.owner[sockid] + 1) sockid.isLt } := by
  cases free : s.freeSmap with
  | nil =>
    refine .inl ⟨rfl, ?_⟩
    rw [allocateSocket, free]
    rfl
  | cons sockid rest =>
    refine .inr ⟨sockid, rest, rfl, ?_⟩
    have unused := intact.free sockid (free ▸ List.mem_cons_self ..)
    have clear := intact.events_of_unqueued (intact.unqueued unused)
    rw [allocateSocket, free, List.length_cons, firstFree_first rest _ clear]

theorem allocateSocket_intact (intact : Intact s) (socktype : SocketType) :
    Intact (s.allocateSocket socktype) := by
  rcases allocateSocket_cases intact socktype with ⟨-, same⟩ | ⟨sockid, rest, free, after⟩
  · rw [same]
    exact intact
  have nodup := intact.nodup
  rw [free] at nodup
  have unqueued := intact.unqueued (intact.free sockid (free ▸ List.mem_cons_self ..))
  rw [after]
  refine intact.change (fun other apart => ?_) (intact.events_of_unqueued unqueued).symm
    (.inl unqueued) (fun other member => .inr ⟨?_, ?_⟩) nodup.of_cons
  · have different : sockid.val ≠ other.val := fun same => apart (Fin.ext same.symm)
    simp [different]
  · intro same
    exact (List.nodup_cons.mp nodup).1 (same ▸ member)
  · rw [free]
    exact List.mem_cons_of_mem _ member

theorem freeSocket_intact (intact : Intact s) (unqueued : s.queued sockid = false) :
    Intact (s.freeSocket sockid) := by
  unfold freeSocket
  split
  · exact intact
  · rename_i used
    have absent : sockid ∉ s.freeSmap := fun member => used (intact.free sockid member)
    refine intact.change (fun _ _ => rfl) (intact.events_of_unqueued unqueued).symm (.inl unqueued)
      (fun other member => ?_) ?_
    · rcases List.mem_append.mp member with member | last
      · exact .inr ⟨fun same => absent (same ▸ member), member⟩
      · exact .inl ⟨List.mem_singleton.mp last, rfl⟩
    · rw [List.nodup_append]
      refine ⟨intact.nodup, List.pairwise_singleton _ _, fun other member last isLast same => ?_⟩
      rw [List.mem_singleton.mp isLast] at same
      exact absent (same ▸ member)

theorem Intact.registration (intact : Intact s) (epoll : UInt32) {data}
    (kept : data = (s.socket sockid).epData ∨ s.queued sockid = false) :
    Intact (s.setSocket sockid { s.socket sockid with epoll, epData := data }) := by
  refine intact.change (fun _ _ => rfl) rfl ?_ (fun other member => ?_) intact.nodup
  · rcases kept with same | unqueued
    · exact .inr ⟨rfl, same, rfl⟩
    · exact .inl unqueued
  · by_cases same : other = sockid
    · exact .inl ⟨same, same ▸ intact.free other member⟩
    · exact .inr ⟨same, member⟩

theorem addEpollEvent_stores {queueType event} (stores : s.stores queueType sockid event) :
    (addEpollEvent s.ep queueType sockid event).1.spec =
      { s.ep.spec.setQueue (s.ep.spec.queue queueType ++
          [{ events := event, data := (s.socket sockid).epData, sockid }]) queueType with
        smap := raise s.ep.smap sockid event } ∧
      (s.socket sockid).events &&& event = 0 := by
  simp only [Sockets.stores, Bool.and_eq_true, decide_eq_true_eq, Bool.not_eq_true'] at stores
  obtain ⟨⟨nonzero, apart⟩, room⟩ := stores
  refine ⟨?_, apart⟩
  have added := congrArg Prod.fst (addEpollEvent_spec s.ep queueType sockid event)
  refine added.trans ?_
  have notFull : ¬ (s.ep.spec.queue queueType).length + 1 = size := by
    rw [queue_spec, ← full_iff, room]
    nofun
  have clear : ¬ s.ep.spec.smap[sockid].events &&& event ≠ 0 := not_not.mpr apart
  rw [add, if_neg nonzero, if_neg clear, if_neg notFull]
  rfl

theorem addEpollEvent_ignores {queueType event} (ignores : ¬ s.stores queueType sockid event) :
    (addEpollEvent s.ep queueType sockid event).1 = s.ep := by
  unfold addEpollEvent
  split
  · rfl
  · split
    · rfl
    · split
      · rfl
      · rename_i nonzero apart room
        refine absurd ?_ ignores
        simp only [stores, Bool.and_eq_true, decide_eq_true_eq, Bool.not_eq_true']
        exact ⟨⟨nonzero, not_not.mp apart⟩, Bool.eq_false_iff.mpr room⟩

theorem queue_setQueue (spec : EpollSpec count) (queue : List (EpollEventInt count))
    (queueType other : EventQueueType) :
    (spec.setQueue queue queueType).queue other =
      if other = queueType then queue else spec.queue other := by
  cases queueType <;> cases other <;> rfl

theorem entries_setQueue (spec : EpollSpec count) (entry : EpollEventInt count)
    (queueType : EventQueueType) :
    (entry :: spec.entries).Perm
      (spec.setQueue (spec.queue queueType ++ [entry]) queueType).entries := by
  cases queueType with
  | usr =>
    simp only [EpollSpec.entries, setQueue, queue, append_assoc]
    exact List.perm_middle.symm
  | usrShadow =>
    simp only [EpollSpec.entries, setQueue, queue, append_assoc]
    rw [← append_assoc, ← append_assoc]
    exact List.perm_middle.symm
  | mtcp =>
    simp only [EpollSpec.entries, setQueue, queue]
    rw [← append_assoc, ← append_assoc, ← append_assoc]
    exact (List.perm_append_singleton ..).symm

theorem Faithful.raise {owners} (faithful : Faithful spec owner owners)
    {raisedFor} (queueType : EventQueueType) (current : Current spec.smap owner entry raisedFor)
    (apart : spec.smap[entry.sockid].events &&& entry.events = 0) :
    Faithful { spec.setQueue (spec.queue queueType ++ [entry]) queueType with
        smap := EventPoll.raise spec.smap entry.sockid entry.events }
      owner (Function.update owners queueType (owners queueType ++ [raisedFor])) := by
  have same := sameSockets_set spec.smap entry.sockid (spec.smap[entry.sockid].events ||| entry.events)
  constructor
  · exact (faithful.balanced.raise apart).perm (entries_setQueue spec entry queueType)
  · intro other
    have kept := (faithful.current other).imp fun _ _ current => current.sameSockets same
    have queue := queue_setQueue spec (spec.queue queueType ++ [entry]) queueType other
    refine queue ▸ ?_
    by_cases isHere : other = queueType
    · subst isHere
      rw [if_pos rfl, Function.update_self]
      exact rel_append kept (.cons (current.sameSockets same) .nil)
    · rw [if_neg isHere, Function.update_of_ne isHere]
      exact kept

theorem socktype_raiseEvent (s : Sockets count size) (queueType : EventQueueType)
    (sockid other : Fin count) (raisedFor : Nat) (event : UInt32) :
    ((s.raiseEvent queueType sockid raisedFor event).socket other).socktype =
      (s.socket other).socktype := by
  by_cases stores : s.stores queueType sockid event
  · have smap : (addEpollEvent s.ep queueType sockid event).1.smap = raise s.ep.smap sockid event :=
      congrArg EpollSpec.smap (addEpollEvent_stores stores).1
    exact (congrArg (fun smap : Vector SocketMap count => smap[other].socktype) smap).trans
      ((sameSockets_set s.ep.smap sockid _).socktype other)
  · rw [raiseEvent, addEpollEvent_ignores stores]
    rfl

theorem raiseEvent_intact (intact : Intact s) (used : (s.socket sockid).socktype ≠ .unused)
    (queueType : EventQueueType) (event : UInt32) :
    Intact (s.raiseEvent queueType sockid s.owner[sockid] event) := by
  by_cases stores : s.stores queueType sockid event
  · obtain ⟨spec, apart⟩ := addEpollEvent_stores stores
    have current : Current s.ep.smap s.owner
        { events := event, data := (s.socket sockid).epData, sockid } s.owner[sockid] :=
      ⟨used, rfl, rfl⟩
    have faithful := intact.toFaithful.raise queueType current apart
    have free := fun other member => (socktype_raiseEvent s queueType sockid other s.owner[sockid]
      event).trans (intact.free other member)
    rw [raiseEvent, if_pos stores] at free ⊢
    exact ⟨spec ▸ faithful, free, intact.nodup⟩
  · rw [raiseEvent, if_neg stores, addEpollEvent_ignores stores]
    exact intact

theorem raisePendingEvents_intact (intact : Intact s) (used : (s.socket sockid).socktype ≠ .unused)
    (readable writable : Bool) : Intact (s.raisePendingEvents sockid readable writable) := by
  unfold raisePendingEvents
  split
  · have raised := raiseEvent_intact intact used .usrShadow epollIn
    have still := socktype_raiseEvent s .usrShadow sockid sockid s.owner[sockid] epollIn
    dsimp only
    split
    · exact raiseEvent_intact raised (still ▸ used) .usrShadow epollOut
    · exact raised
  · dsimp only
    split
    · exact raiseEvent_intact intact used .usrShadow epollOut
    · exact intact

theorem register_intact (intact : Intact s) (events : UInt32) {data}
    (kept : data = (s.socket sockid).epData ∨ s.queued sockid = false) (readable writable : Bool) :
    Intact (s.register sockid events data readable writable) := by
  have registered := intact.registration (events ||| (epollErr ||| epollHup)) kept
  unfold register
  dsimp only
  split
  · rename_i kind
    exact raisePendingEvents_intact registered (by rcases kind with kind | kind <;> rw [kind] <;> nofun) _ _
  · exact registered

theorem mtcpEpollCtl_intact (intact : Intact s) {op} (events : UInt32) {data}
    (kept : op = .del ∨ data = (s.socket sockid).epData ∨ s.queued sockid = false)
    (readable writable : Bool) : Intact (s.mtcpEpollCtl op sockid events data readable writable).1 := by
  cases op with
  | add | mod =>
    unfold mtcpEpollCtl
    dsimp only
    split
    · exact intact
    · exact register_intact intact events (kept.resolve_left nofun) readable writable
  | del =>
    unfold mtcpEpollCtl
    dsimp only
    split
    · exact intact
    · exact intact.registration 0 (.inl rfl)

theorem flushEpollEvents_moves (ep : MtcpEpoll count size) :
    ∃ moved, moved ≤ ep.spec.mtcp.length ∧ (flushEpollEvents ep).1.spec = { ep.spec with
      usr := ep.spec.usr ++ ep.spec.mtcp.take moved, mtcp := ep.spec.mtcp.drop moved } := by
  have bound := length_lt ep.mtcpQueue
  obtain ⟨rest, moved⟩ := contents_flushLoop size ep.mtcpQueue ep.usrQueue (by omega)
  by_cases above : 0 < eventQueLen ep.mtcpQueue
  · refine ⟨min (size - 1 - ep.usrQueue.contents.length) ep.mtcpQueue.contents.length,
      Nat.min_le_right .., ?_⟩
    have taken := List.take_eq_take_min (l := ep.mtcpQueue.contents)
      (i := size - 1 - ep.usrQueue.contents.length)
    have dropped := List.drop_eq_drop_min (l := ep.mtcpQueue.contents)
      (i := size - 1 - ep.usrQueue.contents.length)
    simp only [flushEpollEvents, if_pos above, MtcpEpoll.spec, rest, moved]
    rw [← taken, ← dropped]
  · refine ⟨0, Nat.zero_le _, ?_⟩
    simp only [flushEpollEvents, if_neg above, MtcpEpoll.spec, List.take_zero, List.append_nil,
      List.drop_zero]

theorem Faithful.flush {owners} (faithful : Faithful spec owner owners) (moved : Nat) :
    Faithful
      { spec with usr := spec.usr ++ spec.mtcp.take moved, mtcp := spec.mtcp.drop moved } owner
      fun
        | .usr => owners .usr ++ (owners .mtcp).take moved
        | .usrShadow => owners .usrShadow
        | .mtcp => (owners .mtcp).drop moved := by
  constructor
  · have moves : (spec.usrShadow ++ spec.mtcp).Perm
        (spec.mtcp.take moved ++ (spec.usrShadow ++ spec.mtcp.drop moved)) := by
      conv_lhs => rw [← List.take_append_drop moved spec.mtcp, ← append_assoc]
      rw [← append_assoc]
      exact List.perm_append_comm.append_right _
    refine faithful.balanced.perm ?_
    simp only [EpollSpec.entries, append_assoc]
    exact moves.append_left _
  · intro queueType
    cases queueType with
    | usr =>
      exact rel_append (faithful.current .usr) (List.forall₂_take _ (faithful.current .mtcp))
    | usrShadow => exact faithful.current .usrShadow
    | mtcp => exact List.forall₂_drop _ (faithful.current .mtcp)

theorem flush_intact (intact : Intact s) : Intact s.flush := by
  obtain ⟨moved, within, spec⟩ := flushEpollEvents_moves s.ep
  have number : s.ep.spec.mtcp.length - (flushEpollEvents s.ep).1.spec.mtcp.length = moved := by
    rw [spec, List.length_drop]
    omega
  have smap : (flushEpollEvents s.ep).1.smap = s.ep.smap := congrArg EpollSpec.smap spec
  unfold Sockets.flush
  dsimp only
  rw [number]
  refine ⟨?_, fun other member => ?_, intact.nodup⟩
  · dsimp only
    rw [spec]
    exact intact.toFaithful.flush moved
  · exact (congrArg (fun smap : Vector SocketMap count => smap[other].socktype) smap).trans
      (intact.free other member)

theorem fetchFifo_zero (entries : List (EpollEventInt count)) (smap : Vector SocketMap count) :
    fetchFifo entries smap 0 = (entries, smap, []) := by
  cases entries <;> rfl

theorem wait_fetches (spec : EpollSpec count) (maxevents timeout : Int) :
    let first := fetchFifo spec.usr spec.smap maxevents.toNat
    let second := fetchFifo spec.usrShadow first.2.1 (maxevents.toNat - first.2.2.length)
    (∃ waiting, (spec.wait maxevents timeout).1 =
        { spec with usr := first.1, usrShadow := second.1, smap := second.2.1, waiting }) ∧
      (spec.wait maxevents timeout).2.events = first.2.2 ++ second.2.2 := by
  dsimp only
  unfold wait
  split
  · rename_i invalid
    rw [Int.toNat_eq_zero.mpr invalid, Nat.zero_sub, fetchFifo_zero, fetchFifo_zero]
    exact ⟨⟨_, rfl⟩, rfl⟩
  · split
    · rename_i idle
      rw [idle.1, idle.2.1]
      exact ⟨⟨true, rfl⟩, rfl⟩
    · dsimp only
      split
      · rename_i nonzero
        exact ⟨⟨_, rfl⟩, nonzero.1.symm⟩
      · exact ⟨⟨_, rfl⟩, rfl⟩

theorem Faithful.fetch {owners : EventQueueType → List Nat} (faithful : Faithful spec owner owners)
    {usr usrShadow : List (EpollEventInt count)} {between : Vector SocketMap count}
    (first : Fetched spec.usr usr spec.smap between)
    (second : Fetched spec.usrShadow usrShadow between smap) (waiting : Bool) :
    Faithful { spec with usr, usrShadow, smap, waiting } owner (fun queueType =>
      (owners queueType).drop ((spec.queue queueType).length -
        (queue { spec with usr, usrShadow, smap, waiting } queueType).length)) := by
  have same := first.same.trans second.same
  have kept : ∀ queueType dropped,
      List.Forall₂ (Current smap owner) ((spec.queue queueType).drop dropped)
        ((owners queueType).drop dropped) := fun queueType dropped =>
    (List.forall₂_drop dropped (faithful.current queueType)).imp
      fun _ _ current => current.sameSockets same
  constructor
  · have afterFirst := first.balanced _ faithful.balanced
    have turned : (usr ++ (spec.usrShadow ++ spec.mtcp)).Perm
        (spec.usrShadow ++ (spec.mtcp ++ usr)) := by
      rw [← append_assoc spec.usrShadow]
      exact List.perm_append_comm
    have back : (usrShadow ++ (spec.mtcp ++ usr)).Perm (usr ++ (usrShadow ++ spec.mtcp)) := by
      rw [← append_assoc usrShadow]
      exact List.perm_append_comm
    exact (second.balanced _ (afterFirst.perm turned)).perm back
  · intro queueType
    cases queueType with
    | usr =>
      have fetched := kept .usr (spec.usr.length - usr.length)
      rwa [queue, ← first.drops] at fetched
    | usrShadow =>
      have fetched := kept .usrShadow (spec.usrShadow.length - usrShadow.length)
      rwa [queue, ← second.drops] at fetched
    | mtcp =>
      have drops : spec.mtcp.drop (spec.mtcp.length - spec.mtcp.length) = spec.mtcp := by
        rw [Nat.sub_self, List.drop_zero]
      have fetched := kept .mtcp (spec.mtcp.length - spec.mtcp.length)
      rwa [queue, drops] at fetched

theorem wait_intact (intact : Intact s) {ep after : MtcpEpoll count size}
    {result : WaitResult count} {maxevents timeout : Int}
    (same : ep.spec = { s.ep.spec with waiting := ep.waiting })
    (waited : mtcpEpollWait ep maxevents timeout = (after, result)) :
    Intact (s.fetched after) ∧
      List.Forall₂ (Current after.smap s.owner) result.events (s.returnedOwners maxevents) := by
  have called := mtcpEpollWait_spec ep maxevents timeout
  rw [waited, same] at called
  obtain ⟨⟨waiting, shape⟩, events⟩ :=
    wait_fetches { s.ep.spec with waiting := ep.waiting } maxevents timeout
  rw [← called] at shape events
  dsimp only at shape events
  have first := fetchFifo_fetched s.ep.spec.usr s.ep.spec.smap maxevents.toNat
  have second := fetchFifo_fetched s.ep.spec.usrShadow
    (fetchFifo s.ep.spec.usr s.ep.spec.smap maxevents.toNat).2.1
    (maxevents.toNat - (fetchFifo s.ep.spec.usr s.ep.spec.smap maxevents.toNat).2.2.length)
  have sockets := first.same.trans second.same
  have smap := congrArg EpollSpec.smap shape
  refine ⟨⟨?_, fun other member => ?_, intact.nodup⟩, ?_⟩
  · have faithful := intact.toFaithful.fetch first second waiting
    rw [← shape] at faithful
    exact faithful
  · exact (congrArg (fun smap : Vector SocketMap count => smap[other].socktype) smap).trans
      ((sockets.socktype other).trans (intact.free other member))
  · have current : ∀ queueType, List.Forall₂ (Current after.smap s.owner)
        (s.ep.spec.queue queueType) (s.owners queueType) := by
      intro queueType
      rw [show after.smap = _ from smap]
      exact (intact.current queueType).imp fun _ _ current => current.sameSockets sockets
    rw [events]
    exact rel_append (fetchOwners_related (current .usr) _ _)
      (fetchOwners_related (current .usrShadow) _ _)

def Delivers (s : Sockets count size) (operation : Operation count) : Prop :=
  List.Forall₂ (Current (s.step operation).ep.smap (s.step operation).owner)
    (s.returned operation) (s.returnedFor operation)

theorem step_intact (intact : Intact s) {operation}
    (allowed : operation.Allowed s) : Intact (s.step operation) ∧ Delivers s operation := by
  cases operation with
  | allocate socktype => exact ⟨allocateSocket_intact intact socktype, .nil⟩
  | ctl op sockid events data readable writable =>
    exact ⟨mtcpEpollCtl_intact intact events allowed readable writable, .nil⟩
  | raise queueType sockid raisedFor event =>
    obtain ⟨used, owned⟩ := allowed
    subst owned
    exact ⟨raiseEvent_intact intact used queueType event, .nil⟩
  | flush => exact ⟨flush_intact intact, .nil⟩
  | wait maxevents timeout => exact wait_intact intact rfl rfl
  | wake maxevents timeout =>
    have same : MtcpEpoll.spec { s.ep with waiting := false } = { s.ep.spec with waiting := false } := rfl
    exact wait_intact intact same rfl
  | close sockid => exact ⟨freeSocket_intact intact allowed, .nil⟩

theorem create_intact (count size : Nat) [NeZero count] [NeZero size] : Intact (create count size) := by
  have sockets : ∀ sockid, (create count size).socket sockid =
      { socktype := .unused, epoll := 0, events := 0, epData := 0 } := by
    intro sockid
    simp [socket, Sockets.create, mtcpEpollCreate]
  have spec : (create count size).ep.spec = EpollSpec.create _ := spec_create _
  refine ⟨?_, fun sockid _ => by rw [sockets], List.nodup_finRange count⟩
  rw [spec]
  refine ⟨fun sockid bit => ?_, fun queueType => ?_⟩
  · have unset : hasBit ((create count size).socket sockid).events bit = false := by
      rw [sockets, hasBit_zero]
    exact (congrArg (if · then 1 else 0) unset).symm
  · cases queueType <;> exact .nil

theorem run_intact (intact : Intact s) {operations}
    (allowed : AllowedOperations s operations) : Intact (s.run operations) := by
  induction operations generalizing s with
  | nil => exact intact
  | cons operation rest ih => exact ih (step_intact intact allowed.1).1 allowed.2

/-- In a run of allowed operations a bit is set exactly if one entry stands for it, and every event
that is returned is current. -/
theorem delivery_intact (count size : Nat) [NeZero count] [NeZero size]
    (operations : List (Operation count))
    (allowed : AllowedOperations (Sockets.create count size) operations) :
    (∀ sockid bit,
      hasBit (((Sockets.create count size).run operations).socket sockid).events bit = true ↔
        ((Sockets.create count size).run operations).ep.spec.entries.countP
          (EpollEventInt.isFor sockid bit) = 1) ∧
      ∀ maxevents timeout,
        Delivers ((Sockets.create count size).run operations) (.wait maxevents timeout) ∧
          Delivers ((Sockets.create count size).run operations) (.wake maxevents timeout) := by
  have intact := run_intact (create_intact count size) allowed
  constructor
  · intro sockid bit
    rw [intact.balanced sockid bit]
    constructor
    · intro raised
      exact if_pos raised
    · intro one
      by_contra unset
      exact absurd ((if_neg unset).symm.trans one) (by decide)
  · intro maxevents timeout
    have waited : (Operation.wait maxevents timeout).Allowed
        ((Sockets.create count size).run operations) := trivial
    have woken : (Operation.wake maxevents timeout).Allowed
        ((Sockets.create count size).run operations) := trivial
    exact ⟨(step_intact intact waited).2, (step_intact intact woken).2⟩

def reuse : List (Operation 1) :=
  [.allocate .stream, .ctl .add 0 epollIn 7 false false, .raise .mtcp 0 1 epollIn, .flush, .wait 1 0,
    .close 0, .allocate .stream, .ctl .add 0 epollIn 9 true false]

theorem reuse_delivers :
    (((Sockets.create 1 4).run reuse).returned (.wait 1 0)).map (·.data) = [9] ∧
      Delivers ((Sockets.create 1 4).run reuse) (.wait 1 0) := by
  refine ⟨by decide, ((delivery_intact 1 4 reuse ?_).2 1 0).1⟩
  exact ⟨trivial, .inr (.inr rfl), ⟨by decide, rfl⟩, trivial, trivial, rfl, trivial, .inr (.inr rfl),
    trivial⟩

/-- An event of a closed connection reaches the next one with its socket id, with the old data and
in place of its own. An event queued before its registration is modified has the old data, and a
closed pipe end raises an event for whatever has its id. -/
theorem stale_event_delivered :
    (let s := (Sockets.create 1 4).run [.allocate .stream, .ctl .add 0 epollIn 7 false false,
        .raise .mtcp 0 1 epollIn, .close 0, .allocate .stream, .ctl .add 0 epollIn 9 false false,
        .raise .mtcp 0 2 epollIn, .flush];
      s.ep.spec.entries.countP (EpollEventInt.isFor 0 0) = 2 ∧
        (s.returned (.wait 8 0)).map (·.data) = [7] ∧ s.returnedFor (.wait 8 0) = [1] ∧
        (s.socket 0).epData = 9 ∧ s.owner[0] = 2) ∧
    (let s := (Sockets.create 1 4).run [.allocate .stream, .ctl .add 0 epollIn 7 false false,
        .raise .mtcp 0 1 epollIn, .flush, .ctl .mod 0 epollIn 9 false false];
      (s.returned (.wait 8 0)).map (·.data) = [7] ∧ (s.socket 0).epData = 9) ∧
    (let s := (Sockets.create 2 4).run [.allocate .pipe, .allocate .pipe, .close 0,
        .allocate .stream, .ctl .add 0 epollOut 9 false false, .raise .usr 0 1 epollOut];
      s.returnedFor (.wait 8 0) = [1] ∧ s.owner[0] = 2) := by
  decide

end Mcc.EventPoll
