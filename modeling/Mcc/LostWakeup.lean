import Mcc.ConnectionState

/-!
The application thread in `mtcp_write` and the stack thread in `HandleApplicationCalls` and
`WriteTCPDataList` as two processes. Atomic steps are the critical sections of the write lock and
the single reads and writes of the flags `on_sendq` and `on_send_list`.
-/

namespace Mcc.SendWakeup

inductive AppPc where
  | idle
  | checked (id : Nat)
  | copied (id : Nat)
  | notOnSendq (id : Nat)
  | notOnSendList (id : Nat)
  | flagged (id : Nat)
  deriving Repr, DecidableEq

inductive StackPc where
  | idle
  | dequeued (id : Nat)
  | cleared (id : Nat)
  | unlisted (id : Nat)
  | removed (id : Nat)
  | flushed (id : Nat)
  deriving Repr, DecidableEq

structure State where
  tcp : Nat → TcpState
  buffered : Nat → Nat
  sent : Nat → Nat
  onSendq : Nat → Bool
  onSendList : Nat → Bool
  sendq : List Nat
  sendList : List Nat
  app : AppPc
  stack : StackPc

def setAt {β : Type} (map : Nat → β) (id : Nat) (value : β) : Nat → β :=
  fun other => if other = id then value else map other

inductive Action where
  | write (id : Nat)
  | copy (count : Nat)
  | readSendq
  | readSendList
  | setSendq
  | enqueue
  | dequeue
  | clearSendq
  | testSendList
  | addToSendList
  | remove
  | flush (delayed : Bool) (limit : Nat)
  | clearSendList
  | transition (id : Nat) (target : TcpState)
  deriving Repr, DecidableEq

/-- `FlushTCPSendingBuffer` sends what the windows and the output queue allow; it returns a
negative number exactly when unsent bytes remain. -/
def flushStream (state : State) (id : Nat) (delayed : Bool) (limit : Nat) : State :=
  let sendable := state.tcp id = .established ∨ state.tcp id = .closeWait ∨
    state.tcp id = .finWait1 ∨ state.tcp id = .lastAck
  if state.tcp id = .established ∧ delayed = true then
    { state with sendList := state.sendList ++ [id], stack := .idle }
  else if sendable then
    let sent := min (state.buffered id) (state.sent id + limit)
    let progressed := { state with sent := setAt state.sent id sent }
    if sent < state.buffered id then
      { progressed with sendList := state.sendList ++ [id], stack := .idle }
    else { progressed with stack := .flushed id }
  else { state with stack := .flushed id }

/-- A stream is established at most once, before anything can be written to it. -/
def allowed (source target : TcpState) : Bool :=
  target ≠ .synSent && target ≠ .synRcvd &&
    (target ≠ .established || source = .synSent || source = .synRcvd)

def step (state : State) : Action → Option State
  | .write id =>
    if state.app = .idle ∧ (state.tcp id = .established ∨ state.tcp id = .closeWait) then
      some { state with app := .checked id }
    else none
  | .copy count =>
    match state.app with
    | .checked id =>
      if count = 0 then some { state with app := .idle }
      else some { state with
        buffered := setAt state.buffered id (state.buffered id + count)
        app := .copied id }
    | _ => none
  | .readSendq =>
    match state.app with
    | .copied id => some { state with
        app := if state.onSendq id then .idle else .notOnSendq id }
    | _ => none
  | .readSendList =>
    match state.app with
    | .notOnSendq id => some { state with
        app := if state.onSendList id then .idle else .notOnSendList id }
    | _ => none
  | .setSendq =>
    match state.app with
    | .notOnSendList id => some { state with
        onSendq := setAt state.onSendq id true
        app := .flagged id }
    | _ => none
  | .enqueue =>
    match state.app with
    | .flagged id => some { state with sendq := state.sendq ++ [id], app := .idle }
    | _ => none
  | .dequeue =>
    match state.stack, state.sendq with
    | .idle, id :: rest => some { state with sendq := rest, stack := .dequeued id }
    | _, _ => none
  | .clearSendq =>
    match state.stack with
    | .dequeued id => some { state with
        onSendq := setAt state.onSendq id false
        stack := .cleared id }
    | _ => none
  | .testSendList =>
    match state.stack with
    | .cleared id => some { state with
        stack := if state.onSendList id then .idle else .unlisted id }
    | _ => none
  | .addToSendList =>
    match state.stack with
    | .unlisted id => some { state with
        onSendList := setAt state.onSendList id true
        sendList := state.sendList ++ [id]
        stack := .idle }
    | _ => none
  | .remove =>
    match state.stack, state.sendList with
    | .idle, id :: rest => some { state with
        sendList := rest
        stack := if state.onSendList id then .removed id else .idle }
    | _, _ => none
  | .flush delayed limit =>
    match state.stack with
    | .removed id => some (flushStream state id delayed limit)
    | _ => none
  | .clearSendList =>
    match state.stack with
    | .flushed id => some { state with
        onSendList := setAt state.onSendList id false
        stack := .idle }
    | _ => none
  | .transition id target =>
    if state.stack = .idle ∧ allowed (state.tcp id) target = true then
      some { state with tcp := setAt state.tcp id target }
    else none

/-- The application reads `on_send_list` of a stream with unsent bytes outside the window between
the stack's last flush of the stream and the clearing of the flag. -/
def Safe (state : State) : Action → Prop
  | .readSendList => ∀ id, state.app = .notOnSendq id → state.stack = .flushed id →
      state.buffered id ≤ state.sent id
  | _ => True

def NoLostWakeup (state : State) : Prop :=
  state.app = .idle → state.stack = .idle → ∀ id, state.tcp id = .established →
    state.sent id < state.buffered id → id ∈ state.sendq ∨ id ∈ state.sendList

def run (state : State) : List Action → Option State
  | [] => some state
  | first :: rest => do
      let next ← step state first
      run next rest

def AllSafe (state : State) : List Action → Prop
  | [] => True
  | first :: rest => Safe state first ∧ ∀ next, step state first = some next → AllSafe next rest

structure Initial (state : State) : Prop where
  app : state.app = .idle
  stack : state.stack = .idle
  sendq : state.sendq = []
  sendList : state.sendList = []
  onSendq : ∀ id, state.onSendq id = false
  onSendList : ∀ id, state.onSendList id = false
  sent : ∀ id, state.sent id = state.buffered id

def Pending (state : State) (id : Nat) : Prop :=
  id ∈ state.sendq ∨ id ∈ state.sendList ∨
    state.stack = .dequeued id ∨ state.stack = .cleared id ∨ state.stack = .unlisted id ∨
    state.stack = .removed id ∨
    state.app = .copied id ∨ state.app = .notOnSendq id ∨ state.app = .notOnSendList id ∨
    state.app = .flagged id

structure Tracked (state : State) : Prop where
  sendqFlag : ∀ id, state.onSendq id = true →
    id ∈ state.sendq ∨ state.stack = .dequeued id ∨ state.app = .flagged id
  listFlag : ∀ id, state.onSendList id = true →
    id ∈ state.sendList ∨ state.stack = .removed id ∨ state.stack = .flushed id
  listed : ∀ id ∈ state.sendList, state.onSendList id = true
  distinct : state.sendList.Nodup
  held : ∀ id, state.stack = .removed id ∨ state.stack = .flushed id →
    id ∉ state.sendList ∧ state.onSendList id = true
  unlisted : ∀ id, state.stack = .unlisted id → id ∉ state.sendList
  fresh : ∀ id, state.tcp id = .synSent ∨ state.tcp id = .synRcvd →
    state.sent id = state.buffered id ∧ state.app ≠ .checked id
  pending : ∀ id, state.tcp id = .established → state.sent id < state.buffered id → Pending state id

theorem initial_tracked {state} (initial : Initial state) : Tracked state := by
  obtain ⟨app, stack, sendq, sendList, onSendq, onSendList, sent⟩ := initial
  constructor <;> grind -ring -linarith

theorem app_tracked {state next} (tracked : Tracked state) (action : Action)
    (safe : Safe state action) (taken : step state action = some next)
    (mine : action matches .write _ | .copy _ | .readSendq | .readSendList | .setSendq | .enqueue) :
    Tracked next := by
  obtain ⟨sendqFlag, listFlag, listed, distinct, held, unlisted, fresh, pending⟩ := tracked
  cases action <;> simp only [step] at taken
  case write | readSendq | setSendq | enqueue =>
    split at taken
    · cases taken
      refine ⟨?_, listFlag, listed, distinct, held, unlisted, ?_, ?_⟩ <;>
        grind -ring -linarith [Pending, setAt]
    · cases taken
  case copy count =>
    split at taken
    · split at taken
      · cases taken
        refine ⟨?_, listFlag, listed, distinct, held, unlisted, ?_, ?_⟩ <;>
          grind -ring -linarith [Pending]
      · cases taken
        refine ⟨?_, listFlag, listed, distinct, held, unlisted, ?_, ?_⟩ <;>
          grind -ring -linarith [Pending, setAt]
    · cases taken
  case readSendList =>
    split at taken
    · rename_i id reading
      have unsent := safe id reading
      cases taken
      refine ⟨?_, listFlag, listed, distinct, held, unlisted, ?_, ?_⟩ <;>
        grind -ring -linarith [Pending]
    · cases taken
  all_goals simp at mine

theorem flushStream_tracked {state} (tracked : Tracked state) {id} (delayed : Bool)
    (limit : Nat) (removed : state.stack = .removed id) :
    Tracked (flushStream state id delayed limit) := by
  obtain ⟨sendqFlag, listFlag, listed, distinct, held, unlisted, fresh, pending⟩ := tracked
  obtain ⟨outside, flagged⟩ := held id (Or.inl removed)
  have longer : (state.sendList ++ [id]).Nodup := by
    rw [List.nodup_append]
    exact ⟨distinct, List.nodup_singleton id, by grind -ring -linarith⟩
  simp only [flushStream]
  split
  · constructor <;> grind -ring -linarith [Pending]
  · split
    · split
      · constructor <;> grind -ring -linarith [Pending, setAt]
      · constructor <;> grind -ring -linarith [Pending, setAt]
    · constructor <;> grind -ring -linarith [Pending]

theorem stack_tracked {state next} (tracked : Tracked state) (action : Action)
    (taken : step state action = some next)
    (mine : action matches .dequeue | .clearSendq | .testSendList | .addToSendList | .remove |
      .flush _ _ | .clearSendList | .transition _ _) : Tracked next := by
  have whole := tracked
  obtain ⟨sendqFlag, listFlag, listed, distinct, held, unlisted, fresh, pending⟩ := tracked
  cases action <;> simp only [step] at taken
  case dequeue | testSendList | clearSendq | clearSendList =>
    split at taken
    · cases taken
      constructor <;> grind -ring -linarith [Pending, setAt]
    · cases taken
  case addToSendList =>
    split at taken
    · rename_i id adding
      have longer : (state.sendList ++ [id]).Nodup := by
        rw [List.nodup_append]
        exact ⟨distinct, List.nodup_singleton id, by grind -ring -linarith⟩
      cases taken
      constructor <;> grind -ring -linarith [Pending, setAt]
    · cases taken
  case remove =>
    split at taken
    · rename_i id rest idle list
      rw [list, List.nodup_cons] at distinct
      have flag : state.onSendList id = true := listed id (by simp [list])
      cases taken
      constructor <;> grind -ring -linarith [Pending]
    · cases taken
  case flush delayed limit =>
    split at taken
    · rename_i id removed
      cases taken
      exact flushStream_tracked whole delayed limit removed
    · cases taken
  case transition id target =>
    split at taken
    · cases taken
      refine ⟨sendqFlag, listFlag, listed, distinct, held, unlisted, ?_, ?_⟩ <;>
        grind -ring -linarith [Pending, setAt, allowed]
    · cases taken
  all_goals simp at mine

theorem step_tracked {state next} (tracked : Tracked state) (action : Action)
    (safe : Safe state action) (taken : step state action = some next) : Tracked next := by
  cases action with
  | write | copy | readSendq | readSendList | setSendq | enqueue =>
    exact app_tracked tracked _ safe taken rfl
  | _ => exact stack_tracked tracked _ taken rfl

theorem run_tracked (actions : List Action) {state last} (tracked : Tracked state)
    (safe : AllSafe state actions) (ran : run state actions = some last) : Tracked last := by
  induction actions generalizing state with
  | nil =>
    cases ran
    exact tracked
  | cons first rest ih =>
    obtain ⟨next, taken, rest⟩ := Option.bind_eq_some_iff.mp ran
    exact ih (step_tracked tracked first safe.1 taken) (safe.2 next taken) rest

theorem Tracked.noLostWakeup {state} (tracked : Tracked state) : NoLostWakeup state := by
  intro app stack id established unsent
  have pending := tracked.pending id established unsent
  simp only [Pending, app, stack, reduceCtorEq, or_false] at pending
  exact pending

theorem no_lost_wakeup {first last : State} (initial : Initial first) (actions : List Action)
    (safe : AllSafe first actions) (ran : run first actions = some last) : NoLostWakeup last :=
  (run_tracked actions (initial_tracked initial) safe ran).noLostWakeup

def start : State where
  tcp := fun _ => .established
  buffered := fun _ => 0
  sent := fun _ => 0
  onSendq := fun _ => false
  onSendList := fun _ => false
  sendq := []
  sendList := []
  app := .idle
  stack := .idle

theorem start_initial : Initial start := by
  constructor <;> simp [start]

def firstWrite : List Action :=
  [.write 0, .copy 5, .readSendq, .readSendList, .setSendq, .enqueue,
    .dequeue, .clearSendq, .testSendList, .addToSendList, .remove, .flush false 5]

def secondWrite : List Action :=
  [.clearSendList, .write 0, .copy 3, .readSendq, .readSendList, .setSendq, .enqueue]

theorem no_lost_wakeup_second_write : ∃ last,
    run start (firstWrite ++ secondWrite) = some last ∧ NoLostWakeup last := by
  refine ⟨_, rfl, no_lost_wakeup start_initial (firstWrite ++ secondWrite) ?_ rfl⟩
  repeat (refine ⟨trivial, ?_⟩; rintro _ ⟨⟩)
  refine ⟨(fun _ _ flushed => by cases flushed), ?_⟩
  rintro _ ⟨⟩
  repeat (refine ⟨trivial, ?_⟩; rintro _ ⟨⟩)
  refine ⟨(fun _ _ flushed => by cases flushed), ?_⟩
  rintro _ ⟨⟩
  repeat (refine ⟨trivial, ?_⟩; rintro _ ⟨⟩)
  trivial

theorem wakeup_lost : ∃ last,
    run start (firstWrite ++ [.write 0, .copy 3, .readSendq, .readSendList, .clearSendList]) =
      some last ∧ ¬NoLostWakeup last := by
  refine ⟨_, rfl, ?_⟩
  intro kept
  rcases kept rfl rfl 0 rfl (by decide) with queued | listed
  · cases queued
  · cases listed

end Mcc.SendWakeup
