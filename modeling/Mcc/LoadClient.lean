import Mcc.Connection

/-!
The MCC client and the distributed worker. A message is sent before it is stamped, and the stamp goes
into both templates, for whichever connection is served next. The counters `connected`, of `stats_sec`
and of `stats_log` alike, are moved by the callbacks of the connections only.
-/

namespace Mcc.LoadClient

section

structure Sender (Conn : Type) where
  reqCnt : Conn → BitVec 32
  request : BitVec 32
  heartbeat : BitVec 32
  sent : List (Conn × BitVec 32)

inductive Call (Conn : Type) where
  | sendRequest (conn : Conn)
  | sendHeartbeat (conn : Conn)

variable {Conn : Type} [DecidableEq Conn]

def Sender.send (s : Sender Conn) (conn : Conn) (template : BitVec 32) : Sender Conn :=
  let count := s.reqCnt conn + 1
  { reqCnt := Function.update s.reqCnt conn count
    request := count
    heartbeat := count
    sent := (conn, template) :: s.sent }

def Sender.step (s : Sender Conn) : Call Conn → Sender Conn
  | .sendRequest conn => s.send conn s.request
  | .sendHeartbeat conn => s.send conn s.heartbeat

def Sender.run (calls : List (Call Conn)) : Sender Conn :=
  calls.foldl Sender.step ⟨fun _ => 1, 0, 0, []⟩

def Sender.counters (s : Sender Conn) (conn : Conn) : List (BitVec 32) :=
  (s.sent.filter (·.1 = conn)).map Prod.snd

def Sender.Counts (s : Sender Conn) (first : Conn → BitVec 32) : Prop :=
  ∀ conn counter older, counter :: older <:+ s.counters conn →
    counter = first conn + .ofNat 32 older.length

theorem counters_twice (conn : Conn) :
    (Sender.run [.sendRequest conn, .sendRequest conn]).counters conn = [2, 0] := by
  simp [Sender.run, Sender.step, Sender.send, Sender.counters]

theorem counts_iff (Conn : Type) [DecidableEq Conn] :
    (∃ first : Conn → BitVec 32, ∀ calls, (Sender.run calls).Counts first) ↔ IsEmpty Conn := by
  constructor
  · rintro ⟨first, counts⟩
    refine ⟨fun conn => ?_⟩
    have twice := counts [.sendRequest conn, .sendRequest conn] conn
    rw [counters_twice] at twice
    have former := twice 0 [] (List.suffix_cons _ _)
    have second := twice 2 [0] (List.suffix_refl _)
    rw [List.length_nil, BitVec.add_zero] at former
    rw [← former] at second
    cases second
  · intro empty
    exact ⟨empty.elim, fun _ conn => empty.elim conn⟩

theorem counts_fails : ¬∃ first : Bool → BitVec 32, ∀ calls, (Sender.run calls).Counts first := by
  rintro ⟨first, counts⟩
  have alone := counts [.sendHeartbeat true] true 0 [] (List.suffix_refl _)
  have later := counts [.sendRequest false, .sendHeartbeat true] true 2 [] (List.suffix_refl _)
  rw [← alone] at later
  cases later

end

open Mcc.Connection (Kind Conn Script WriteResult)

inductive App where
  | client
  | worker

/-- What the failed and disconnect callbacks do besides counting: nothing in the client, which
reconnects later, by a task of its own. -/
def App.retry : App → Script
  | .client => .done
  | .worker => .next .reconnect .done

inductive Read where
  | data
  | eof
  | again
  | error
  deriving DecidableEq

inductive Event where
  | writable (succeeds : Bool) (result : WriteResult)
  | readable (succeeds : Bool) (reads : List Read)
  | sendPacket (data : List UInt8) (result : WriteResult)
  | close
  | reconnect

def handshake (succeeds : Bool) (app : App) : Connection.Handshake :=
  if succeeds then .success .done else .failure app.retry

def Read.result (app : App) : Read → Connection.ReadResult
  | .data => .data .done
  | .eof => .eof app.retry
  | .again => .again none
  | .error => .error app.retry

def deliver (c : Conn) (event : Event) (app : App) : Conn :=
  match event with
  | .writable succeeds result => c.handleWrite (handshake succeeds app) result app.retry
  | .readable succeeds reads => c.handleRead (handshake succeeds app) (reads.map (Read.result app))
  | .sendPacket data result => (Connection.Action.sendPacket data result app.retry).run c
  | .close => (Connection.Action.close .done).run c
  | .reconnect => c.attach

/-- What the callback adds to the counters, if one is called: `called` is the connection as the
callback finds it, and as the client's leaves it. -/
def App.adds (app : App) (c called : Conn) : Int :=
  if c.state = .connecting ∧ called.state = .connected then 1
  else if c.callbacks < called.callbacks then
    match app, called.state with
    | .client, .failed => 0
    | _, _ => -1
  else 0

structure Core where
  conns : List Conn
  connected : Int

inductive Step where
  | connect
  | event (con : Nat) (event : Event)

def step (app : App) (kind : Kind) (c : Core) : Step → Core
  | .connect => { c with conns := c.conns ++ [.create kind] }
  | .event con event =>
    match c.conns[con]? with
    | none => c
    | some conn =>
      ⟨c.conns.set con (deliver conn event app),
        c.connected + app.adds conn (deliver conn event .client)⟩

def share (c : Conn) : Int := if c.state = .connected then 1 else 0

def Exact (c : Core) : Prop := c.connected = (c.conns.map share).sum

def ExactAlong (app : App) (kind : Kind) (c : Core) : List Step → Prop
  | [] => Exact c
  | s :: rest => Exact c ∧ ExactAlong app kind (step app kind c s) rest

/-- No worker's connection fails, no posix read of the client and no mTCP write meets an error, and
nobody closes a posix connection before it is connected or reconnects one that is. -/
def Event.Counted (app : App) (c : Conn) : Event → Prop
  | .writable succeeds result => (app = .worker → c.state = .connecting → succeeds = true) ∧
    (c.kind = .mtcp → c.sends c.output.bytes = true → result ≠ .error)
  | .readable succeeds reads => (app = .worker → c.state = .connecting → succeeds = true) ∧
    (app = .client → c.kind = .posix → c.state = .connected → reads.find? (· ≠ .data) ≠ some .error)
  | .sendPacket data result => c.kind = .mtcp → c.sends data = true → result ≠ .error
  | .close => c.kind = .posix → c.state ≠ .connecting ∧ c.state ≠ .failed
  | .reconnect => c.state ≠ .connected

def Step.Counted (app : App) (c : Core) : Step → Prop
  | .connect => True
  | .event con happening => ∀ conn, c.conns[con]? = some conn → happening.Counted app conn

def CountedAlong (app : App) (kind : Kind) (c : Core) : List Step → Prop
  | [] => True
  | s :: rest => s.Counted app c ∧ CountedAlong app kind (step app kind c s) rest

def Live (c : Conn) : Prop := c.state = .connecting ∨ c.state = .connected → c.pfd ≠ none

/-- The counter follows the connection just if the event is one that counts. -/
def Follows (app : App) (c : Conn) (counted : Prop) (after : App → Conn) : Prop :=
  (counted ↔ share c + app.adds c (after .client) = share (after app)) ∧ (counted → Live (after app))

variable {app : App} {kind : Kind} {c mid : Conn} {counted : Prop} {after : App → Conn}

theorem follows_same (holds : counted) (live : Live c)
    (same : ∀ app, (after app).state = c.state ∧ (after app).callbacks = c.callbacks ∧
      (after app).pfd = c.pfd) : Follows app c counted after := by
  obtain ⟨state, callbacks, -⟩ := same .client
  obtain ⟨final, -, pfd⟩ := same app
  refine ⟨iff_of_true holds ?_, fun _ => by rwa [Live, final, pfd]⟩
  have apart : ¬(c.state = .connecting ∧ c.state = .connected) := by grind
  simp [App.adds, state, callbacks, share, final, apart]

/-- The callback is called in `mid`. -/
theorem follows_called (isAfter : ∀ app, after app = app.retry.run mid)
    (callbacks : mid.callbacks = c.callbacks + 1)
    (ended : mid.state = .failed ∧ c.state = .connecting ∧ (counted ↔ app = .client) ∨
      mid.state = .disconnect ∧ c.state = .connected ∧ counted ∨
      mid.state = .connected ∧ c.state = .connected ∧ (counted ↔ app = .worker)) :
    Follows app c counted after := by
  have called : after .client = mid := isAfter .client
  have again : after .worker = mid.attach := isAfter .worker
  have reconnects : mid.attach.state = .connecting ∧ mid.attach.pfd ≠ none := ⟨rfl, nofun⟩
  rw [Follows, called]
  cases app <;> simp only [called, again] <;>
    rcases ended with ⟨left, before, holds⟩ | ⟨left, before, holds⟩ | ⟨left, before, holds⟩ <;>
    simp [App.adds, share, Live, reconnects, left, before, callbacks, holds]

theorem cleanup_called (c : Conn) :
    c.cleanup.state = c.state ∧ c.cleanup.callbacks = c.callbacks + 1 := by
  unfold Conn.cleanup Conn.release
  split <;> exact ⟨rfl, rfl⟩

theorem handshake_follows {succeeds} (state : c.state = .connecting) (live : Live c)
    (holds : counted ↔ (app = .worker → succeeds = true)) :
    Follows app c counted fun app => c.handleHandshake (handshake succeeds app) := by
  cases succeeds with
  | true =>
    refine ⟨iff_of_true (holds.mpr fun _ => rfl) ?_, fun _ _ => live (.inl state)⟩
    simp [App.adds, share, state, handshake, Conn.handleHandshake, Script.run]
  | false =>
    refine @follows_called app c { c with state := .failed }.notify _ _ (fun _ => rfl) rfl
      (.inl ⟨rfl, state, ?_⟩)
    cases app <;> simp [holds]

theorem take_same (c : Conn) (data : List UInt8) (own : Bool) (count : Nat) :
    (c.take data own count).state = c.state ∧ (c.take data own count).callbacks = c.callbacks ∧
      (c.take data own count).pfd = c.pfd := by
  unfold Conn.take
  repeat' split
  all_goals exact ⟨rfl, rfl, rfl⟩

theorem send_follows {data own result} (state : c.state = .connected) (live : Live c)
    (holds : counted ↔ (c.kind = .mtcp → result ≠ .error)) :
    Follows app c counted fun app =>
      if result = .error && c.kind = .posix then app.retry.run (c.send data own result)
      else c.send data own result := by
  have attached := live (.inr state)
  cases result with
  | wrote count =>
    refine follows_same (by simp [holds]) live fun _ => ?_
    have same := take_same c data own count
    simp only [reduceCtorEq, decide_false, Bool.false_and, Bool.false_eq_true, if_false, Conn.send, attached]
    split <;> exact same
  | error =>
    cases kind : c.kind with
    | posix =>
      obtain ⟨left, callbacks⟩ := cleanup_called { c with state := .disconnect }
      refine follows_called (fun app => ?_) callbacks (.inr (.inl ⟨left, state, by simp [holds, kind]⟩))
      simp [Conn.send, attached, Conn.sendError, kind]
    | mtcp =>
      have fails : ¬counted := by simp [holds, kind]
      refine ⟨iff_of_false fails ?_, fun counted => absurd counted fails⟩
      simp [App.adds, share, Conn.send, attached, Conn.sendError, kind, state]

theorem readLoop_follows (reads : List Read) (state : c.state = .connected) (live : Live c)
    (holds : counted ↔ (app = .client → c.kind = .posix → reads.find? (· ≠ .data) ≠ some .error)) :
    Follows app c counted fun app => c.readLoop (reads.map (Read.result app)) := by
  induction reads generalizing c with
  | nil => exact follows_same (by simp [holds]) live fun _ => ⟨rfl, rfl, rfl⟩
  | cons read rest ih =>
    obtain ⟨left, callbacks⟩ := cleanup_called { c with state := .disconnect }
    simp only [List.map_cons, Conn.readLoop, if_pos state]
    cases read with
    | data => exact @ih { c with wantRead := true } state live (by simpa using holds)
    | eof =>
      exact follows_called (fun _ => rfl) callbacks (.inr (.inl ⟨left, state, by simp [holds]⟩))
    | again =>
      refine follows_same (by simp [holds]) live fun _ => ?_
      dsimp only [Read.result]
      split <;> exact ⟨rfl, rfl, rfl⟩
    | error =>
      cases kind : c.kind with
      | posix =>
        obtain ⟨kept, called⟩ := cleanup_called c
        refine follows_called (fun _ => rfl) called (.inr (.inr ⟨kept.trans state, state, ?_⟩))
        cases app <;> simp [holds, kind]
      | mtcp =>
        rw [kind] at left callbacks
        exact follows_called (fun _ => rfl) callbacks (.inr (.inl ⟨left, state, by simp [holds, kind]⟩))

theorem handleRead_connecting {succeeds reads} (state : c.state = .connecting) (live : Live c) (app : App) :
    c.handleRead (handshake succeeds app) reads = c.handleHandshake (handshake succeeds app) := by
  have attached := live (.inl state)
  have idle : ∀ {after : Conn}, after.state ≠ .connected → after.readLoop reads = after := by
    intro after other
    cases reads with
    | nil => rfl
    | cons => exact if_neg other
  cases succeeds with
  | true => exact if_pos state
  | false =>
    refine (if_pos state).trans ((if_neg ?_).trans (idle ?_))
    · cases app
      · exact attached
      · exact nofun
    · cases app <;> exact nofun

theorem event_follows (live : Live c) (event : Event) :
    Follows app c (event.Counted app c) (deliver c event) := by
  unfold deliver Event.Counted
  cases event with
  | writable succeeds result =>
    by_cases connecting : c.state = .connecting
    · simp only [Conn.handleWrite, if_pos connecting]
      exact handshake_follows connecting live (by simp [connecting, Conn.sends])
    · by_cases sends : c.sends c.output.bytes = true
      · simp only [Conn.handleWrite, if_neg connecting, if_pos sends]
        exact send_follows (Connection.sends_connected sends) live (by simp [connecting, sends])
      · simp only [Conn.handleWrite, if_neg connecting, if_neg sends]
        exact follows_same (by simp [connecting, sends]) live fun _ => ⟨rfl, rfl, rfl⟩
  | readable succeeds reads =>
    by_cases connecting : c.state = .connecting
    · simp only [handleRead_connecting connecting live]
      exact handshake_follows connecting live (by simp [connecting])
    · by_cases connected : c.state = .connected
      · simp only [Conn.handleRead, if_neg connecting, if_neg (live (.inr connected))]
        exact readLoop_follows reads connected live (by simp [connected])
      · refine follows_same (by simp [connecting, connected]) live fun app => ?_
        simp only [Conn.handleRead, if_neg connecting]
        split
        · exact ⟨rfl, rfl, rfl⟩
        · cases reads with
          | nil => exact ⟨rfl, rfl, rfl⟩
          | cons => simp [Conn.readLoop, connected]
  | sendPacket data result =>
    by_cases sends : c.sends data = true
    · simp only [Connection.Action.run, if_pos sends]
      exact @send_follows app { c with passed := c.passed ++ data } _ _ _ _ (Connection.sends_connected sends) live
        (by simp [sends])
    · simp only [Connection.Action.run, if_neg sends]
      exact follows_same (fun _ sent => absurd sent sends) live fun _ => ⟨rfl, rfl, rfl⟩
  | close =>
    by_cases may : c.mayClose = true
    · obtain ⟨left, callbacks⟩ := cleanup_called { c with state := .closed }
      have closes : (Connection.Action.close .done).run c = { c with state := .closed }.cleanup := by
        simp [Connection.Action.run, Script.run, Conn.close, Conn.cleanup, may]
      simp only [closes]
      refine ⟨?_, fun _ alive => ?_⟩
      · simp only [App.adds, share, left, callbacks]
        cases kind : c.kind <;> cases state : c.state <;> simp_all [Conn.mayClose]
      · simp [left] at alive
    · have ignored : (Connection.Action.close .done).run c = c.close := by simp [Connection.Action.run, may]
      simp only [ignored, Conn.close, may]
      refine follows_same ?_ live fun _ => ⟨rfl, rfl, rfl⟩
      cases kind : c.kind <;> cases state : c.state <;> simp_all [Conn.mayClose]
  | reconnect =>
    refine ⟨?_, fun _ _ => Option.some_ne_none _⟩
    simp only [App.adds, share]
    cases state : c.state <;> simp [Conn.attach]

theorem step_follows {c : Core} (correct : Exact c) (live : ∀ conn ∈ c.conns, Live conn) (s : Step) :
    (Exact (step app kind c s) ↔ s.Counted app c) ∧
      (s.Counted app c → ∀ conn ∈ (step app kind c s).conns, Live conn) := by
  cases s with
  | connect =>
    refine ⟨iff_of_true ?_ trivial, fun _ conn member => ?_⟩
    · simpa [step, Exact, share, Conn.create, Conn.attach] using correct
    · rcases List.mem_append.mp member with before | new
      · exact live conn before
      · cases List.mem_singleton.mp new
        exact fun _ => Option.some_ne_none _
  | event con happening =>
    rw [step, Step.Counted]
    cases found : c.conns[con]? with
    | none => exact ⟨by simpa using correct, fun _ => live⟩
    | some conn =>
      obtain ⟨inside, isConn⟩ := List.getElem?_eq_some_iff.mp found
      obtain ⟨balanced, alive⟩ :=
        @event_follows app conn (live conn (isConn ▸ List.getElem_mem inside)) happening
      simp only [Option.some.injEq, forall_eq']
      refine ⟨?_, fun counted other member => ?_⟩
      · rw [balanced]
        simp only [Exact, List.map_set, List.sum_set', List.length_map, inside, dite_true, List.getElem_map,
          isConn] at correct ⊢
        omega
      · rcases List.mem_or_eq_of_mem_set member with before | rfl
        · exact live other before
        · exact alive counted

theorem connected_iff (app : App) (kind : Kind) (steps : List Step) :
    ExactAlong app kind ⟨[], 0⟩ steps ↔ CountedAlong app kind ⟨[], 0⟩ steps := by
  have along : ∀ c, Exact c → (∀ conn ∈ c.conns, Live conn) →
      (ExactAlong app kind c steps ↔ CountedAlong app kind c steps) := by
    induction steps with
    | nil => exact fun c correct _ => iff_of_true correct trivial
    | cons s rest ih =>
      intro c correct live
      obtain ⟨follows, alive⟩ := @step_follows app kind c correct live s
      rw [ExactAlong, CountedAlong, ← follows, and_iff_right correct]
      constructor
      · intro along
        have next : Exact (step app kind c s) := by
          cases rest with
          | nil => exact along
          | cons => exact along.1
        exact ⟨next, (ih _ next (alive (follows.mp next))).mp along⟩
      · exact fun ⟨next, counted⟩ => (ih _ next (alive (follows.mp next))).mpr counted
  exact along _ rfl (by simp)

/-- A worker's connection that fails is subtracted although it was never added, and a posix read
error of the client is subtracted although the connection stays connected. -/
theorem connected_wraps :
    ¬ExactAlong .worker .posix ⟨[], 0⟩ [.connect, .event 0 (.writable false .error)] ∧
    ¬ExactAlong .client .posix ⟨[], 0⟩
      [.connect, .event 0 (.writable true .error), .event 0 (.readable true [.error])] :=
  ⟨fun along => absurd along.2.2 (by unfold ExactAlong Exact; decide),
    fun along => absurd along.2.2.2 (by unfold ExactAlong Exact; decide)⟩

end Mcc.LoadClient
