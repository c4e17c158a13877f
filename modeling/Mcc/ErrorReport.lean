import Mcc.Connection
import Mcc.Progress
import Mcc.TcpStatus

/-!
How the end of a stream comes to the application: the stack raises an event for the socket, the
event goes through the queues of the epoll object, the backend picks the bits it knows, and the
handler of the connection asks the stream what has happened. The backend knows `MTCP_EPOLLIN` and
`MTCP_EPOLLOUT` only, and the stack tells of an error by `MTCP_EPOLLERR`.
-/

namespace Mcc.ErrorReport

open Connection Mcc.Lists Conn

inductive Bit where
  | epollin
  | epollout
  | epollerr
  deriving Repr, DecidableEq

structure Link where
  host : Host
  conn : Conn
  mtcpQueue : List Bit
  usrQueue : List Bit
  usrShadowQueue : List Bit
  aborted : Bool

open Link

namespace Link

def stream (link : Link) : TcpStream := link.host.stream

def setStream (link : Link) (stream : TcpStream) : Link :=
  { link with host := { link.host with stream } }

def events (link : Link) : List Bit := link.mtcpQueue ++ link.usrQueue ++ link.usrShadowQueue

def stores (link : Link) (room : Bool) (bit : Bit) : Bool :=
  link.conn.registered && room && !link.events.contains bit

def raiseMtcp (room : Bool) (link : Link) (bit : Bit) : Link :=
  if link.stores room bit then { link with mtcpQueue := link.mtcpQueue ++ [bit] } else link

def raiseShadow (room : Bool) (link : Link) (bit : Bit) : Link :=
  if link.stores room bit then { link with usrShadowQueue := link.usrShadowQueue ++ [bit] } else link

end Link

/-- No connection asks for `MTCP_EPOLLRDHUP`, so a close is told by `MTCP_EPOLLIN`. -/
def bitOf : EventKind → Bit
  | .read | .close => .epollin
  | .write => .epollout
  | .error => .epollerr

def raisedSince (before after : List Mcc.Action) : List EventKind :=
  ((after.take (after.length - before.length)).filterMap fun action => match action with
    | .raised kind => some kind
    | _ => none).reverse

def ofStack : Step → Bool
  | .write _ _ | .recv _ | .close _ | .abort _ | .accept _ => false
  | _ => true

abbrev StackStep := { taken : Step // ofStack taken = true }

inductive Errno where
  | ok
  | timedout
  | connreset
  | inprogress
  deriving Repr, DecidableEq

/-- `GetSocketError`, which looks at an `errno` of earlier calls in `SYN_SENT`. It fails with
`ENOSYS` if the connection is over for another reason than those it knows. -/
def getSocketError (inProgress : Bool) (s : TcpStream) : Option Errno :=
  if s.state = .closed ∧ (s.closeReason = .timedout ∨ s.closeReason = .connFail ∨
      s.closeReason = .connLost) then some .timedout
  else if (s.state = .closeWait ∨ s.state = .closed) ∧ s.closeReason = .reset then some .connreset
  else if s.state = .synSent ∧ inProgress then some .inprogress
  else if s.closeReason = .notClosed then some .ok
  else none

def handshakeOf (inProgress : Bool) (s : TcpStream) : Option Connection.Handshake :=
  (getSocketError inProgress s).map fun err =>
    if err = .ok then .success .done else .failure .done

inductive RecvOutcome where
  | data
  | eof
  | again
  | error
  deriving Repr, DecidableEq

def recvOutcome (len : Nat) (s : TcpStream) : RecvOutcome :=
  if TcpState.established.number ≤ s.state.number ∧ s.state.number ≤ TcpState.closeWait.number then
    match s.rcv.rcvbuf with
    | none => if s.state = .closeWait then .eof else .again
    | some buff =>
      if buff.mergedLen = 0 then if s.state = .closeWait then .eof else .again
      else if len = 0 then .again
      else .data
  else .error

def mergedLen (s : TcpStream) : Nat :=
  match s.rcv.rcvbuf with
  | none => 0
  | some buff => buff.mergedLen

structure Handling where
  inProgress : Bool := false
  message : Bool := false
  room : Bool := true
  chunk : Option (List UInt8) := none
  spaces : Nat → Nat := fun _ => 1024

namespace Link

def recv (link : Link) (room : Bool) (len : Nat) : Except Fault Link := do
  let after ← mtcpRecv len link.stream
  let read := link.setStream after
  return if 0 < mergedLen after ∨ after.state = .closeWait then read.raiseShadow room .epollin else read

def reads (handling : Handling) : Nat → Link → Except Fault (Link × List ReadResult)
  | 0, link => .ok (link, [])
  | fuel + 1, link =>
    match recvOutcome (handling.spaces fuel) link.stream with
    | .data => do
        let read ← link.recv handling.room (handling.spaces fuel)
        let (last, results) ← reads handling fuel read
        return (last, .data .done :: results)
    | .eof => .ok (link, [.eof .done])
    | .again => .ok (link, [.again (if handling.message then some .done else none)])
    | .error => .ok (link, [.error .done])

def setConn (link : Link) (room : Bool) (conn : Conn) : Link :=
  if link.conn.registered ∧ conn.registered = false then
    { link.setStream (mtcpClose room link.stream) with conn }
  else { link with conn }

def writeResult (data : List UInt8) (before after : TcpStream) : WriteResult :=
  let sndlen := min (SerialNumber.signed before.ctl.sndWnd) (SerialNumber.signed (UInt32.ofNat data.length))
  if sndlen ≤ 0 then .wrote 0
  else if after.seqs.sndbuf = none then .error
  else .wrote sndlen.toNat

def write (config : Config) (link : Link) (room : Bool) (chunk : Option (List UInt8))
    (data : List UInt8) : Except Fault (Link × WriteResult) :=
  if link.stream.state = .established ∨ link.stream.state = .closeWait then do
    let after ← mtcpWrite config chunk data link.stream
    let written := link.setStream after
    return (if 0 < after.ctl.sndWnd then written.raiseShadow room .epollout else written,
      writeResult data link.stream after)
  else .ok (link, .error)

def pollin (handling : Handling) (link : Link) : Except Fault Link :=
  if link.stream.onHashTable = false then .error .nullPointer
  else if link.conn.state = .connecting then
    match handshakeOf handling.inProgress link.stream with
    | none => .ok { link with aborted := true }
    | some handshake =>
      .ok (link.setConn handling.room (Connection.step link.conn (.readable handshake [])))
  else if link.conn.state = .connected then do
    let (read, results) ← reads handling (mergedLen link.stream + 1) link
    return read.setConn handling.room (Connection.step read.conn (.readable (.success .done) results))
  else .ok { link with conn := Connection.step link.conn (.readable (.success .done) []) }

def pollout (config : Config) (handling : Handling) (link : Link) : Except Fault Link :=
  if link.stream.onHashTable = false then .error .nullPointer
  else if link.conn.state = .connecting then
    match handshakeOf handling.inProgress link.stream with
    | none => .ok { link with aborted := true }
    | some handshake =>
      .ok (link.setConn handling.room (Connection.step link.conn (.writable handshake .error .done)))
  else if link.conn.sends link.conn.output.bytes then do
    let (written, result) ← link.write config handling.room handling.chunk link.conn.output.bytes
    return { written with conn := Connection.step link.conn (.writable (.success .done) result .done) }
  else .ok { link with conn := Connection.step link.conn (.writable (.success .done) .error .done) }

def complete (config : Config) (handling : Bit → Handling) (link : Link) (bit : Bit) :
    Except Fault Link :=
  if link.aborted || !link.conn.registered then .ok link
  else
    match bit with
    | .epollin => if link.conn.wantRead then link.pollin (handling bit) else .ok link
    | .epollout => if link.conn.wantWrite then link.pollout config (handling bit) else .ok link
    | .epollerr => .ok link

def poll (config : Config) (count : Nat) (handling : Bit → Handling) (link : Link) :
    Except Fault Link :=
  ((link.usrQueue ++ link.usrShadowQueue).take count).foldlM (complete config handling)
    { link with
      usrQueue := link.usrQueue.drop count
      usrShadowQueue := link.usrShadowQueue.drop (count - link.usrQueue.length) }

def flush (count : Nat) (link : Link) : Link :=
  { link with
    mtcpQueue := link.mtcpQueue.drop count
    usrQueue := link.usrQueue ++ link.mtcpQueue.take count }

def stack (config : Config) (taken : StackStep) (room : Bool) (link : Link) : Except Fault Link := do
  let host ← Mcc.step config link.host taken
  return (raisedSince link.stream.history host.stream.history).foldl
    (fun link kind => link.raiseMtcp room (bitOf kind)) { link with host }

def send (config : Config) (room : Bool) (chunk : Option (List UInt8)) (data : List UInt8)
    (link : Link) : Except Fault Link :=
  if link.conn.sends data then
    if link.stream.onHashTable = false then .error .nullPointer
    else do
      let (written, result) ← link.write config room chunk data
      return { written with conn := (Connection.Action.sendPacket data result .done).run link.conn }
  else .ok { link with conn := (Connection.Action.sendPacket data .error .done).run link.conn }

def close (room : Bool) (link : Link) : Link :=
  link.setConn room ((Connection.Action.close .done).run link.conn)

def attach (host : Host) (room : Bool) : Link :=
  let link : Link :=
    { host, conn := .create .mtcp, mtcpQueue := [], usrQueue := [], usrShadowQueue := [], aborted := false }
  if host.stream.state.number < TcpState.established.number then link
  else
    let readable :=
      if 0 < mergedLen host.stream ∨ host.stream.state = .closeWait then link.raiseShadow room .epollin
      else link
    if host.stream.seqs.sndbuf = none ∨ 0 < host.stream.ctl.sndWnd then readable.raiseShadow room .epollout
    else readable

end Link

inductive Move where
  | stack (taken : StackStep) (room : Bool)
  | flush (count : Nat)
  | poll (count : Nat) (handling : Bit → Handling)
  | send (room : Bool) (chunk : Option (List UInt8)) (data : List UInt8)
  | close (room : Bool)

def step (config : Config) (link : Link) (move : Move) : Except Fault Link :=
  if link.aborted then .ok link
  else
    match move with
    | .stack taken room => link.stack config taken room
    | .flush count => .ok (link.flush count)
    | .poll count handling => link.poll config count handling
    | .send room chunk data => link.send config room chunk data
    | .close room => .ok (link.close room)

def Terminated (s t : TcpStream) : Prop :=
  s.state ≠ .closed ∧ t.state = .closed ∧
      (t.closeReason = .connFail ∨ t.closeReason = .connLost ∨ t.closeReason = .timedout ∨
        t.closeReason = .noMem) ∨
    s.state = .synSent ∧ t.state = .closeWait ∧ t.closeReason = .reset

instance (s t : TcpStream) : Decidable (Terminated s t) := inferInstanceAs (Decidable (_ ∨ _))

def Idle (s : TcpStream) : Prop :=
  s.onHashTable = true ∧ s.lists.onControlList = false ∧ s.lists.controlListWaiting = false ∧
    s.lists.onTimewaitList = false ∧ s.queues.connectq = 0 ∧ s.queues.closeq = 0 ∧
    s.queues.closeqInt = 0 ∧ s.queues.resetq = 0 ∧ s.queues.resetqInt = 0 ∧ s.queues.destroyq = 0

instance (s : TcpStream) : Decidable (Idle s) := inferInstanceAs (Decidable (_ ∧ _))

def starved : Step → Bool
  | .segment _ none _ _ => true
  | _ => false

variable {s t : TcpStream}

theorem Idle.of_status (idle : Idle s) (status : t.status = s.status)
    (onControlList : t.lists.onControlList = s.lists.onControlList)
    (controlListWaiting : t.lists.controlListWaiting = s.lists.controlListWaiting)
    (onTimewaitList : t.lists.onTimewaitList = s.lists.onTimewaitList) : Idle t := by
  have onHashTable : t.onHashTable = s.onHashTable := congrArg Status.onHashTable status
  have queues : t.queues = s.queues := congrArg Status.queues status
  rw [Idle, onHashTable, queues, onControlList, controlListWaiting, onTimewaitList]
  exact idle

variable {segment : Segment}

theorem receiveACK_idle {curTs} (idle : Idle s) (done : receiveACK curTs segment s = .ok t) :
    Idle t ∧ t.state = s.state ∧ t.closeReason = s.closeReason := by
  rcases receiveACK_cases done with rfl | ⟨buf, fast, -, -, acked⟩
  · exact ⟨idle, rfl, rfl⟩
  · have lists := acked.lists
    exact ⟨idle.of_status acked.steady.status (congrArg onControlList lists :)
      (congrArg controlListWaiting lists :) (congrArg onTimewaitList lists :),
      acked.steady.state, acked.steady.closeReason⟩

variable {config : Config} {around : Surroundings}

theorem receivePayload_idle (idle : Idle s) (done : receivePayload config around segment s = .ok t) :
    Idle t ∧ (t.state = s.state ∨ around.chunk = none ∧ t.state = .closed ∧ t.closeReason = .noMem) := by
  refine ⟨?_, ?_⟩
  · have received := (receivePayload_spec done).1
    have lists := received.lists
    exact idle.of_status received.status (congrArg onControlList lists :)
      (congrArg controlListWaiting lists :) (congrArg onTimewaitList lists :)
  · rcases receivePayload_cases done with ⟨-, rfl⟩ | ⟨-, stored, inOrder, rfl, outcome⟩
    · exact .inl rfl
    · rcases outcome with rfl | ⟨buff, -, -, -, store⟩ | ⟨-, starving, rfl⟩
      · exact .inl rfl
      · obtain ⟨_, _, _, _, -, -, rfl, -⟩ := storePayload_form store
        exact .inl rfl
      · exact .inr ⟨starving, rfl, rfl⟩

section

variable (idle : Idle s) (state : s.state = .established ∨ s.state = .closeWait)
  (closed : t.state = .closed)
include idle state closed

theorem absorbed_idle (absorbed : Absorbed config around segment s t) :
    Idle t ∧ around.chunk = none ∧ t.closeReason = .noMem := by
  cases absorbed
  case established received established receive ack =>
    obtain ⟨stored, opened⟩ := receivePayload_idle idle receive
    obtain ⟨kept, sameState, sameReason⟩ : Idle t ∧ t.state = received.state ∧
        t.closeReason = received.closeReason := by
      rcases ack with ⟨-, ack⟩ | ⟨-, rfl⟩
      · exact receiveACK_idle stored ack
      · exact ⟨stored, rfl, rfl⟩
    rcases opened with same | ⟨starving, -, reason⟩
    · rw [closed, same, established] at sameState
      cases sameState
    · exact ⟨kept, starving, sameReason.trans reason⟩
  case acked ack =>
    rw [(receiveACK_idle idle ack).2.1] at closed
    simp [closed] at state
  all_goals simp_all

theorem answered_idle (answered : Answered config around segment s t) :
    Idle t ∧ around.chunk = none ∧ t.closeReason = .noMem := by
  have opened : s.state ≠ .closed := by rcases state with now | now <;> rw [now] <;> nofun
  cases answered
  case same | syn | control => exact absurd closed opened
  case closeWait | reset => cases closed
  case absorbed absorbed => exact absorbed_idle idle state closed absorbed
  case gap absorbed =>
    have ended := absorbed_idle idle state (by exact closed) absorbed
    exact ended
  all_goals rcases state with now | now <;> simp_all

theorem processTCPPacket_idle (done : processTCPPacket config around segment s = .ok t) :
    Idle t ∧ around.chunk = none ∧ t.closeReason = .noMem := by
  have settled : s.state.opening = false := by rcases state with now | now <;> rw [now] <;> rfl
  obtain ⟨checked, validated, rfl | ⟨lists, answered⟩⟩ := processTCPPacket_settled settled done
  · rw [validated.state] at closed
    simp [closed] at state
  · refine answered_idle ?_ (by rwa [show (noteSegment _ _ _).state = _ from validated.state]) closed
      answered
    have kept : Idle checked := idle.of_status validated.status (by rw [lists]) (by rw [lists]) (by rw [lists])
    exact kept

end

structure Dead (s : TcpStream) : Prop where
  idle : Idle s
  socket : s.socket = true
  state : s.state = .closed
  reason : s.closeReason = .connLost ∨ s.closeReason = .timedout ∨ s.closeReason = .noMem

theorem writeTCPDataList_state {buffers curTs}
    (done : writeTCPDataList buffers curTs s = .ok t) : t.state = s.state :=
  @writeTCPDataList_preserves s t _ (fun u => u.state = s.state) _
    (fun _ same passed => (flushPass_flushed passed).steady.state.trans same) id rfl done

theorem Idle.unmoved {listener taken} (idle : Idle s)
    (isQueue : taken ∈ [.connectq, .closeq, .closeqInt, .resetq, .resetqInt, .destroyq])
    (done : stepStream config listener s taken = .ok t) : t = s := by
  obtain ⟨-, -, -, -, connectq, closeq, closeqInt, resetq, resetqInt, destroyq⟩ := idle
  simp only [List.mem_cons, List.not_mem_nil, or_false] at isQueue
  rcases isQueue with rfl | rfl | rfl | rfl | rfl | rfl <;>
    simp_all [stepStream, handleConnectq, handleCloseq, handleCloseqInt, handleResetq,
      handleResetqInt, handleDestroyq]

theorem stepStream_ends {listener taken} (stack : ofStack taken = true)
    (idle : Idle s) (socket : s.socket = true) (state : s.state = .established ∨ s.state = .closeWait)
    (done : stepStream config listener s taken = .ok t) (closed : t.state = .closed) :
    Dead t ∧ (starved taken = false → t.closeReason ≠ .noMem) := by
  have opened : ∀ {P : Prop}, t.state = s.state → P := by
    intro P same
    rw [closed] at same
    rcases state with state | state <;> exact absurd (same.trans state) (by decide)
  have unheld : ∀ {P : Prop}, s.socket = false → P := fun free => Bool.noConfusion (socket.symm.trans free)
  have ⟨_, onControlList, _, onTimewaitList, _⟩ := idle
  cases stepStream_stepped done
  case segment curTs chunk acceptRoom segment _ done =>
    obtain ⟨kept, starving, reason⟩ := processTCPPacket_idle idle state closed done
    have queued : t.socket = s.socket := by
      rcases processTCPPacket_fate done with ⟨-, kept⟩ | kept | freed
      · exact kept.socket
      · exact kept.socket
      · exact freed.socket
    refine ⟨⟨kept, queued.trans socket, closed, .inr (.inr reason)⟩, ?_⟩
    intro fed
    cases chunk with
    | none => cases fed
    | some chunk => cases starving
  case rtoUnopened early _ =>
    rcases state with state | state <;> rw [state] at early <;> exact absurd early (by decide)
  case rtoLost ended =>
    rcases ended with ⟨-, rfl⟩ | ⟨free, -⟩
    · exact ⟨⟨idle, socket, rfl, .inl rfl⟩, fun _ => nofun⟩
    · exact unheld free
  case rtoFailed early _ | rtoReset early _ =>
    rcases state with state | state <;> exact absurd (state.symm.trans early) (by decide)
  case connectionTimeout ended =>
    rcases ended with ⟨-, rfl⟩ | ⟨free, -⟩
    · exact ⟨⟨idle, socket, rfl, .inr (.inl rfl)⟩, fun _ => nofun⟩
    · exact unheld free
  case timewaitExpire listed _ => exact Bool.noConfusion (listed.symm.trans onTimewaitList)
  case writeControl listed _ => exact Bool.noConfusion (listed.symm.trans onControlList)
  case writeData done => exact opened (writeTCPDataList_state done)
  case writeAck => exact opened (serveACKs_served _ _ s).state
  case unwritten | written | recv | close | closeDestroy | closeQueued | abort | abortDestroy |
      abortQueued | accept => cases stack
  all_goals first
    | exact opened rfl
    | exact opened (congrArg _ (idle.unmoved (by simp) done))

theorem processTCPPacket_closed (state : s.state = .closed)
    (done : processTCPPacket config around segment s = .ok t) :
    t = noteSegment around.curTs segment s := by
  have noted : (noteSegment around.curTs segment s).state = .closed := state
  rw [processTCPPacket, if_neg (by rw [state]; decide), acceptSegment_passes (.inl state),
    handleState, noted] at done
  exact (Except.ok.inj done).symm

theorem stepStream_dead {listener taken} (stack : ofStack taken = true)
    (dead : Dead s) (done : stepStream config listener s taken = .ok t) :
    Dead t ∧ (s.closeReason ≠ .noMem → t.closeReason ≠ .noMem) := by
  have ⟨_, onControlList, controlListWaiting, onTimewaitList, _⟩ := dead.idle
  have like : ∀ {u : TcpStream}, Idle u → u.socket = s.socket → u.state = s.state →
      u.closeReason = s.closeReason → Dead u ∧ (s.closeReason ≠ .noMem → u.closeReason ≠ .noMem) := by
    intro u idle socket state reason
    exact ⟨⟨idle, socket.trans dead.socket, state.trans dead.state, by rw [reason]; exact dead.reason⟩,
      fun memory => by rwa [reason]⟩
  have finished : s.closeReason ≠ .notClosed := by
    intro unclosed
    rcases dead.reason with reason | reason | reason <;>
      exact absurd (reason.symm.trans unclosed) (by decide)
  cases stepStream_stepped done
  case segment done =>
    rw [processTCPPacket_closed dead.state done]
    exact like dead.idle rfl rfl rfl
  case rtoUnopened due _ _ | rtoLost due _ | rtoFailed due _ _ | rtoReset due _ _ =>
    exact absurd due.2 finished
  case rtoData other _ | rtoFinData other | rtoFin other | rtoSyn other => simp [dead.state] at other
  case connectionTimeout ended =>
    rcases ended with ⟨-, rfl⟩ | ⟨free, -⟩
    · exact ⟨⟨dead.idle, dead.socket, rfl, .inr (.inl rfl)⟩, fun _ => nofun⟩
    · exact Bool.noConfusion (dead.socket.symm.trans free)
  case timewaitExpire listed _ => exact Bool.noConfusion (listed.symm.trans onTimewaitList)
  case writeControl listed _ => exact Bool.noConfusion (listed.symm.trans onControlList)
  case writeData done =>
    simp only [writeTCPDataList, serveData, dead.state, bind, Except.bind] at done
    cases done
    refine like ?_ rfl rfl rfl
    simpa [Idle, finishData, controlListWaiting] using dead.idle
  case writeAck buffers curTs _ =>
    have served := serveACKs_served buffers curTs s
    refine like ?_ (congrArg Status.socket served.status :) served.state served.closeReason
    have waiting : (serveACKs buffers curTs s).lists.controlListWaiting = false :=
      (congrArg Lists.controlListWaiting served.lists :).trans controlListWaiting
    have idle : Idle (serveACKs buffers curTs s) := by
      have lists := served.lists
      exact dead.idle.of_status served.status (congrArg Lists.onControlList lists :)
        (congrArg Lists.controlListWaiting lists :) (congrArg Lists.onTimewaitList lists :)
    simpa [Idle, writeTCPACKList, waiting] using idle
  case unwritten | written | recv | close | closeDestroy | closeQueued | abort | abortDestroy |
      abortQueued | accept => cases stack
  all_goals first
    | exact like dead.idle rfl rfl rfl
    | rw [dead.idle.unmoved (by simp) done]
      exact like dead.idle rfl rfl rfl

def Reported (count : Nat) (conn : Conn) : Prop :=
  (conn.state = .failed ∨ conn.state = .disconnect) ∧ conn.callbacks = count + 1

instance (count : Nat) (conn : Conn) : Decidable (Reported count conn) :=
  inferInstanceAs (Decidable (_ ∧ _))

structure Listening (bit : Bit) (conn : Conn) : Prop where
  mtcp : conn.kind = .mtcp
  registered : conn.registered = true
  output : conn.output.bytes = []
  live : conn.state = .connecting ∨ conn.state = .connected
  asks : bit = .epollin ∧ conn.wantRead = true ∨
    bit = .epollout ∧ conn.wantWrite = true ∧ conn.state = .connecting

theorem readable_failure {conn} (registered : conn.registered = true)
    (asks : conn.wantRead = true) (connecting : conn.state = .connecting) :
    Reported conn.callbacks (Connection.step conn (.readable (.failure .done) [])) := by
  rw [Connection.step, if_pos (by simp [registered, asks]), handleRead, if_pos connecting]
  have reported : Reported conn.callbacks
      (handleHandshake { conn with wantRead := false } (.failure .done)) := ⟨.inl rfl, rfl⟩
  dsimp only
  split
  · exact reported
  · exact reported

theorem writable_failure {conn} (registered : conn.registered = true)
    (asks : conn.wantWrite = true) (connecting : conn.state = .connecting) (result : WriteResult) :
    Reported conn.callbacks (Connection.step conn (.writable (.failure .done) result .done)) := by
  rw [Connection.step, if_pos (by simp [registered, asks]), handleWrite, if_pos connecting]
  exact ⟨.inl rfl, rfl⟩

theorem readable_error {conn} (registered : conn.registered = true)
    (asks : conn.wantRead = true) (mtcp : conn.kind = .mtcp) (connected : conn.state = .connected)
    (handshake : Connection.Handshake) :
    Reported conn.callbacks (Connection.step conn (.readable handshake [.error .done])) := by
  have attached : conn.pfd ≠ none := by
    intro free
    simp [Conn.registered, free] at registered
  rw [Connection.step, if_pos (by simp [registered, asks]), handleRead.eq_def,
    if_neg (by simp [connected]), if_neg attached, readLoop, if_pos connected]
  dsimp only
  rw [mtcp]
  dsimp only [Script.run, cleanup, release]
  split
  · exact ⟨.inr rfl, rfl⟩
  · exact ⟨.inr rfl, rfl⟩

theorem handshakeOf_dead (dead : Dead s) (memory : s.closeReason ≠ .noMem) (inProgress : Bool) :
    handshakeOf inProgress s = some (.failure .done) := by
  have timedout : getSocketError inProgress s = some .timedout := by
    refine if_pos ⟨dead.state, ?_⟩
    rcases dead.reason with reason | reason | reason
    · exact .inr (.inr reason)
    · exact .inl reason
    · exact absurd reason memory
  simp [handshakeOf, timedout]

theorem recvOutcome_dead (dead : Dead s) (len : Nat) : recvOutcome len s = .error := by
  rw [recvOutcome, if_neg]
  rw [dead.state]
  decide

@[simp] theorem setConn_conn (link : Link) (room : Bool) (conn : Conn) :
    (link.setConn room conn).conn = conn := by
  unfold setConn
  split <;> rfl

variable {handling : Handling} {next : Link} {bit : Bit}

theorem pollin_reports {link : Link} (dead : Dead link.stream) (listening : Listening bit link.conn)
    (memory : link.conn.state = .connecting → link.stream.closeReason ≠ .noMem)
    (asks : link.conn.wantRead = true) (done : link.pollin handling = .ok next) :
    Reported link.conn.callbacks next.conn := by
  have registered := listening.registered
  rw [pollin, if_neg (by simp [dead.idle.1])] at done
  rcases listening.live with connecting | connected
  · rw [if_pos connecting, handshakeOf_dead dead (memory connecting)] at done
    cases done
    rw [setConn_conn]
    exact readable_failure registered asks connecting
  · rw [if_neg (by simp [connected]), if_pos connected, reads, recvOutcome_dead dead] at done
    cases done
    rw [setConn_conn]
    exact readable_error registered asks listening.mtcp connected _

theorem pollout_reports {link : Link} (dead : Dead link.stream)
    (listening : Listening bit link.conn) (memory : link.stream.closeReason ≠ .noMem)
    (connecting : link.conn.state = .connecting) (asks : link.conn.wantWrite = true)
    (done : link.pollout config handling = .ok next) : Reported link.conn.callbacks next.conn := by
  rw [pollout, if_neg (by simp [dead.idle.1]), if_pos connecting, handshakeOf_dead dead memory] at done
  cases done
  rw [setConn_conn]
  exact writable_failure listening.registered asks connecting _

theorem pollout_connected {link : Link} (dead : Dead link.stream)
    (registered : link.conn.registered = true) (output : link.conn.output.bytes = [])
    (connected : link.conn.state = .connected) (asks : link.conn.wantWrite = true)
    (done : link.pollout config handling = .ok next) :
    next = { link with conn := { link.conn with wantWrite := false } } := by
  have nothing : link.conn.sends link.conn.output.bytes = false := by simp [sends, output]
  rw [pollout, if_neg (by simp [dead.idle.1]), if_neg (by simp [connected]),
    if_neg (by simp [nothing])] at done
  have unsent : sends { link.conn with wantWrite := false } link.conn.output.bytes = false := nothing
  have handled : Connection.step link.conn (.writable (.success .done) .error .done) =
      { link.conn with wantWrite := false } := by
    rw [Connection.step, if_pos (by simp [registered, asks]), handleWrite,
      if_neg (by simp [connected]), if_neg (by simp [unsent])]
  rw [handled] at done
  exact (Except.ok.inj done).symm

structure Waiting (count : Nat) (bit : Bit) (link : Link) : Prop where
  running : link.aborted = false
  dead : Dead link.stream
  listening : Listening bit link.conn
  memory : link.conn.state = .connecting → link.stream.closeReason ≠ .noMem
  callbacks : link.conn.callbacks = count

variable {count : Nat}

theorem complete_waiting {handling : Bit → Handling} {other : Bit} {link : Link}
    (waiting : Waiting count bit link) (done : link.complete config handling other = .ok next) :
    Reported count next.conn ∨ Waiting count bit next ∧ next.events = link.events ∧ other ≠ bit := by
  obtain ⟨running, dead, listening, memory, rfl⟩ := waiting
  have same : other ≠ bit → Reported link.conn.callbacks link.conn ∨
      Waiting link.conn.callbacks bit link ∧ link.events = link.events ∧ other ≠ bit :=
    fun apart => .inr ⟨⟨running, dead, listening, memory, rfl⟩, rfl, apart⟩
  rw [complete.eq_def, if_neg (by simp [running, listening.registered])] at done
  cases other with
  | epollin =>
    dsimp only at done
    split at done
    · rename_i asks
      exact .inl (pollin_reports dead listening memory asks done)
    · rename_i silent
      rw [← Except.ok.inj done]
      refine same ?_
      rintro rfl
      rcases listening.asks with ⟨-, asks⟩ | ⟨is, -⟩
      · exact silent asks
      · cases is
  | epollout =>
    dsimp only at done
    split at done
    · rename_i asks
      rcases listening.live with connecting | connected
      · exact .inl (pollout_reports dead listening (memory connecting) connecting asks done)
      · rw [pollout_connected dead listening.registered listening.output connected asks done]
        rcases listening.asks with ⟨rfl, reads⟩ | ⟨-, -, connecting⟩
        · exact .inr ⟨⟨running, dead, ⟨listening.mtcp, listening.registered, listening.output,
            .inr connected, .inl ⟨rfl, reads⟩⟩, memory, rfl⟩, rfl, nofun⟩
        · exact absurd (connected.symm.trans connecting) (by decide)
    · rename_i silent
      rw [← Except.ok.inj done]
      refine same ?_
      rintro rfl
      rcases listening.asks with ⟨is, -⟩ | ⟨-, asks, -⟩
      · cases is
      · exact silent asks
  | epollerr =>
    rw [← Except.ok.inj done]
    refine same ?_
    rintro rfl
    rcases listening.asks with ⟨is, -⟩ | ⟨is, -⟩ <;> cases is

theorem Reported.over {conn} (reported : Reported count conn) :
    conn.state ≠ .connecting ∧ conn.state ≠ .connected := by
  rcases reported.1 with state | state <;> simp [state]

theorem pollin_over {link : Link} (reported : Reported count link.conn)
    (done : link.pollin handling = .ok next) : Reported count next.conn := by
  have apart := reported.over
  unfold pollin at done
  split at done
  · cases done
  · rw [if_neg apart.1, if_neg apart.2] at done
    cases done
    unfold Connection.step
    dsimp only
    split
    · unfold handleRead
      rw [if_neg apart.1]
      split
      · exact reported
      · exact reported
    · exact reported

theorem pollout_over {link : Link} (reported : Reported count link.conn)
    (done : link.pollout config handling = .ok next) : Reported count next.conn := by
  have apart := reported.over
  have nothing : link.conn.sends link.conn.output.bytes = false := by simp [sends, apart.2]
  have unsent : sends { link.conn with wantWrite := false } link.conn.output.bytes = false := nothing
  unfold pollout at done
  split at done
  · cases done
  · rw [if_neg apart.1, if_neg (by simp [nothing])] at done
    cases done
    unfold Connection.step
    dsimp only
    split
    · unfold handleWrite
      rw [if_neg apart.1, if_neg (by simp [unsent])]
      exact reported
    · exact reported

theorem complete_over {handling : Bit → Handling} {link : Link}
    (reported : Reported count link.conn) (done : link.complete config handling bit = .ok next) :
    Reported count next.conn := by
  unfold complete at done
  split at done
  · cases done
    exact reported
  · split at done
    · split at done
      · exact pollin_over reported done
      · cases done
        exact reported
    · split at done
      · exact pollout_over reported done
      · cases done
        exact reported
    · cases done
      exact reported

theorem batch_over {handling : Bit → Handling} :
    ∀ {bits : List Bit} {link next : Link}, Reported count link.conn →
      bits.foldlM (complete config handling) link = .ok next → Reported count next.conn := by
  intro bits
  induction bits with
  | nil =>
    intro link next reported done
    cases done
    exact reported
  | cons bit rest ih =>
    intro link next reported done
    rw [List.foldlM_cons] at done
    obtain ⟨after, first, others⟩ := bind_ok done
    exact ih (complete_over reported first) others

theorem batch_waiting {handling} :
    ∀ {bits : List Bit} {link next : Link}, Waiting count bit link →
      bits.foldlM (complete config handling) link = .ok next →
      Reported count next.conn ∨ Waiting count bit next ∧ next.events = link.events ∧ bit ∉ bits := by
  intro bits
  induction bits with
  | nil =>
    intro link next waiting done
    cases done
    exact .inr ⟨waiting, rfl, List.not_mem_nil⟩
  | cons other rest ih =>
    intro link next waiting done
    rw [List.foldlM_cons] at done
    obtain ⟨after, first, others⟩ := bind_ok done
    rcases complete_waiting waiting first with reported | ⟨still, events, apart⟩
    · exact .inl (batch_over reported others)
    · rcases ih still others with reported | ⟨last, same, absent⟩
      · exact .inl reported
      · refine .inr ⟨last, same.trans events, ?_⟩
        rw [List.mem_cons, not_or]
        exact ⟨apart.symm, absent⟩

def Move.Fetches (link : Link) (bit : Bit) : Move → Prop
  | .poll count _ => bit ∈ (link.usrQueue ++ link.usrShadowQueue).take count
  | _ => False

def Move.Silent : Move → Prop
  | .send _ _ _ | .close _ => False
  | _ => True

theorem poll_waiting {handling number link}
    (waiting : Waiting count bit link) (queued : bit ∈ link.events)
    (done : link.poll config number handling = .ok next) :
    Reported count next.conn ∨ Waiting count bit next ∧ bit ∈ next.events ∧
      bit ∉ (link.usrQueue ++ link.usrShadowQueue).take number := by
  have fetched : Waiting count bit { link with
      usrQueue := link.usrQueue.drop number
      usrShadowQueue := link.usrShadowQueue.drop (number - link.usrQueue.length) } :=
    { waiting with }
  rcases batch_waiting fetched done with reported | ⟨still, events, absent⟩
  · exact .inl reported
  · refine .inr ⟨still, ?_, absent⟩
    rw [Link.events, List.append_assoc, List.mem_append] at queued
    rw [events, Link.events, List.append_assoc, List.mem_append]
    refine queued.imp_right fun there => ?_
    rw [← List.take_append_drop number (link.usrQueue ++ link.usrShadowQueue), List.mem_append] at there
    rw [← List.drop_append]
    exact there.resolve_left absent

structure Raises (link next : Link) : Prop where
  conn : next.conn = link.conn
  host : next.host = link.host
  aborted : next.aborted = link.aborted
  events : ∀ bit ∈ link.events, bit ∈ next.events

theorem raiseMtcp_raises (room : Bool) (link : Link) (bit : Bit) :
    Raises link (link.raiseMtcp room bit) := by
  unfold raiseMtcp
  split
  · refine ⟨rfl, rfl, rfl, fun other there => ?_⟩
    simp only [events, List.mem_append] at there ⊢
    tauto
  · exact ⟨rfl, rfl, rfl, fun _ => id⟩

theorem foldl_raises (room : Bool) : ∀ (kinds : List EventKind) (link : Link),
    Raises link (kinds.foldl (fun link kind => link.raiseMtcp room (bitOf kind)) link) := by
  intro kinds
  induction kinds with
  | nil => exact fun link => ⟨rfl, rfl, rfl, fun _ => id⟩
  | cons kind rest ih =>
    intro link
    have first := raiseMtcp_raises room link (bitOf kind)
    have others := ih (link.raiseMtcp room (bitOf kind))
    exact ⟨others.conn.trans first.conn, others.host.trans first.host, others.aborted.trans first.aborted,
      fun bit there => others.events bit (first.events bit there)⟩

theorem stack_cases {taken : StackStep} {room : Bool} {link : Link}
    (done : link.stack config taken room = .ok next) :
    stepStream config link.host.listener link.stream taken = .ok next.stream ∧
      next.conn = link.conn ∧ next.aborted = link.aborted ∧
      ∀ bit ∈ link.events, bit ∈ next.events := by
  obtain ⟨host, stepped, finish⟩ := bind_ok done
  obtain ⟨stream, streamed, made⟩ := bind_ok stepped
  cases finish
  have raises := foldl_raises room (raisedSince link.stream.history host.stream.history) { link with host }
  have same : host.stream = stream := by
    cases made
    rfl
  refine ⟨?_, raises.conn, raises.aborted, raises.events⟩
  rw [← same] at streamed
  exact streamed.trans (congrArg (fun host : Host => Except.ok host.stream) raises.host.symm)

theorem step_waiting {link : Link} {move : Move} (waiting : Waiting count bit link)
    (queued : bit ∈ link.events) (silent : move.Silent) (done : step config link move = .ok next) :
    Reported count next.conn ∨ Waiting count bit next ∧ bit ∈ next.events ∧ ¬move.Fetches link bit := by
  rw [step.eq_def, if_neg (by simp [waiting.running])] at done
  cases move with
  | stack taken room =>
    obtain ⟨streamed, conn, aborted, events⟩ := stack_cases done
    obtain ⟨dead, memory⟩ := stepStream_dead taken.2 waiting.dead streamed
    refine .inr ⟨⟨aborted.trans waiting.running, dead, ?_, ?_, ?_⟩, events bit queued, id⟩
    · rw [conn]
      exact waiting.listening
    · rw [conn]
      exact memory ∘ waiting.memory
    · rw [conn]
      exact waiting.callbacks
  | flush number =>
    cases done
    refine .inr ⟨{ waiting with }, ?_, id⟩
    rw [Link.events, ← List.take_append_drop number link.mtcpQueue] at queued
    simp only [Link.events, Link.flush, List.mem_append] at queued ⊢
    tauto
  | poll number handling => exact poll_waiting waiting queued done
  | send | close => exact silent.elim

structure Pending (link : Link) (taken : Step) : Prop where
  running : link.aborted = false
  idle : Idle link.stream
  socket : link.stream.socket = true
  state : link.stream.state = .established ∨ link.stream.state = .closeWait
  memory : link.conn.state = .connecting → starved taken = false
  queued : ∃ bit ∈ link.events, Listening bit link.conn

theorem stack_waiting {taken : StackStep} {room : Bool} {link : Link} (pending : Pending link taken)
    (terminated : Terminated link.stream next.stream) (done : link.stack config taken room = .ok next) :
    ∃ bit ∈ next.events, Waiting link.conn.callbacks bit next := by
  obtain ⟨bit, queued, listening⟩ := pending.queued
  obtain ⟨streamed, conn, aborted, events⟩ := stack_cases done
  have closed : next.stream.state = .closed := by
    rcases terminated with ⟨-, closed, -⟩ | ⟨opening, -⟩
    · exact closed
    · rcases pending.state with state | state <;> exact absurd (state.symm.trans opening) (by decide)
  obtain ⟨dead, memory⟩ :=
    stepStream_ends taken.2 pending.idle pending.socket pending.state streamed closed
  refine ⟨bit, events bit queued, aborted.trans pending.running, dead, ?_, ?_, ?_⟩
  · rw [conn]
    exact listening
  · rw [conn]
    exact memory ∘ pending.memory
  · rw [conn]

def Fair (links : Nat → Link) (moves : Nat → Move) : Prop :=
  ∀ time, ∀ bit ∈ (links time).events,
    ∃ later ≥ time, (links later).aborted = true ∨ (moves later).Fetches (links later) bit

theorem waits_or_reports {links : Nat → Link} {moves : Nat → Move}
    (runs : ∀ time, step config (links time) (moves time) = .ok (links (time + 1))) {time : Nat}
    (silent : ∀ later ≥ time, (moves later).Silent) (waiting : Waiting count bit (links time))
    (queued : bit ∈ (links time).events) :
    ∀ distance, (∃ later ≥ time, Reported count (links later).conn) ∨
      Waiting count bit (links (time + distance)) ∧ bit ∈ (links (time + distance)).events := by
  intro distance
  induction distance with
  | zero => exact .inr ⟨waiting, queued⟩
  | succ distance ih =>
    rcases ih with reported | ⟨still, there⟩
    · exact .inl reported
    · have quiet := silent _ (Nat.le_add_right time distance)
      rcases step_waiting still there quiet (runs _) with reported | ⟨next, kept, -⟩
      · exact .inl ⟨time + distance + 1, by omega, reported⟩
      · exact .inr ⟨next, kept⟩

/-- A connection whose stream the stack ends while an event that tells of it is queued leaves its
state, and its failed or disconnect callback is called. -/
theorem pending_end_reported {config : Config} {links : Nat → Link} {moves : Nat → Move}
    (runs : ∀ time, step config (links time) (moves time) = .ok (links (time + 1)))
    (fair : Fair links moves) {time : Nat} {taken : StackStep} {room : Bool}
    (move : moves time = .stack taken room)
    (terminated : Terminated (links time).stream (links (time + 1)).stream)
    (pending : Pending (links time) taken) (silent : ∀ later > time, (moves later).Silent) :
    ∃ later > time, Reported (links time).conn.callbacks (links later).conn := by
  have done : (links time).stack config taken room = .ok (links (time + 1)) := by
    have stepped := runs time
    rw [step.eq_def, if_neg (by simp [pending.running]), move] at stepped
    exact stepped
  obtain ⟨bit, queued, waiting⟩ := stack_waiting pending terminated done
  obtain ⟨later, after, turn⟩ := fair (time + 1) bit queued
  obtain ⟨distance, rfl⟩ := Nat.exists_eq_add_of_le after
  rcases waits_or_reports runs silent waiting queued distance with
    ⟨reporting, beyond, reported⟩ | ⟨still, there⟩
  · exact ⟨reporting, beyond, reported⟩
  · have quiet := silent _ (Nat.lt_of_succ_le after)
    rcases step_waiting still there quiet (runs _) with reported | ⟨-, -, unfetched⟩
    · exact ⟨time + 1 + distance + 1, by omega, reported⟩
    · rcases turn with aborted | fetches
      · exact absurd (still.running.symm.trans aborted) (by decide)
      · exact absurd fetches unfetched

def advance (config : Config) (link : Link) (move : Move) : Link :=
  match step config link move with
  | .ok next => next
  | .error _ => link

def thenPolls (moves : List Move) (time : Nat) : Move := moves.getD time (.poll 8 fun _ => {})

def played (link : Link) (moves : List Move) : Nat → Link :=
  Progress.trace (advance sampleConfig) link (thenPolls moves)

instance (link : Link) (bit : Bit) (move : Move) : Decidable (move.Fetches link bit) :=
  match move with
  | .poll _ _ => inferInstanceAs (Decidable (_ ∈ _))
  | .stack _ _ | .flush _ | .send _ _ _ | .close _ => inferInstanceAs (Decidable False)

theorem poll_empty (config : Config) {link} (usrQueue : link.usrQueue = [])
    (usrShadowQueue : link.usrShadowQueue = []) (number : Nat) (handling : Bit → Handling) :
    step config link (.poll number handling) = .ok link := by
  have same : link.poll config number handling = .ok link := by
    obtain ⟨host, conn, mtcpQueue, _, _, aborted⟩ := link
    cases usrQueue
    cases usrShadowQueue
    simp [poll]
    rfl
  unfold step
  split
  · rfl
  · exact same

structure Playable (link : Link) (moves : List Move) : Prop where
  fine : ∀ time < moves.length, (step sampleConfig (played link moves time) (thenPolls moves time)).isOk
  fetched : ∀ time ≤ moves.length, ∀ bit ∈ (played link moves time).events, ∃ later < moves.length,
    time ≤ later ∧ (thenPolls moves later).Fetches (played link moves later) bit

namespace Playable

variable {link : Link} {moves : List Move}

section

variable (playable : Playable link moves)
include playable

theorem events : (played link moves moves.length).events = [] := by
  rw [List.eq_nil_iff_forall_not_mem]
  intro bit there
  obtain ⟨later, early, late, -⟩ := playable.fetched _ le_rfl bit there
  omega

theorem polls (number : Nat) (handling : Bit → Handling) :
    step sampleConfig (played link moves moves.length) (.poll number handling) =
      .ok (played link moves moves.length) := by
  have quiet := playable.events
  rw [Link.events, List.append_eq_nil_iff, List.append_eq_nil_iff] at quiet
  exact poll_empty _ quiet.1.2 quiet.2 number handling

theorem rests :
    ∀ distance, played link moves (moves.length + distance) = played link moves moves.length := by
  intro distance
  induction distance with
  | zero => rfl
  | succ distance ih =>
    have turn : thenPolls moves (moves.length + distance) = .poll 8 fun _ => {} := by simp [thenPolls]
    have next : played link moves (moves.length + (distance + 1)) =
        advance sampleConfig (played link moves (moves.length + distance))
          (thenPolls moves (moves.length + distance)) := rfl
    rw [next, turn, ih, advance, playable.polls]

theorem runs (time : Nat) :
    step sampleConfig (played link moves time) (thenPolls moves time) = .ok (played link moves (time + 1)) := by
  have next : played link moves (time + 1) =
      advance sampleConfig (played link moves time) (thenPolls moves time) := rfl
  rw [next, advance]
  rcases Nat.lt_or_ge time moves.length with early | late
  · have fine := playable.fine time early
    cases stepped : step sampleConfig (played link moves time) (thenPolls moves time) with
    | ok after => rfl
    | error fault =>
      rw [stepped] at fine
      cases fine
  · obtain ⟨distance, rfl⟩ := Nat.exists_eq_add_of_le late
    have turn : thenPolls moves (moves.length + distance) = .poll 8 fun _ => {} := by simp [thenPolls]
    rw [turn, playable.rests distance, playable.polls]

theorem fair : Fair (played link moves) (thenPolls moves) := by
  intro time bit there
  rcases Nat.lt_or_ge moves.length time with late | early
  · obtain ⟨distance, rfl⟩ := Nat.exists_eq_add_of_lt late
    rw [Nat.add_assoc, playable.rests (distance + 1), playable.events] at there
    cases there
  · obtain ⟨later, -, late, fetches⟩ := playable.fetched time early bit there
    exact ⟨later, late, .inr fetches⟩

end

end Playable

def opening : Link := .attach { stream := mtcpConnect sampleConfig 1000 true, listener := false } true

def synAck : Segment where
  flags := { syn := true, ack := true }
  seq := 5000
  ackSeq := 1001
  window := 1000

def handshake : List Move :=
  [.stack ⟨.connectq, rfl⟩ true, .stack ⟨.writeControl true 0, rfl⟩ true,
    .stack ⟨.segment 1 none true synAck, rfl⟩ true,
    .stack ⟨.writeControl true 1, rfl⟩ true]

def earlyTimeout : List Move :=
  handshake ++ [.stack ⟨.connectionTimeout 40000, rfl⟩ true, .flush 8, .poll 8 fun _ => {}]

theorem thenPolls_silent {moves} (silent : ∀ move ∈ moves, move.Silent) (time : Nat) :
    (thenPolls moves time).Silent := by
  unfold thenPolls
  rw [List.getD_eq_getElem?_getD]
  cases found : moves[time]? with
  | none => trivial
  | some move => exact silent move (List.mem_of_getElem? found)

theorem earlyTimeout_playable : Playable opening earlyTimeout where
  fine := by decide +kernel
  fetched := by
    simp only [← Nat.lt_succ_iff]
    decide +kernel

theorem early_timeout_reported : ∃ later > 4, Reported 0 (played opening earlyTimeout later).conn := by
  refine @pending_end_reported _ _ _ earlyTimeout_playable.runs earlyTimeout_playable.fair 4 _ _ rfl
    (by decide +kernel) ⟨by decide +kernel, by decide +kernel, by decide +kernel, by decide +kernel,
      fun _ => rfl, .epollout, by decide +kernel, ?_⟩ fun later _ => thenPolls_silent ?_ later
  · exact ⟨by decide +kernel, by decide +kernel, by decide +kernel, .inl (by decide +kernel),
      .inr (by decide +kernel)⟩
  · simp [earlyTimeout, handshake, Move.Silent]

def lateTimeout : List Move :=
  handshake ++ [.flush 8, .poll 8 fun _ => {}, .stack ⟨.connectionTimeout 40000, rfl⟩ true, .flush 8,
    .poll 8 fun _ => {}]

theorem lateTimeout_playable : Playable opening lateTimeout where
  fine := by decide +kernel
  fetched := by
    simp only [← Nat.lt_succ_iff]
    decide +kernel

theorem late_timeout_unreported :
    (∀ time, step sampleConfig (played opening lateTimeout time) (thenPolls lateTimeout time) =
        .ok (played opening lateTimeout (time + 1))) ∧
      Fair (played opening lateTimeout) (thenPolls lateTimeout) ∧
      (∀ time, (thenPolls lateTimeout time).Silent) ∧
      thenPolls lateTimeout 6 = .stack ⟨.connectionTimeout 40000, rfl⟩ true ∧
      Terminated (played opening lateTimeout 6).stream (played opening lateTimeout 7).stream ∧
      ∀ later ≥ 6, (played opening lateTimeout later).conn.state = .connected ∧
        (played opening lateTimeout later).conn.callbacks = 0 := by
  refine ⟨lateTimeout_playable.runs, lateTimeout_playable.fair, thenPolls_silent ?_, rfl,
    by decide +kernel, ?_⟩
  · simp [lateTimeout, handshake, Move.Silent]
  · have early : ∀ later < 9, 6 ≤ later → (played opening lateTimeout later).conn.state = .connected ∧
        (played opening lateTimeout later).conn.callbacks = 0 := by decide +kernel
    have last : (played opening lateTimeout 9).conn.state = .connected ∧
        (played opening lateTimeout 9).conn.callbacks = 0 := by decide +kernel
    intro later after
    rcases Nat.lt_or_ge later 9 with before | beyond
    · exact early later before after
    · obtain ⟨distance, rfl⟩ := Nat.exists_eq_add_of_le beyond
      have rests : played opening lateTimeout (9 + distance) = played opening lateTimeout 9 :=
        lateTimeout_playable.rests distance
      rw [rests]
      exact last

end Mcc.ErrorReport
