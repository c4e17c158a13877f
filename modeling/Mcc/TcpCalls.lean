import Mcc.TcpInput

/-!
What else acts on a connection: its timers (`timer.c`), the calls of the application (`api.c`)
and the draining of the queues between the application and the stack (`core.c`). A host is one
connection together with the listener of its port; a run is any sequence of these steps and of
received segments. A step whose precondition does not hold leaves the host as it is.
-/

namespace Mcc

open SerialNumber RingBuffer

def giveUp (s : TcpStream) : Except Fault TcpStream :=
  if s.state.number < TcpState.established.number then
    destroyTCPStream { s with state := .closed, closeReason := .connFail }
  else
    let lost := { s with state := .closed, closeReason := .connLost }
    if s.socket then .ok (raise .error lost) else destroyTCPStream lost

def backOff (s : TcpStream) : TcpStream :=
  let nrtx := s.ctl.nrtx + 1
  let scaled := ((s.rcv.srtt >>> 3) + s.rcv.rttvar) <<< (min nrtx 7).toUInt32
  let rto :=
    if TcpState.established.number ≤ s.state.number then
      if scaled = 0 then s.ctl.rto else scaled
    else if TcpState.synSent.number ≤ s.state.number ∧ nrtx < 7 then s.ctl.rto <<< 1
    else s.ctl.rto
  { s with ctl := { s.ctl with
      nrtx
      maxNrtx := max s.ctl.maxNrtx nrtx
      rto
      ssthresh := halvedWindow s.ctl
      cwnd := s.ctl.mss.toUInt32 } }

def retransmit (s : TcpStream) : Except Fault TcpStream :=
  let back := { s with seqs := { s.seqs with sndNxt := s.seqs.sndUna } }
  match s.state with
  | .established | .closeWait => addtoSendList back
  | .finWait1 | .closing | .lastAck =>
    if tcpSeqLt s.seqs.sndUna s.seqs.fss then
      addtoSendList { back with lists := { back.lists with
        onControlList := false
        controlListWaiting := true } }
    else .ok (addtoControlList back)
  | .synSent => .ok (addtoControlList back)
  | .synRcvd => if s.haveReset then destroyTCPStream s else .ok (addtoControlList back)
  | .closed | .listen | .finWait2 | .timeWait => .error .assertion

def handleRTO (s : TcpStream) : Except Fault TcpStream :=
  if s.ctl.rto = 0 then .error .assertion
  else if s.closeReason ≠ .notClosed then .ok s
  else if 16 ≤ s.ctl.nrtx then giveUp s
  else
    let backed := backOff s
    if backed.state = .synSent ∧ 7 < backed.ctl.nrtx then
      let failed := { backed with state := .closed, closeReason := .connFail }
      if failed.socket then .ok (raise .error failed) else destroyTCPStream failed
    else retransmit backed

def checkRtmTimeout (s : TcpStream) : Except Fault TcpStream :=
  if s.lists.onRtoList then handleRTO (removeFromRTOList s) else .ok s

def checkTimewaitExpire (curTs : UInt32) (s : TcpStream) : Except Fault TcpStream :=
  if s.lists.onTimewaitList ∧ 0 ≤ signed (curTs - s.rcv.tsTwExpire) ∧ s.lists.onControlList = false then
    destroyTCPStream { s with
      state := .closed
      closeReason := .activeClose
      lists := { s.lists with onTimewaitList := false } }
  else .ok s

def checkConnectionTimeout (config : Config) (curTs : UInt32) (s : TcpStream) :
    Except Fault TcpStream :=
  if s.lists.onTimeoutList ∧ config.tcpTimeout ≤ signed (curTs - s.rcv.lastActiveTs) then
    let expired := { s with
      state := .closed
      closeReason := .timedout
      lists := { s.lists with onTimeoutList := false } }
    if expired.socket then .ok (raise .error expired) else destroyTCPStream expired
  else .ok s

def removeFromTimeoutList (s : TcpStream) : TcpStream :=
  { s with lists := { s.lists with onTimeoutList := false } }

/-! The loops of `HandleApplicationCalls`, each for one entry that is the stream. -/

def handleConnectq (s : TcpStream) : TcpStream :=
  if s.queues.connectq = 0 then s
  else addtoControlList { s with queues := { s.queues with connectq := s.queues.connectq - 1 } }

def handleSendq (s : TcpStream) : Except Fault TcpStream :=
  if s.queues.sendq = 0 then .ok s
  else
    addtoSendList { s with queues := { s.queues with
      sendq := s.queues.sendq - 1
      onSendq := false } }

def handleAckq (s : TcpStream) : TcpStream :=
  if s.queues.ackq = 0 then s
  else
    enqueueACK .aggregate { s with queues := { s.queues with
      ackq := s.queues.ackq - 1
      onAckq := false } }

def closingState : TcpState → TcpState
  | .established => .finWait1
  | .closeWait => .lastAck
  | state => state

def destroyReset (s : TcpStream) : Except Fault TcpStream :=
  if s.state = .closed then .ok s
  else destroyTCPStream { s with state := .closed, closeReason := .reset }

def finalSequence (seqs : SendSeq) : UInt32 :=
  match seqs.sndbuf with
  | some buf => buf.headSeq + buf.len
  | none => seqs.sndNxt

def handleCloseq (s : TcpStream) : Except Fault TcpStream :=
  if s.queues.closeq = 0 then .ok s
  else
    let taken := removeFromTimeoutList { s with
      seqs := { s.seqs with fss := finalSequence s.seqs }
      queues := { s.queues with closeq := s.queues.closeq - 1, onCloseq := false } }
    if s.haveReset then destroyReset taken
    else if s.lists.onControlList then
      .ok { taken with queues := { taken.queues with
        closeqInt := taken.queues.closeqInt + 1
        onCloseqInt := true } }
    else if s.lists.onSendList || s.lists.onAckList then
      .ok { taken with
        state := closingState s.state
        lists := { taken.lists with controlListWaiting := true } }
    else if s.state = .closed then .ok taken
    else .ok (addtoControlList { taken with state := closingState s.state })

def handleCloseqInt (s : TcpStream) : TcpStream :=
  if s.queues.closeqInt = 0 || s.lists.onControlList then s
  else
    let taken := { s with queues := { s.queues with
      closeqInt := s.queues.closeqInt - 1
      onCloseqInt := false } }
    if s.state = .closed then taken
    else addtoControlList { taken with state := closingState s.state }

def resetNow (s : TcpStream) : TcpStream :=
  if s.state = .closed then s
  else addtoControlList { s with state := .closed, closeReason := .activeClose }

def busy (lists : Lists) : Bool := lists.onControlList || lists.onSendList || lists.onAckList

def handleResetq (s : TcpStream) : Except Fault TcpStream :=
  if s.queues.resetq = 0 then .ok s
  else
    let taken := removeFromTimeoutList { s with queues := { s.queues with
      resetq := s.queues.resetq - 1
      onResetq := false } }
    if s.haveReset then destroyReset taken
    else if busy s.lists then
      .ok { taken with queues := { taken.queues with
        resetqInt := taken.queues.resetqInt + 1
        onResetqInt := true } }
    else .ok (resetNow taken)

def handleResetqInt (s : TcpStream) : TcpStream :=
  if s.queues.resetqInt = 0 || busy s.lists then s
  else
    resetNow { s with queues := { s.queues with
      resetqInt := s.queues.resetqInt - 1
      onResetqInt := false } }

def handleDestroyq (s : TcpStream) : Except Fault TcpStream :=
  if s.queues.destroyq = 0 then .ok s
  else
    destroyTCPStream { s with queues := { s.queues with destroyq := s.queues.destroyq - 1 } }

/-! The calls of the application. `room` tells whether the queue takes one more entry. -/

def enqueueDestroy (room : Bool) (s : TcpStream) : TcpStream :=
  { s with queues := { s.queues with
      destroyq := if room then s.queues.destroyq + 1 else s.queues.destroyq } }

def mtcpConnect (config : Config) (iss : UInt32) (room : Bool) : TcpStream :=
  let created := createTCPStream config true iss
  let s := { created with
    state := .synSent
    ctl := { created.ctl with cwnd := 1, ssthresh := config.mss.toUInt32 * 10 } }
  if room then { s with queues := { s.queues with connectq := 1 } }
  else enqueueDestroy true s

def mtcpClose (room : Bool) (s : TcpStream) : TcpStream :=
  if s.closed then { s with socket := false }
  else
    let released := { s with closed := true, socket := false }
    match s.state with
    | .closed | .synSent => enqueueDestroy room released
    | .established | .closeWait =>
      { released with queues := { released.queues with
          onCloseq := true
          closeq := if room then s.queues.closeq + 1 else s.queues.closeq } }
    | .listen | .synRcvd | .finWait1 | .finWait2 | .closing | .lastAck | .timeWait => released

def mtcpAbort (room : Bool) (s : TcpStream) : TcpStream :=
  let released := { s with socket := false }
  match s.state with
  | .closed => released
  | .synSent | .closing | .lastAck | .timeWait =>
    enqueueDestroy room { released with state := .closed, closeReason := .activeClose }
  | .listen | .synRcvd | .established | .finWait1 | .finWait2 | .closeWait =>
    if s.queues.onResetq then released
    else
      { released with queues := { released.queues with
          onResetq := true
          resetq := if room then s.queues.resetq + 1 else s.queues.resetq } }

def putData (data : List UInt8) (sndlen : Nat) (buf : TcpSendBuffer) (s : TcpStream) :
    Except Fault TcpStream := do
  let (after, ret) ← sbPut buf data sndlen
  if ret ≠ sndlen then throw .assertion
  return { s with
    seqs := { s.seqs with sndbuf := some after }
    ctl := { s.ctl with sndWnd := after.size - after.len } }

def copyFromUser (config : Config) (chunk : Option (List UInt8)) (data : List UInt8)
    (s : TcpStream) : Except Fault (TcpStream × Bool) :=
  let sndlen := min (signed s.ctl.sndWnd) (signed (UInt32.ofNat data.length))
  if sndlen ≤ 0 then .ok (s, false)
  else
    match s.seqs.sndbuf with
    | some buf => do return (← putData data sndlen.toNat buf s, true)
    | none =>
      match chunk with
      | none => .ok ({ s with closeReason := .noMem }, false)
      | some memory => do
          let buf := sbInit config.sbm memory (s.seqs.iss + 1)
          return (← putData data sndlen.toNat buf s, true)

def mtcpWrite (config : Config) (chunk : Option (List UInt8)) (data : List UInt8)
    (s : TcpStream) : Except Fault TcpStream :=
  if s.state = .established ∨ s.state = .closeWait then do
    let (copied, moved) ← copyFromUser config chunk data s
    if moved && !(copied.queues.onSendq || copied.lists.onSendList) then
      return { copied with queues := { copied.queues with
        onSendq := true
        sendq := copied.queues.sendq + 1 } }
    else return copied
  else .ok s

/-- `mtcp_recv` of a socket that does not block. One that blocks follows the null pointer to the
receive buffer where the stream has none. -/
def mtcpRecv (len : Nat) (s : TcpStream) : Except Fault TcpStream :=
  match s.rcv.rcvbuf with
  | none => .ok s
  | some buff =>
    if TcpState.established.number ≤ s.state.number ∧
        s.state.number ≤ TcpState.closeWait.number ∧ 0 < min buff.mergedLen len then do
      let (after, _) ← rbRemove buff (min buff.mergedLen len)
      let rcvWnd := UInt32.ofInt (after.size - after.mergedLen)
      let read := { s with rcv := { s.rcv with rcvbuf := some after, rcvWnd } }
      if s.rcv.needWndAdv && s.ctl.effMss.toUInt32 < rcvWnd && !s.queues.onAckq then
        return { read with
          rcv := { read.rcv with needWndAdv := false }
          queues := { read.queues with onAckq := true, ackq := read.queues.ackq + 1 } }
      else return read
    else .ok s

def mtcpAccept (socketFree : Bool) (s : TcpStream) : TcpStream :=
  if s.queues.acceptq = 0 then s
  else
    { s with
      socket := s.socket || socketFree
      queues := { s.queues with acceptq := s.queues.acceptq - 1 } }

structure Host where
  stream : TcpStream
  listener : Bool
  deriving Repr, DecidableEq

inductive Step where
  | segment (curTs : UInt32) (chunk : Option (List UInt8)) (acceptRoom : Bool) (segment : Segment)
  | rto
  | timewaitExpire (curTs : UInt32)
  | connectionTimeout (curTs : UInt32)
  | writeControl (output : Bool) (curTs : UInt32)
  | writeData (buffers : Nat) (curTs : UInt32)
  | writeAck (buffers : Nat) (curTs : UInt32)
  | connectq
  | sendq
  | ackq
  | closeq
  | closeqInt
  | resetq
  | resetqInt
  | destroyq
  | write (chunk : Option (List UInt8)) (data : List UInt8)
  | recv (len : Nat)
  | close (room : Bool)
  | abort (room : Bool)
  | accept (socketFree : Bool)
  | listen
  | closeListener
  deriving Repr, DecidableEq

def Step.Fits (config : Config) : Step → Prop
  | .segment _ (some chunk) _ _ => chunk.length = config.rbm.chunkSize
  | .write (some chunk) _ => chunk.length = config.sbm.chunkSize
  | _ => True

def stepStream (config : Config) (listener : Bool) (s : TcpStream) :
    Step → Except Fault TcpStream
  | .segment curTs chunk acceptRoom segment =>
    if s.onHashTable then
      processTCPPacket config { curTs, chunk, listener, acceptRoom } segment s
    else .ok s
  | .rto => checkRtmTimeout s
  | .timewaitExpire curTs => checkTimewaitExpire curTs s
  | .connectionTimeout curTs => checkConnectionTimeout config curTs s
  | .writeControl output curTs =>
    if s.lists.onControlList then writeTCPControlList output curTs s else .ok s
  | .writeData buffers curTs =>
    if s.lists.onSendList then writeTCPDataList buffers curTs s else .ok s
  | .writeAck buffers curTs =>
    .ok (if s.lists.onAckList then writeTCPACKList buffers curTs s else s)
  | .connectq => .ok (handleConnectq s)
  | .sendq => handleSendq s
  | .ackq => .ok (handleAckq s)
  | .closeq => handleCloseq s
  | .closeqInt => .ok (handleCloseqInt s)
  | .resetq => handleResetq s
  | .resetqInt => .ok (handleResetqInt s)
  | .destroyq => handleDestroyq s
  | .write chunk data => if s.socket then mtcpWrite config chunk data s else .ok s
  | .recv len => if s.socket then mtcpRecv len s else .ok s
  | .close room => .ok (if s.socket then mtcpClose room s else s)
  | .abort room => .ok (if s.socket then mtcpAbort room s else s)
  | .accept socketFree => .ok (mtcpAccept socketFree s)
  | .listen => .ok s
  | .closeListener => .ok { s with queues := { s.queues with acceptq := 0 } }

def stepListener (listener : Bool) : Step → Bool
  | .listen => true
  | .closeListener => false
  | _ => listener

def step (config : Config) (host : Host) (taken : Step) : Except Fault Host := do
  let stream ← stepStream config host.listener host.stream taken
  return { stream, listener := stepListener host.listener taken }

def run (config : Config) (host : Host) (steps : List Step) : Except Fault Host :=
  steps.foldlM (step config) host

inductive Opening where
  | active (iss : UInt32) (room listener : Bool)
  | passive (iss curTs : UInt32) (segment : Segment)
  deriving Repr, DecidableEq

def start (config : Config) : Opening → Except Fault Host
  | .active iss room listener => .ok { stream := mtcpConnect config iss room, listener }
  | .passive iss curTs segment => do
      let stream ← processTCPPacket config
        { curTs, chunk := none, listener := true, acceptRoom := true } segment
        (handlePassiveOpen config curTs iss segment)
      return { stream, listener := true }

/-- Only a SYN without an acknowledgment opens a connection. -/
def Opening.Valid : Opening → Prop
  | .active _ _ _ => True
  | .passive _ _ segment => segment.flags.syn = true ∧ segment.flags.ack = false

end Mcc
