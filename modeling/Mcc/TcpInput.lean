import Mcc.TcpOutput

/-!
The input side of a connection, `tcp_in.c`: what a received segment does to the stream it
belongs to, state by state.
-/

namespace Mcc

open SerialNumber RingBuffer

/-- What `ProcessTCPPacket` finds outside the stream: the time, a chunk for a receive buffer, a
listener of the port and room in its accept queue. -/
structure Surroundings where
  curTs : UInt32
  chunk : Option (List UInt8)
  listener : Bool
  acceptRoom : Bool
  deriving Repr, DecidableEq

def addtoTimewaitList (config : Config) (curTs : UInt32) (s : TcpStream) : TcpStream :=
  { s with
    rcv := { s.rcv with tsTwExpire := curTs + config.tcpTimewait }
    lists := { s.lists with
      onRtoList := s.lists.onRtoList && s.lists.onTimewaitList
      onTimewaitList := true } }

def addtoTimeoutList (s : TcpStream) : Except Fault TcpStream :=
  if s.lists.onTimeoutList then .error .assertion
  else .ok { s with lists := { s.lists with onTimeoutList := true } }

def removeFromRTOList (s : TcpStream) : TcpStream :=
  { s with lists := { s.lists with onRtoList := false } }

def updateRetransmissionTimer (curTs : UInt32) (s : TcpStream) : Except Fault TcpStream :=
  if s.ctl.rto = 0 then .error .assertion
  else
    let stopped := removeFromRTOList { s with ctl := { s.ctl with nrtx := 0 } }
    if tcpSeqGt s.seqs.sndNxt s.seqs.sndUna then
      .ok (addtoRTOList { stopped with ctl := { stopped.ctl with tsRto := curTs + s.ctl.rto } })
    else .ok stopped

def parseTCPOptions (curTs : UInt32) (segment : Segment) (s : TcpStream) : TcpStream :=
  { s with
    ctl := { s.ctl with
      mss := segment.mssOption.getD s.ctl.mss
      effMss := (segment.mssOption.map (· - 12)).getD s.ctl.effMss
      wscalePeer := segment.wscaleOption.getD s.ctl.wscalePeer }
    rcv := { s.rcv with
      sawTimestamp := s.rcv.sawTimestamp || segment.timestampOption.isSome
      tsRecent := segment.timestampOption.getD s.rcv.tsRecent
      tsLastTsUpd := if segment.timestampOption.isSome then curTs else s.rcv.tsLastTsUpd } }

def handlePassiveOpen (config : Config) (curTs iss : UInt32) (segment : Segment) : TcpStream :=
  let s := createTCPStream config false iss
  parseTCPOptions curTs segment { s with
    ctl := { s.ctl with peerWnd := segment.window.toUInt32, cwnd := 1 }
    rcv := { s.rcv with irs := segment.seq, rcvNxt := segment.seq } }

def initialCwnd (ctl : SendControl) : UInt32 :=
  if ctl.cwnd = 1 then ctl.mss.toUInt32 * 2 else ctl.mss.toUInt32

def handleActiveOpen (curTs : UInt32) (segment : Segment) (s : TcpStream) :
    Except Fault TcpStream :=
  let opened := parseTCPOptions curTs segment { s with
    seqs := { s.seqs with sndNxt := segment.ackSeq }
    ctl := { s.ctl with peerWnd := segment.window.toUInt32 }
    rcv := { s.rcv with
      irs := segment.seq
      sndWl1 := segment.seq - 1
      rcvNxt := segment.seq + 1
      lastAckSeq := segment.ackSeq } }
  updateRetransmissionTimer curTs { opened with ctl := { opened.ctl with
    cwnd := initialCwnd opened.ctl
    ssthresh := opened.ctl.mss.toUInt32 * 10 } }

def validateWindow (config : Config) (curTs : UInt32) (segment : Segment) (s : TcpStream) :
    TcpStream × Bool :=
  if tcpSeqBetween (segment.seq + segment.payloadlen) s.rcv.rcvNxt (s.rcv.rcvNxt + s.rcv.rcvWnd)
  then (s, true)
  else if segment.flags.rst then (s, false)
  else if s.state = .established then
    if segment.seq + 1 = s.rcv.rcvNxt ∨ tcpSeqLeq segment.seq s.rcv.rcvNxt then
      (enqueueACK .aggregate s, false)
    else (enqueueACK .now s, false)
  else if s.state = .timeWait then
    (addtoControlList (addtoTimewaitList config curTs s), false)
  else (addtoControlList s, false)

def validateSequence (config : Config) (curTs : UInt32) (segment : Segment) (s : TcpStream) :
    TcpStream × Bool :=
  if segment.flags.rst = false ∧ s.rcv.sawTimestamp then
    match segment.timestamp with
    | none => (s, false)
    | some (tsVal, tsRef) =>
      if tcpSeqLt tsVal s.rcv.tsRecent then (enqueueACK .now s, false)
      else
        validateWindow config curTs segment { s with rcv := { s.rcv with
          tsLastTsUpd := if tcpSeqGt tsVal s.rcv.tsRecent then curTs else s.rcv.tsLastTsUpd
          tsRecent := tsVal
          tsLastackRcvd := tsRef } }
  else validateWindow config curTs segment s

def processRST (segment : Segment) (s : TcpStream) : Except Fault (TcpStream × Bool) :=
  match s.state with
  | .closed | .listen | .synSent => .ok (s, false)
  | .synRcvd =>
    if segment.ackSeq = s.seqs.sndNxt then do
      return (← destroyTCPStream { s with state := .closed, closeReason := .reset }, true)
    else .ok (s, true)
  | .finWait1 | .finWait2 | .lastAck | .closing | .timeWait => do
      return (← destroyTCPStream { s with state := .closed, closeReason := .activeClose }, true)
  | .established | .closeWait =>
    if s.queues.onCloseq || s.queues.onCloseqInt || s.queues.onResetq || s.queues.onResetqInt
    then .ok (s, true)
    else .ok (raise .close { s with state := .closeWait, closeReason := .reset }, true)

def estimate (mrtt : UInt32) (seqs : SendSeq) (rcv : RecvVars) : RecvVars :=
  let m : Int := if mrtt = 0 then 1 else mrtt.toNat
  if rcv.srtt = 0 then
    let mdev := UInt32.ofInt (m * 2)
    { rcv with
      srtt := UInt32.ofInt (m * 8)
      mdev
      mdevMax := mdev
      rttvar := mdev
      rttSeq := seqs.sndNxt }
  else
    let error := m - (rcv.srtt >>> 3).toNat
    let quarter : Int := (rcv.mdev >>> 2).toNat
    let change :=
      if error < 0 then
        if 0 < -error - quarter then (-error - quarter) / 8 else -error - quarter
      else error - quarter
    let mdev := UInt32.ofInt (rcv.mdev.toNat + change)
    let mdevMax := if rcv.mdevMax < mdev then mdev else rcv.mdevMax
    let rttvar := if rcv.mdevMax < mdev ∧ rcv.rttvar < mdevMax then mdevMax else rcv.rttvar
    let updated := { rcv with srtt := UInt32.ofInt (rcv.srtt.toNat + error), mdev }
    if tcpSeqGt seqs.sndUna rcv.rttSeq then
      { updated with
        rttvar := if mdevMax < rttvar then rttvar - ((rttvar - mdevMax) >>> 2) else rttvar
        rttSeq := seqs.sndNxt
        mdevMax := 0 }
    else { updated with mdevMax, rttvar }

def estimateRTT (mrtt : UInt32) (s : TcpStream) : TcpStream :=
  { s with rcv := estimate mrtt s.seqs s.rcv }

def dataAck (segment : Segment) (s : TcpStream) : UInt32 :=
  if (s.state = .finWait1 ∨ s.state = .finWait2 ∨ s.state = .closing ∨ s.state = .closeWait ∨
      s.state = .lastAck) ∧ s.seqs.isFinSent ∧ segment.ackSeq = s.seqs.fss + 1 then
    segment.ackSeq - 1
  else segment.ackSeq

def scaledWindow (segment : Segment) (ctl : SendControl) : UInt32 :=
  if segment.flags.syn then segment.window.toUInt32
  else segment.window.toUInt32 <<< ctl.wscalePeer.toUInt32

def updateWindow (segment : Segment) (ackSeq : UInt32) (s : TcpStream) : TcpStream :=
  let cwindow := scaledWindow segment s.ctl
  if tcpSeqLt s.rcv.sndWl1 segment.seq ∨ (s.rcv.sndWl1 = segment.seq ∧ tcpSeqLt s.rcv.sndWl2 ackSeq) ∨
      (s.rcv.sndWl2 = ackSeq ∧ s.ctl.peerWnd < cwindow) then
    let updated := { s with
      ctl := { s.ctl with peerWnd := cwindow }
      rcv := { s.rcv with sndWl1 := segment.seq, sndWl2 := ackSeq } }
    let inFlight := s.seqs.sndNxt - s.seqs.sndUna
    if s.ctl.peerWnd < inFlight ∧ inFlight ≤ cwindow then raise .write updated else updated
  else s

def countDuplicate (segment : Segment) (ackSeq rightWndEdge : UInt32) (s : TcpStream) :
    TcpStream × Bool :=
  if tcpSeqLt ackSeq s.seqs.sndNxt ∧ ackSeq = s.rcv.lastAckSeq ∧ segment.payload = [] ∧
      s.rcv.sndWl2 + s.ctl.peerWnd = rightWndEdge then
    ({ s with rcv := { s.rcv with dupAcks := s.rcv.dupAcks + 1 } }, true)
  else ({ s with rcv := { s.rcv with dupAcks := 0, lastAckSeq := ackSeq } }, false)

def halvedWindow (ctl : SendControl) : UInt32 :=
  let half := min ctl.cwnd ctl.peerWnd / 2
  if half < 2 * ctl.mss.toUInt32 then 2 * ctl.mss.toUInt32 else half

def fastRetransmit (ackSeq : UInt32) (dup : Bool) (s : TcpStream) : Except Fault TcpStream :=
  if dup ∧ s.rcv.dupAcks = 3 then
    addtoSendList { s with
      seqs := { s.seqs with
        sndNxt := if tcpSeqLt ackSeq s.seqs.sndNxt then ackSeq else s.seqs.sndNxt }
      ctl := { s.ctl with
        ssthresh := halvedWindow s.ctl
        cwnd := halvedWindow s.ctl + 3 * s.ctl.mss.toUInt32
        nrtx := if s.ctl.nrtx < 16 then s.ctl.nrtx + 1 else s.ctl.nrtx } }
  else if 3 < s.rcv.dupAcks ∧ s.ctl.cwnd < s.ctl.cwnd + s.ctl.mss.toUInt32 then
    .ok { s with ctl := { s.ctl with cwnd := s.ctl.cwnd + s.ctl.mss.toUInt32 } }
  else .ok s

def recoverAfterLoss (ackSeq : UInt32) (buf : TcpSendBuffer) (s : TcpStream) : TcpStream :=
  if tcpSeqGt ackSeq s.seqs.sndNxt then
    let moved := { s with seqs := { s.seqs with sndNxt := ackSeq } }
    if buf.len = 0 then removeFromSendList moved else moved
  else s

def growWindow (packets : UInt16) (s : TcpStream) : Except Fault TcpStream :=
  let mss := s.ctl.mss.toUInt32
  if s.state.number < TcpState.established.number then .ok s
  else if s.ctl.cwnd < s.ctl.ssthresh then
    if s.ctl.cwnd < s.ctl.cwnd + mss then
      .ok { s with ctl := { s.ctl with cwnd := s.ctl.cwnd + mss * packets.toUInt32 } }
    else .ok s
  else if s.ctl.cwnd = 0 then .error .divisionByZero
  else
    let cwnd := s.ctl.cwnd + packets.toUInt32 * mss * mss / s.ctl.cwnd
    .ok { s with ctl := { s.ctl with cwnd := if s.ctl.cwnd < cwnd then cwnd else s.ctl.cwnd } }

def ackedPackets (rmlen : UInt32) (effMss : UInt16) : UInt16 :=
  let quotient := rmlen / effMss.toUInt32
  if rmlen < quotient * effMss.toUInt32 then quotient.toUInt16 + 1 else quotient.toUInt16

def measureRTT (curTs : UInt32) (s : TcpStream) : Except Fault TcpStream :=
  if s.rcv.sawTimestamp then
    let measured := estimateRTT (curTs - s.rcv.tsLastackRcvd) s
    let rto := (measured.rcv.srtt >>> 3) + measured.rcv.rttvar
    if rto = 0 then .error .assertion
    else .ok { measured with ctl := { measured.ctl with rto } }
  else .ok s

def removeAcked (segment : Segment) (ackSeq : UInt32) (buf : TcpSendBuffer) (s : TcpStream) :
    TcpStream :=
  let rmlen := (ackSeq - buf.headSeq).toNat
  let after := (sbRemove buf rmlen).1
  let updated := { s with
    seqs := { s.seqs with sndbuf := some after, sndUna := ackSeq }
    ctl := { s.ctl with sndWnd := after.size - after.len }
    history := .removed buf.removed (after.removed - buf.removed) segment :: s.history }
  if s.ctl.sndWnd = 0 then raise .write updated else updated

def acknowledge (curTs : UInt32) (segment : Segment) (ackSeq : UInt32) (buf : TcpSendBuffer)
    (s : TcpStream) : Except Fault TcpStream := do
  if tcpSeqGeq buf.headSeq ackSeq then return s
  if s.ctl.effMss = 0 then throw .divisionByZero
  let packets := ackedPackets (ackSeq - buf.headSeq) s.ctl.effMss
  let measured ← measureRTT curTs s
  let grown ← growWindow packets measured
  updateRetransmissionTimer curTs (removeAcked segment ackSeq buf grown)

def processACK (curTs : UInt32) (segment : Segment) (s : TcpStream) : Except Fault TcpStream :=
  match s.seqs.sndbuf with
  | none => .error .nullPointer
  | some buf =>
    let ackSeq := dataAck segment s
    let rightWndEdge := s.ctl.peerWnd + s.rcv.sndWl2
    if tcpSeqGt ackSeq (buf.headSeq + buf.len) then .ok s
    else do
      let (counted, dup) :=
        countDuplicate segment ackSeq rightWndEdge (updateWindow segment ackSeq s)
      let resent ← fastRetransmit ackSeq dup counted
      acknowledge curTs segment ackSeq buf (recoverAfterLoss ackSeq buf resent)

def discardPayload (state : TcpState) (buff : TcpRingBuffer) : Except Fault TcpRingBuffer :=
  if state = .finWait1 ∨ state = .finWait2 then Prod.fst <$> rbRemove buff buff.mergedLen
  else .ok buff

def storePayload (segment : Segment) (buff : TcpRingBuffer) (s : TcpStream) :
    Except Fault (TcpStream × Bool) := do
  let (stored, _) ← rbPut buff segment.payload segment.payloadlen segment.seq
  let kept ← discardPayload s.state stored
  let rcvNxt := kept.headSeq + UInt32.ofNat kept.mergedLen
  let updated := { s with rcv := { s.rcv with
    rcvbuf := some kept
    rcvNxt
    rcvWnd := UInt32.ofInt (kept.size - kept.mergedLen) } }
  if tcpSeqLeq rcvNxt s.rcv.rcvNxt then return (updated, false)
  return (if s.state = .established then raise .read updated else updated, true)

def processTCPPayload (config : Config) (around : Surroundings) (segment : Segment)
    (s : TcpStream) : Except Fault (TcpStream × Bool) :=
  let segEnd := segment.seq + segment.payloadlen
  if tcpSeqLt segEnd s.rcv.rcvNxt then .ok (s, false)
  else if tcpSeqGt segEnd (s.rcv.rcvNxt + s.rcv.rcvWnd) then .ok (s, false)
  else
    match s.rcv.rcvbuf with
    | some buff => storePayload segment buff s
    | none =>
      match around.chunk with
      -- `ERROR` counts as true for the callers
      | none => .ok (raise .error { s with state := .closed, closeReason := .noMem }, true)
      | some chunk => storePayload segment (rbInit config.rbm chunk (s.rcv.irs + 1)) s

def receivePayload (config : Config) (around : Surroundings) (segment : Segment)
    (s : TcpStream) : Except Fault TcpStream :=
  if segment.payload = [] then .ok s
  else do
    let (stored, inOrder) ← processTCPPayload config around segment s
    return enqueueACK (if inOrder then .aggregate else .now) stored

def receiveACK (curTs : UInt32) (segment : Segment) (s : TcpStream) : Except Fault TcpStream :=
  match s.seqs.sndbuf with
  | none => .ok s
  | some _ => processACK curTs segment s

def receiveFlaggedACK (curTs : UInt32) (segment : Segment) (s : TcpStream) :
    Except Fault TcpStream :=
  if segment.flags.ack then receiveACK curTs segment s else .ok s

def handleListen (segment : Segment) (s : TcpStream) : TcpStream :=
  if segment.flags.syn then
    log (.syn segment.seq) (addtoControlList { s with
      state := .synRcvd
      rcv := { s.rcv with
        rcvNxt := if s.state = .listen then s.rcv.rcvNxt + 1 else s.rcv.rcvNxt } })
  else s

def traceEstablished (s : TcpStream) : TcpStream :=
  log (.established s.seqs.sndUna s.seqs.sndNxt s.rcv.irs s.rcv.rcvNxt) s

/-- A SYN/ACK in `SYN_SENT`. The reset sent when the socket is gone belongs to no stream. -/
def completeActiveOpen (config : Config) (around : Surroundings) (segment : Segment)
    (s : TcpStream) : Except Fault TcpStream := do
  let opened ← handleActiveOpen around.curTs segment (log (.syn segment.seq) s)
  let established := traceEstablished (removeFromRTOList { opened with
    state := .established
    ctl := { opened.ctl with nrtx := 0 }
    rcv := { opened.rcv with rcvNxt := opened.rcv.irs + 1 } })
  if established.socket then
    let waiting := addtoControlList (raise .write established)
    if 0 < config.tcpTimeout then addtoTimeoutList waiting else return waiting
  else destroyTCPStream { established with closeReason := .activeClose }

def handleSynSent (config : Config) (around : Surroundings) (segment : Segment)
    (s : TcpStream) : Except Fault TcpStream :=
  if segment.flags.ack ∧
      (tcpSeqLeq segment.ackSeq s.seqs.iss ∨ tcpSeqGt segment.ackSeq s.seqs.sndNxt) then .ok s
  else
    let acked :=
      if segment.flags.ack then { s with seqs := { s.seqs with sndUna := s.seqs.sndUna + 1 } }
      else s
    if segment.flags.rst then
      if segment.flags.ack then
        let reset := { acked with state := .closeWait, closeReason := .reset }
        if reset.socket then .ok (raise .error reset) else destroyTCPStream reset
      else .ok acked
    else if segment.flags.syn then
      if segment.flags.ack then completeActiveOpen config around segment acked
      else
        .ok (log (.syn segment.seq) (addtoControlList { acked with
          state := .synRcvd
          seqs := { acked.seqs with sndNxt := acked.seqs.iss } }))
    else .ok acked

/-- The acknowledgment of our SYN in `SYN_RCVD`; the listener is used without a test. -/
def completePassiveOpen (config : Config) (around : Surroundings) (segment : Segment)
    (s : TcpStream) : Except Fault TcpStream :=
  let established := traceEstablished (removeFromRTOList { s with
    state := .established
    seqs := { s.seqs with sndUna := s.seqs.sndUna + 1, sndNxt := segment.ackSeq }
    ctl := { s.ctl with cwnd := initialCwnd s.ctl, nrtx := 0 }
    rcv := { s.rcv with rcvNxt := s.rcv.irs + 1 } })
  if around.listener = false then .error .nullPointer
  else
    let queued :=
      if around.acceptRoom then
        { established with queues := { established.queues with
            acceptq := established.queues.acceptq + 1 } }
      else addtoControlList { established with state := .closed, closeReason := .notAccepted }
    if 0 < config.tcpTimeout then addtoTimeoutList queued else .ok queued

def handleSynRcvd (config : Config) (around : Surroundings) (segment : Segment)
    (s : TcpStream) : Except Fault TcpStream :=
  if segment.flags.ack then
    if segment.ackSeq = s.seqs.iss + 1 then completePassiveOpen config around segment s
    else .ok s
  else .ok (addtoControlList { s with seqs := { s.seqs with sndNxt := s.seqs.iss } })

def handleEstablished (config : Config) (around : Surroundings) (segment : Segment)
    (s : TcpStream) : Except Fault TcpStream :=
  if segment.flags.syn then
    .ok (addtoControlList { s with seqs := { s.seqs with sndNxt := segment.ackSeq } })
  else do
    let received ← receivePayload config around segment s
    let acked ← receiveFlaggedACK around.curTs segment received
    if segment.flags.fin then
      if segment.seq + segment.payloadlen = acked.rcv.rcvNxt then
        return raise .read (addtoControlList { acked with
          state := .closeWait
          rcv := { acked.rcv with rcvNxt := acked.rcv.rcvNxt + 1 } })
      else return enqueueACK .now acked
    else return acked

def handleCloseWait (around : Surroundings) (segment : Segment) (s : TcpStream) :
    Except Fault TcpStream :=
  if tcpSeqLt segment.seq s.rcv.rcvNxt then .ok (addtoControlList s)
  else receiveACK around.curTs segment s

def handleLastAck (around : Surroundings) (segment : Segment) (s : TcpStream) :
    Except Fault TcpStream :=
  if tcpSeqLt segment.seq s.rcv.rcvNxt then .ok s
  else if segment.flags.ack then do
    let acked ← receiveACK around.curTs segment s
    if acked.seqs.isFinSent = false then return acked
    else if segment.ackSeq = acked.seqs.fss + 1 then
      let timed ← updateRetransmissionTimer around.curTs
        { acked with seqs := { acked.seqs with sndUna := acked.seqs.sndUna + 1 } }
      destroyTCPStream { timed with state := .closed, closeReason := .passiveClose }
    else return addtoControlList acked
  else .ok (addtoControlList s)

def finAcked (segment : Segment) (s : TcpStream) : TcpStream :=
  if s.seqs.isFinSent ∧ segment.ackSeq = s.seqs.fss + 1 then
    removeFromRTOList { s with
      state := .finWait2
      seqs := { s.seqs with
        sndUna := segment.ackSeq
        sndNxt := if tcpSeqGt segment.ackSeq s.seqs.sndNxt then segment.ackSeq else s.seqs.sndNxt }
      ctl := { s.ctl with nrtx := 0 } }
  else s

def handleFinWait1 (config : Config) (around : Surroundings) (segment : Segment)
    (s : TcpStream) : Except Fault TcpStream :=
  if tcpSeqLt segment.seq s.rcv.rcvNxt then .ok (addtoControlList s)
  else if segment.flags.ack = false then .ok s
  else do
    let acked ← receiveACK around.curTs segment s
    let received ← receivePayload config around segment (finAcked segment acked)
    if segment.flags.fin ∧ segment.seq + segment.payloadlen = received.rcv.rcvNxt then
      let counted := { received with rcv := { received.rcv with
        rcvNxt := received.rcv.rcvNxt + 1 } }
      return addtoControlList
        (if counted.state = .finWait1 then { counted with state := .closing }
        else if counted.state = .finWait2 then
          addtoTimewaitList config around.curTs { counted with state := .timeWait }
        else counted)
    else return received

def handleFinWait2 (config : Config) (around : Surroundings) (segment : Segment)
    (s : TcpStream) : Except Fault TcpStream :=
  if segment.flags.ack = false then .ok s
  else do
    let acked ← receiveACK around.curTs segment s
    let received ← receivePayload config around segment acked
    if segment.flags.fin ∧ segment.seq + segment.payloadlen = received.rcv.rcvNxt then
      return addtoControlList (addtoTimewaitList config around.curTs { received with
        state := .timeWait
        rcv := { received.rcv with rcvNxt := received.rcv.rcvNxt + 1 } })
    else return received

def handleClosing (config : Config) (around : Surroundings) (segment : Segment)
    (s : TcpStream) : Except Fault TcpStream :=
  if segment.flags.ack = false then .ok s
  else do
    let acked ← receiveACK around.curTs segment s
    if acked.seqs.isFinSent = true ∧ segment.ackSeq = acked.seqs.fss + 1 then
      let timed ← updateRetransmissionTimer around.curTs { acked with seqs := { acked.seqs with
        sndUna := segment.ackSeq
        sndNxt := segment.ackSeq } }
      return addtoTimewaitList config around.curTs { timed with state := .timeWait }
    else return acked

def handleTimeWait (config : Config) (around : Surroundings) (s : TcpStream) : TcpStream :=
  addtoControlList
    (if s.lists.onTimewaitList then
      addtoTimewaitList config around.curTs
        { s with lists := { s.lists with onTimewaitList := false } }
    else s)

def handleState (config : Config) (around : Surroundings) (segment : Segment) (s : TcpStream) :
    Except Fault TcpStream :=
  match s.state with
  | .listen => .ok (handleListen segment s)
  | .synSent => handleSynSent config around segment s
  | .synRcvd =>
    if segment.flags.syn ∧ segment.seq = s.rcv.irs then .ok (handleListen segment s)
    else do
      let handled ← handleSynRcvd config around segment s
      if segment.payload ≠ [] ∧ handled.state = .established then
        handleEstablished config around segment handled
      else return handled
  | .established => handleEstablished config around segment s
  | .closeWait => handleCloseWait around segment s
  | .lastAck => handleLastAck around segment s
  | .finWait1 => handleFinWait1 config around segment s
  | .finWait2 => handleFinWait2 config around segment s
  | .closing => handleClosing config around segment s
  | .timeWait => .ok (handleTimeWait config around s)
  | .closed => .ok s

def noteSegment (curTs : UInt32) (segment : Segment) (s : TcpStream) : TcpStream :=
  { s with
    haveReset := s.haveReset || segment.flags.rst
    ctl := { s.ctl with peerWnd := scaledWindow segment s.ctl }
    rcv := { s.rcv with lastActiveTs := curTs } }

def acceptSegment (config : Config) (around : Surroundings) (segment : Segment) (s : TcpStream) :
    Except Fault TcpStream := do
  if segment.flags.rst then
    let (reset, dealtWith) ← processRST segment (noteSegment around.curTs segment s)
    if dealtWith then return reset else handleState config around segment reset
  else handleState config around segment (noteSegment around.curTs segment s)

def processTCPPacket (config : Config) (around : Surroundings) (segment : Segment)
    (s : TcpStream) : Except Fault TcpStream :=
  if TcpState.synRcvd.number < s.state.number then
    let (checked, valid) := validateSequence config around.curTs segment s
    if valid then acceptSegment config around segment checked else .ok checked
  else acceptSegment config around segment s

end Mcc
