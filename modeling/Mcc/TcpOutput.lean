import Mcc.TcpStream

/-!
The output side of a connection, `tcp_out.c`: sending one segment, emptying the send buffer
and serving the control, data and ACK lists. How many packets the IP layer accepts during a
call is an argument, `buffers`; each call is the part of a list's service that concerns the
stream.
-/

namespace Mcc

open SerialNumber RingBuffer

def calculateOptionLength (flags : Flags) : Nat := if flags.syn then 20 else 12

def addtoControlList (s : TcpStream) : TcpStream :=
  { s with lists := { s.lists with onControlList := true } }

def removeFromControlList (s : TcpStream) : TcpStream :=
  { s with lists := { s.lists with onControlList := false } }

def addtoSendList (s : TcpStream) : Except Fault TcpStream :=
  match s.seqs.sndbuf with
  | none => .error .assertion
  | some _ => .ok { s with lists := { s.lists with onSendList := true } }

def removeFromSendList (s : TcpStream) : TcpStream :=
  { s with lists := { s.lists with onSendList := false } }

def addtoRTOList (s : TcpStream) : TcpStream :=
  { s with lists := { s.lists with
      onRtoList := s.lists.onRtoList || !s.lists.onTimewaitList } }

inductive AckOption where
  | now
  | aggregate
  | wack
  deriving Repr, DecidableEq

def enqueueACK (opt : AckOption) (s : TcpStream) : TcpStream :=
  { s with lists := { s.lists with
      onAckList := true
      isWack := s.lists.isWack || opt = .wack
      ackCnt :=
        match opt with
        | .now => (s.lists.ackCnt + 1) % 64
        | .aggregate => if s.lists.ackCnt = 0 then 1 else s.lists.ackCnt
        | .wack => s.lists.ackCnt } }

def bytePosition (s : TcpStream) (seq : UInt32) : Nat :=
  match s.seqs.sndbuf with
  | none => 0
  | some buf => buf.removed + (seq - buf.headSeq).toNat

def phantomLength (flags : Flags) : Nat := if flags.syn || flags.fin then 1 else 0

def packetSeq (flags : Flags) (wack : Bool) (seqs : SendSeq) : UInt32 :=
  if wack then seqs.sndNxt - 1 else if flags.fin then seqs.fss else seqs.sndNxt

def advertisedWindow (flags : Flags) (s : TcpStream) : UInt32 :=
  s.rcv.rcvWnd >>> (if flags.syn then 0 else s.ctl.wscaleMine.toUInt32)

def packetOf (flags : Flags) (wack : Bool) (payload : List UInt8) (s : TcpStream) : Packet where
  flags := flags
  seq := packetSeq flags wack s.seqs
  ackSeq := if flags.ack then s.rcv.rcvNxt else 0
  window := (min (advertisedWindow flags s) 65535).toUInt16
  payload := payload
  start := bytePosition s (packetSeq flags wack s.seqs)

def handOver (curTs : UInt32) (flags : Flags) (wack : Bool) (payload : List UInt8)
    (length : Nat) (s : TcpStream) : TcpStream :=
  { s with
    seqs := { s.seqs with
      sndNxt := s.seqs.sndNxt + UInt32.ofNat length
      isFinSent := s.seqs.isFinSent || (flags.fin && !wack) }
    ctl := { s.ctl with
      tsLastackSent := if flags.ack then curTs else s.ctl.tsLastackSent
      tsRto := if length = 0 then s.ctl.tsRto else curTs + s.ctl.rto }
    lists := if length = 0 then s.lists else (addtoRTOList s).lists
    rcv := { s.rcv with
      lastActiveTs := if flags.ack then curTs else s.rcv.lastActiveTs
      needWndAdv := s.rcv.needWndAdv || advertisedWindow flags s = 0 }
    history := .sent (packetOf flags wack payload s) :: s.history }

/-- `SendTCPPacket`; `wack` asks the peer for a window advertisement by a sequence number it has
already seen. -/
def sendTCPPacket (output : Bool) (curTs : UInt32) (flags : Flags) (wack : Bool)
    (payload : List UInt8) (payloadlen : UInt16) (s : TcpStream) : TcpStream × Int :=
  if s.ctl.mss.toNat < payloadlen.toNat + calculateOptionLength flags then (s, -1)
  else if output = false then (s, -2)
  else
    let length := payloadlen.toNat + phantomLength flags
    (handOver curTs flags wack (payload.take payloadlen.toNat) length s, length)

inductive FlushPass where
  | drained
  | blocked
  | sent
  deriving Repr, DecidableEq

def remainingWindow (s : TcpStream) : UInt32 :=
  min s.ctl.cwnd s.ctl.peerWnd - (s.seqs.sndNxt - s.seqs.sndUna)

def WindowFull (s : TcpStream) : Prop :=
  signed (remainingWindow s) ≤ 0 ∨
    (signed (remainingWindow s) < s.ctl.mss.toNat ∧ 0 < s.seqs.sndNxt - s.seqs.sndUna)

instance (s : TcpStream) : Decidable (WindowFull s) := inferInstanceAs (Decidable (_ ∨ _))

/-- The payload of the next segment, cut to 16 bits by the call. A room below zero is the larger
number when the unsigned length is compared with it. -/
def nextPayloadlen (len : UInt32) (s : TcpStream) : UInt16 :=
  let room := UInt32.ofInt ((s.ctl.mss.toNat : Int) - calculateOptionLength { ack := true })
  (min (min len (remainingWindow s)) room).toUInt16

/-- The microseconds are taken modulo `2 ^ 32`. -/
def tsToMsec (ts : UInt32) : UInt32 := ts * 1000 / 1000

/-- The first test of `wack_sent` in a call always succeeds, and no second one is reached. -/
def flushPass (output : Bool) (curTs : UInt32) (s : TcpStream) :
    Except Fault (TcpStream × FlushPass) :=
  match s.seqs.sndbuf with
  | none => .error .nullPointer
  | some buf =>
    let offset := s.seqs.sndNxt - buf.headSeq
    if tcpSeqLt s.seqs.sndNxt buf.headSeq then .error .assertion
    else if tcpSeqLt s.seqs.sndNxt s.seqs.sndUna then .error .assertion
    else if buf.len < offset then .error .assertion
    else if buf.len - offset = 0 then .ok (s, .drained)
    else if WindowFull s then
      if s.ctl.peerWnd ≤ s.ctl.cwnd ∧ 500 < tsToMsec (curTs - s.ctl.tsLastackSent) then
        .ok (enqueueACK .wack s, .blocked)
      else .ok (s, .blocked)
    else
      let payload := buf.data.drop (buf.head + offset.toNat)
      let payloadlen := nextPayloadlen (buf.len - offset) s
      let (after, ret) := sendTCPPacket output curTs { ack := true } false payload payloadlen s
      if ret < 0 then .ok (after, .blocked)
      else if payload.length < payloadlen.toNat then .error .outOfBounds
      else .ok (after, .sent)

def flushLoop (curTs : UInt32) : Nat → TcpStream → Int → Except Fault (TcpStream × Int)
  | 0, s, packets => do
      let (after, pass) ← flushPass false curTs s
      return (after, if pass = .drained then packets else -3)
  | buffers + 1, s, packets => do
      let (after, pass) ← flushPass true curTs s
      match pass with
      | .drained => return (after, packets)
      | .blocked => return (after, -3)
      | .sent => flushLoop curTs buffers after (packets + 1)

def flushTCPSendingBuffer (buffers : Nat) (curTs : UInt32) (s : TcpStream) :
    Except Fault (TcpStream × Int) :=
  match s.seqs.sndbuf with
  | none => .error .assertion
  | some buf => if buf.len = 0 then .ok (s, 0) else flushLoop curTs buffers s 0

def sendBare (output : Bool) (curTs : UInt32) (flags : Flags) (s : TcpStream) : TcpStream × Int :=
  sendTCPPacket output curTs flags false [] 0 s

/-- The control packet of each state. In `CLOSING` it is the FIN unless that has been sent and
`snd_nxt` is not back at it. -/
def controlFlags (s : TcpStream) : Flags :=
  match s.state with
  | .synSent => { syn := true }
  | .synRcvd => { syn := true, ack := true }
  | .lastAck | .finWait1 => { fin := true, ack := true }
  | .closing =>
    if s.seqs.isFinSent && s.seqs.sndNxt ≠ s.seqs.fss then { ack := true }
    else { fin := true, ack := true }
  | .closed => { rst := true }
  | .established | .closeWait | .finWait2 | .timeWait | .listen => { ack := true }

def controlDeferred (s : TcpStream) : Bool :=
  match s.state with
  | .lastAck | .finWait1 | .closed => s.lists.onSendList || s.lists.onAckList
  | _ => false

def controlBase (s : TcpStream) : TcpStream :=
  if s.state = .synRcvd then { s with seqs := { s.seqs with sndNxt := s.seqs.iss } } else s

def sendControlPacket (output : Bool) (curTs : UInt32) (s : TcpStream) :
    Except Fault (TcpStream × Int) :=
  if s.state = .listen then .ok (s, 0)
  else if controlDeferred s then .ok (s, -1)
  else
    let (after, ret) := sendBare output curTs (controlFlags s) (controlBase s)
    if s.state = .closed ∧ 0 ≤ ret then do return (← destroyTCPStream after, ret)
    else .ok (after, ret)

def writeTCPControlList (output : Bool) (curTs : UInt32) (s : TcpStream) :
    Except Fault TcpStream := do
  let (after, ret) ← sendControlPacket output curTs (removeFromControlList s)
  return if ret < 0 then addtoControlList after else after

def finishData (packets : Int) (s : TcpStream) : TcpStream :=
  let released := s.lists.controlListWaiting && !s.lists.onAckList
  { s with lists := { s.lists with
      onSendList := false
      ackCnt :=
        if packets < s.lists.ackCnt.toNat then s.lists.ackCnt - UInt8.ofNat packets.toNat else 0
      controlListWaiting := s.lists.controlListWaiting && !released
      onControlList := s.lists.onControlList || released } }

def serveData (buffers : Nat) (curTs : UInt32) (s : TcpStream) : Except Fault (TcpStream × Int) :=
  match s.state with
  | .established =>
    if s.lists.onControlList then .ok (s, -1) else flushTCPSendingBuffer buffers curTs s
  | .closeWait | .finWait1 | .lastAck => flushTCPSendingBuffer buffers curTs s
  | .closed | .listen | .synSent | .synRcvd | .finWait2 | .closing | .timeWait => .ok (s, 0)

def writeTCPDataList (buffers : Nat) (curTs : UInt32) (s : TcpStream) :
    Except Fault TcpStream := do
  let (after, ret) ← serveData buffers curTs s
  return if ret < 0 then after else finishData ret after

def ackLoop (curTs : UInt32) : Nat → Nat → TcpStream → TcpStream × Nat
  | 0, buffers, s => (s, buffers)
  | count + 1, buffers, s =>
    let (after, ret) := sendBare (0 < buffers) curTs { ack := true } s
    if ret < 0 then (after, buffers)
    else
      ackLoop curTs count (buffers - 1)
        { after with lists := { after.lists with ackCnt := after.lists.ackCnt - 1 } }

def sendWack (buffers : Nat) (curTs : UInt32) (s : TcpStream) : TcpStream :=
  if s.lists.isWack then
    let (after, ret) := sendTCPPacket (0 < buffers) curTs { ack := true } true [] 0 s
    { after with lists := { after.lists with isWack := ret < 0 } }
  else s

def toAck (s : TcpStream) : Bool :=
  match s.state with
  | .established | .closeWait | .finWait1 | .finWait2 | .timeWait =>
    match s.rcv.rcvbuf with
    | none => false
    | some buff => tcpSeqLeq s.rcv.rcvNxt (buff.headSeq + UInt32.ofNat buff.mergedLen)
  | _ => false

def serveACKs (buffers : Nat) (curTs : UInt32) (s : TcpStream) : TcpStream :=
  if toAck s then
    let (acked, left) := ackLoop curTs s.lists.ackCnt.toNat buffers s
    let asked := sendWack left curTs acked
    { asked with lists := { asked.lists with
        onAckList := asked.lists.ackCnt ≠ 0 || asked.lists.isWack } }
  else { s with lists := { s.lists with onAckList := false, ackCnt := 0, isWack := false } }

def writeTCPACKList (buffers : Nat) (curTs : UInt32) (s : TcpStream) : TcpStream :=
  let served := serveACKs buffers curTs s
  let released := served.lists.controlListWaiting && !served.lists.onSendList
  { served with lists := { served.lists with
      controlListWaiting := served.lists.controlListWaiting && !released
      onControlList := served.lists.onControlList || released } }

end Mcc
