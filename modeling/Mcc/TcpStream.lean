import Mcc.ConnectionState
import Mcc.SendBuffer
import Mcc.RingBufferCore

/-!
One connection of the stack. The fields of `tcp_stream`, `tcp_send_vars` and `tcp_recv_vars`
are grouped by what they are for; a list or queue of the stack is represented by whether, or
how often, the stream is on it.
-/

namespace Mcc

open SerialNumber RingBuffer

def tcpSeqLt (a b : UInt32) : Prop := signed (a - b) < 0

def tcpSeqLeq (a b : UInt32) : Prop := signed (a - b) ≤ 0

def tcpSeqGt (a b : UInt32) : Prop := 0 < signed (a - b)

def tcpSeqGeq (a b : UInt32) : Prop := 0 ≤ signed (a - b)

def tcpSeqBetween (a b c : UInt32) : Prop := tcpSeqGeq a b ∧ tcpSeqLeq a c

instance (a b : UInt32) : Decidable (tcpSeqLt a b) := inferInstanceAs (Decidable (_ < _))

instance (a b : UInt32) : Decidable (tcpSeqLeq a b) := inferInstanceAs (Decidable (_ ≤ _))

instance (a b : UInt32) : Decidable (tcpSeqGt a b) := inferInstanceAs (Decidable (_ < _))

instance (a b : UInt32) : Decidable (tcpSeqGeq a b) := inferInstanceAs (Decidable (_ ≤ _))

instance (a b c : UInt32) : Decidable (tcpSeqBetween a b c) := inferInstanceAs (Decidable (_ ∧ _))

inductive CloseReason where
  | notClosed
  | activeClose
  | passiveClose
  | connFail
  | connLost
  | reset
  | noMem
  | notAccepted
  | timedout
  deriving Repr, DecidableEq

structure Flags where
  syn : Bool := false
  ack : Bool := false
  fin : Bool := false
  rst : Bool := false
  deriving Repr, DecidableEq

/-- A received segment. The options stand as what `ParseTCPOptions` and `ParseTCPTimestamp`
read from them. -/
structure Segment where
  flags : Flags
  seq : UInt32
  ackSeq : UInt32
  window : UInt16
  payload : List UInt8 := []
  mssOption : Option UInt16 := none
  wscaleOption : Option UInt8 := none
  timestampOption : Option UInt32 := none
  timestamp : Option (UInt32 × UInt32) := none
  deriving Repr, DecidableEq

def Segment.payloadlen (segment : Segment) : UInt32 := UInt32.ofNat segment.payload.length

/-- A segment handed to the IP layer; `start` tells which written byte its payload starts with. -/
structure Packet where
  flags : Flags
  seq : UInt32
  ackSeq : UInt32
  window : UInt16
  payload : List UInt8
  start : Nat
  deriving Repr, DecidableEq

inductive EventKind where
  | read
  | write
  | close
  | error
  deriving Repr, DecidableEq

/-- What can be seen of a stream: segments sent, bytes dropped from the send buffer (with the
segment that acknowledged them), events for the socket, the peer's SYN taken, and the trace of
`TCP_ST_ESTABLISHED` with the sequence variables. -/
inductive Action where
  | sent (packet : Packet)
  | removed (start count : Nat) (segment : Segment)
  | raised (kind : EventKind)
  | syn (seq : UInt32)
  | established (sndUna sndNxt irs rcvNxt : UInt32)
  deriving Repr, DecidableEq

structure SendSeq where
  sndNxt : UInt32 := 0
  sndUna : UInt32 := 0
  iss : UInt32 := 0
  fss : UInt32 := 0
  isFinSent : Bool := false
  sndbuf : Option TcpSendBuffer := none
  deriving Repr, DecidableEq

structure SendControl where
  mss : UInt16 := 0
  effMss : UInt16 := 0
  wscaleMine : UInt8 := 0
  wscalePeer : UInt8 := 0
  sndWnd : UInt32 := 0
  peerWnd : UInt32 := 0
  nrtx : UInt8 := 0
  maxNrtx : UInt8 := 0
  rto : UInt32 := 0
  tsRto : UInt32 := 0
  cwnd : UInt32 := 0
  ssthresh : UInt32 := 0
  tsLastackSent : UInt32 := 0
  deriving Repr, DecidableEq

/-- The lists of the stack thread. A retransmission timer is running when `onRtoList` is set
(`on_rto_idx >= 0`); `ackCnt` is a bit field of 6 bits. -/
structure Lists where
  onControlList : Bool := false
  onSendList : Bool := false
  onAckList : Bool := false
  onRtoList : Bool := false
  onTimewaitList : Bool := false
  onTimeoutList : Bool := false
  controlListWaiting : Bool := false
  isWack : Bool := false
  ackCnt : UInt8 := 0
  deriving Repr, DecidableEq

/-- How many entries of each queue of the manager (and of the listener) are this stream, and the
flags in which the stream records it. -/
structure Queues where
  connectq : Nat := 0
  sendq : Nat := 0
  ackq : Nat := 0
  closeq : Nat := 0
  closeqInt : Nat := 0
  resetq : Nat := 0
  resetqInt : Nat := 0
  destroyq : Nat := 0
  acceptq : Nat := 0
  onSendq : Bool := false
  onAckq : Bool := false
  onCloseq : Bool := false
  onCloseqInt : Bool := false
  onResetq : Bool := false
  onResetqInt : Bool := false
  deriving Repr, DecidableEq

structure RecvVars where
  rcvNxt : UInt32 := 0
  rcvWnd : UInt32 := 0
  irs : UInt32 := 0
  sndWl1 : UInt32 := 0
  sndWl2 : UInt32 := 0
  dupAcks : UInt8 := 0
  lastAckSeq : UInt32 := 0
  sawTimestamp : Bool := false
  tsRecent : UInt32 := 0
  tsLastackRcvd : UInt32 := 0
  tsLastTsUpd : UInt32 := 0
  tsTwExpire : UInt32 := 0
  lastActiveTs : UInt32 := 0
  srtt : UInt32 := 0
  mdev : UInt32 := 0
  mdevMax : UInt32 := 0
  rttvar : UInt32 := 0
  rttSeq : UInt32 := 0
  needWndAdv : Bool := false
  rcvbuf : Option TcpRingBuffer := none
  deriving Repr, DecidableEq

structure TcpStream where
  state : TcpState := .closed
  closeReason : CloseReason := .notClosed
  socket : Bool := false
  closed : Bool := false
  haveReset : Bool := false
  onHashTable : Bool := false
  seqs : SendSeq := {}
  ctl : SendControl := {}
  lists : Lists := {}
  queues : Queues := {}
  rcv : RecvVars := {}
  destroyed : Nat := 0
  history : List Action := []
  deriving Repr, DecidableEq

structure Config where
  mss : UInt16
  tcpTimewait : UInt32
  tcpTimeout : Int
  sbm : SBManager
  rbm : RBManager

/-- The defaults of `config.c`, with the smallest buffers that it accepts. -/
def sampleConfig : Config where
  mss := 1460
  tcpTimewait := 0
  tcpTimeout := 30000
  sbm := { chunkSize := 64, positive := by decide, bounded := by decide }
  rbm := { chunkSize := 64, positive := by decide, bounded := by decide }

def createTCPStream (config : Config) (socket : Bool) (iss : UInt32) : TcpStream where
  state := .listen
  socket := socket
  onHashTable := true
  seqs := { iss := iss, sndNxt := iss, sndUna := iss }
  ctl := { mss := config.mss, wscaleMine := 7, sndWnd := UInt32.ofNat config.sbm.chunkSize, rto := 500 }
  rcv := { rcvWnd := 14600, sndWl1 := 0 - 1 }

/-- `DestroyTCPStream`: the entries of the queues stay as they are. -/
def destroyTCPStream (s : TcpStream) : Except Fault TcpStream :=
  if s.onHashTable then
    .ok { s with
      onHashTable := false
      seqs := { s.seqs with sndbuf := none }
      lists := { s.lists with
        onControlList := false
        onSendList := false
        onAckList := false
        onRtoList := false
        onTimewaitList := false
        onTimeoutList := false }
      rcv := { s.rcv with rcvbuf := none }
      destroyed := s.destroyed + 1 }
  else .error .assertion

def log (action : Action) (s : TcpStream) : TcpStream := { s with history := action :: s.history }

/-- `RaiseReadEvent` and its siblings; which kinds the socket asked for is left open. -/
def raise (kind : EventKind) (s : TcpStream) : TcpStream :=
  { s with history := if s.socket then .raised kind :: s.history else s.history }

end Mcc
