import Mcc.Machine

/-!
The stream generator, which replays a stored stream as a TCP conversation whose two ends it makes up
itself. Every packet is built in one template: the headers are written, then the options, then the
checksums, and in a data packet the payload.
-/

namespace Mcc.StreamGen

inductive State where
  | closed
  | synSent
  | synRcvd
  | established
  | closing
  | finSent1
  | finSent2
  deriving Repr, DecidableEq

structure Node where
  totBuf : Nat → UInt8
  len : Nat
  offset : Nat
  state : State
  id : UInt16
  rcvId : UInt16
  saddr : UInt32
  daddr : UInt32
  sport : UInt16
  dport : UInt16
  seq : UInt32
  ackSeq : UInt32
  ts : UInt32
  tsPeer : UInt32

/-- The packet that a thread builds its packets in. The addresses and the checksums are as they lie in
memory, the other fields in host order; `tail` is what follows the TCP header. -/
structure Template where
  ipId : UInt16
  totLen : UInt16
  saddr : UInt32
  daddr : UInt32
  ipCheck : UInt16
  source : UInt16
  dest : UInt16
  seq : UInt32
  ackSeq : UInt32
  doff : Nat
  fin : Bool
  syn : Bool
  psh : Bool
  ack : Bool
  check : UInt16
  tail : Nat → UInt8

structure Packet where
  template : Template
  length : Nat

def ipHeaderLen : Nat := 20

def tcpHeaderLen : Nat := 20

def headerLen : Nat := 54

def maxSegSize : Nat := 1435

def be16 (value : UInt16) : List UInt8 := [(value >>> 8).toUInt8, value.toUInt8]

def be32 (value : UInt32) : List UInt8 :=
  [(value >>> 24).toUInt8, (value >>> 16).toUInt8, (value >>> 8).toUInt8, value.toUInt8]

def le16 (value : UInt16) : List UInt8 := [value.toUInt8, (value >>> 8).toUInt8]

def le32 (value : UInt32) : List UInt8 :=
  [value.toUInt8, (value >>> 8).toUInt8, (value >>> 16).toUInt8, (value >>> 24).toUInt8]

def htons (value : UInt16) : UInt16 := UInt16.ofNat (value.toNat / 256 + 256 * (value.toNat % 256))

namespace Template

def ipBytes (t : Template) : List UInt8 :=
  [0x45, 0] ++ be16 t.totLen ++ be16 t.ipId ++ [0x40, 0, 64, 6] ++ le16 t.ipCheck ++ le32 t.saddr ++
    le32 t.daddr

def flags (t : Template) : UInt8 :=
  (if t.fin then 1 else 0) + (if t.syn then 2 else 0) + (if t.psh then 8 else 0) +
    (if t.ack then 16 else 0)

def tcpHeader (t : Template) : List UInt8 :=
  be16 t.source ++ be16 t.dest ++ be32 t.seq ++ be32 t.ackSeq ++
    [UInt8.ofNat (16 * t.doff), t.flags] ++ be16 65535 ++ le16 t.check ++ [0, 0]

def tcpBytes (t : Template) (following : Nat) : List UInt8 :=
  t.tcpHeader ++ (List.range following).map t.tail

end Template

def addWords : List UInt8 → UInt32 → UInt32
  | first :: second :: rest, sum => addWords rest (sum + (first.toUInt32 + 256 * second.toUInt32))
  | _, sum => sum

def checksum (buf : List UInt8) (sum : UInt32) : UInt16 :=
  let sum := addWords buf sum
  let sum := (sum >>> 16) + (sum &&& 0xffff)
  let sum := sum + (sum >>> 16)
  let sum := if buf.length % 2 = 1 then sum + (buf.getLastD 0).toUInt32 else sum
  (~~~ sum).toUInt16

namespace Template

def clearIpCheck (t : Template) : Template := { t with ipCheck := 0 }

def clearCheck (t : Template) : Template := { t with check := 0 }

def ipChecksum (t : Template) : UInt16 := checksum t.clearIpCheck.ipBytes 0

def tcpChecksum (t : Template) : UInt16 :=
  let tcpLen := t.totLen - 20
  let sum := t.saddr + t.daddr + (htons 6).toUInt32 + (htons tcpLen).toUInt32
  checksum (t.clearCheck.tcpBytes (tcpLen.toNat - tcpHeaderLen)) sum

def write (t : Template) (offset : Nat) (bytes : List UInt8) : Template :=
  { t with tail := fun index =>
      if offset ≤ index ∧ index < offset + bytes.length then bytes.getD (index - offset) 0
      else t.tail index }

end Template

def calOptLen (syn : Bool) : Nat :=
  if syn then 4 + 10 + 2 + (3 + 1) else 10 + 2

def generateTimestamp (curTs tsRecent : UInt32) : List UInt8 := [8, 10] ++ be32 curTs ++ be32 tsRecent

def generateOpt (curTs : UInt32) (syn : Bool) (tsRecent : UInt32) : List UInt8 :=
  let mss : UInt16 := 1460
  if syn then
    [(2 : UInt8), 4, (mss >>> 8).toUInt8, (mss % 256).toUInt8] ++ [1, 1] ++
      generateTimestamp curTs tsRecent ++ [1, 3, 3, 7]
  else [1, 1] ++ generateTimestamp curTs tsRecent

structure Fields where
  forward : Bool
  id : UInt16
  syn : Bool
  fin : Bool
  psh : Bool
  ack : Bool
  seq : UInt32
  ackSeq : UInt32
  curTs : UInt32
  tsRecent : UInt32
  length : Nat

def Template.fill (t : Template) (node : Node) (f : Fields) : Template :=
  let optlen := calOptLen f.syn
  let t := { t with
    ipId := f.id
    totLen := UInt16.ofNat (ipHeaderLen + tcpHeaderLen + optlen + f.length)
    saddr := if f.forward then node.saddr else node.daddr
    daddr := if f.forward then node.daddr else node.saddr }
  let t := { t with ipCheck := t.ipChecksum }
  let t := t.write 0 (generateOpt f.curTs f.syn f.tsRecent)
  let t := { t with
    source := if f.forward then node.sport else node.dport
    dest := if f.forward then node.dport else node.sport
    seq := f.seq
    ackSeq := f.ackSeq
    doff := (tcpHeaderLen + optlen) / 4
    fin := f.fin
    syn := f.syn
    psh := f.psh
    ack := f.ack }
  { t with check := t.tcpChecksum }

structure Input where
  pktTypeCnt : Int
  clock : UInt32
  prand : UInt32
  id : UInt16
  saddr : UInt32
  daddr : UInt32
  sport : UInt16
  dport : UInt16
  seq : UInt32
  ackSeq : UInt32

abbrev Outcome := Node × Template × List Packet

def setField (node : Node) (input : Input) : Node :=
  { node with
    saddr := input.saddr
    daddr := input.daddr
    sport := input.sport
    dport := input.dport
    id := input.id % 32768
    rcvId := 0
    seq := input.seq % 100000000 + 10000000
    ackSeq := input.ackSeq % 100000000 + 10000000
    ts := 0
    tsPeer := 0
    state := .closed
    offset := 0 }

def sendControl (node : Node) (t : Template) (f : Fields) : Template × List Packet :=
  let t := t.fill node f
  (t, [{ template := t, length := headerLen + calOptLen f.syn }])

def sendSyn (node : Node) (t : Template) (input : Input) : Outcome :=
  match node.state with
  | .closed =>
    let node := { node with ts := input.clock, tsPeer := input.clock + 1234 }
    let (t, sent) := sendControl node t
      { forward := true, id := node.id, syn := true, fin := false, psh := false, ack := false,
        seq := node.seq, ackSeq := 0, curTs := node.ts, tsRecent := 0, length := 0 }
    ({ node with state := .synSent }, t, sent)
  | .synSent =>
    let ackSeq := input.prand % 100000000 + 10000000
    let (t, sent) := sendControl node t
      { forward := false, id := node.rcvId, syn := true, fin := false, psh := false, ack := true,
        seq := ackSeq - 1, ackSeq := node.seq + 1, curTs := node.tsPeer, tsRecent := node.ts,
        length := 0 }
    ({ node with rcvId := node.rcvId + 1, ackSeq, state := .synRcvd }, t, sent)
  | .synRcvd =>
    let node := { node with id := node.id + 1, seq := node.seq + 1 }
    let (t, sent) := sendControl node t
      { forward := true, id := node.id, syn := false, fin := false, psh := false, ack := true,
        seq := node.seq, ackSeq := node.ackSeq, curTs := node.ts, tsRecent := node.tsPeer,
        length := 0 }
    ({ node with id := node.id + 1, state := .established }, { t with psh := true }, sent)
  | _ => (node, t, [])

def sendFin (node : Node) (t : Template) (input : Input) : Outcome :=
  match node.state with
  | .closing =>
    let tsRecent := node.tsPeer
    let node := { node with tsPeer := node.tsPeer + 1, ts := node.ts + 1 }
    let (t, sent) := sendControl node t
      { forward := true, id := node.id, syn := false, fin := true, psh := false, ack := true,
        seq := node.seq, ackSeq := node.ackSeq, curTs := node.ts, tsRecent, length := 0 }
    ({ node with state := .finSent1 }, t, sent)
  | .finSent1 =>
    let tsRecent := node.ts
    let (t, sent) := sendControl node t
      { forward := false, id := node.rcvId, syn := false, fin := true, psh := false, ack := true,
        seq := node.ackSeq, ackSeq := node.seq + 1, curTs := node.tsPeer, tsRecent, length := 0 }
    ({ node with rcvId := node.rcvId + 1, ts := node.ts + 1, state := .finSent2 }, t, sent)
  | .finSent2 =>
    let node := { node with id := node.id + 1 }
    let (t, sent) := sendControl node t
      { forward := true, id := node.id, syn := false, fin := false, psh := false, ack := true,
        seq := node.seq + 1, ackSeq := node.ackSeq + 1, curTs := node.ts, tsRecent := node.tsPeer,
        length := 0 }
    (setField node input, t, sent)
  | _ => (node, t, [])

def sendAck (node : Node) (t : Template) : Outcome :=
  let tsRecent := node.ts
  let node := { node with tsPeer := node.tsPeer + 1 }
  let (t, sent) := sendControl node t
    { forward := false, id := node.rcvId, syn := false, fin := false, psh := false, ack := true,
      seq := node.ackSeq, ackSeq := node.seq, curTs := node.tsPeer, tsRecent, length := 0 }
  ({ node with rcvId := node.rcvId + 1 }, t, sent)

def Node.bytes (node : Node) (length : Nat) : List UInt8 :=
  (List.range length).map fun index => node.totBuf (node.offset + index)

def Node.cut (node : Node) (length : Nat) : Nat × Node :=
  let restLen := node.len - node.offset
  if length ≥ restLen then (restLen, { node with state := .closing }) else (length, node)

def dataFields (node : Node) (length : Nat) : Fields where
  forward := true
  id := node.id
  syn := false
  fin := false
  psh := true
  ack := true
  seq := node.seq
  ackSeq := node.ackSeq
  curTs := node.ts + 1
  tsRecent := node.tsPeer
  length := length

def dataPacket (node : Node) (t : Template) (length : Nat) : Packet where
  template := (t.fill node (dataFields node length)).write (calOptLen false) (node.bytes length)
  length := headerLen + calOptLen false + length

def sendDataPkt (node : Node) (t : Template) (length : Nat) : Outcome :=
  let (length, node) := node.cut length
  let sent := dataPacket node t length
  let node := { node with
    ts := node.ts + 1
    offset := node.offset + length
    id := node.id + 1
    seq := node.seq + UInt32.ofNat length }
  let (node, t, acked) := sendAck node sent.template
  (node, t, sent :: acked)

inductive PktType where
  | fragment
  | complete
  deriving Repr, DecidableEq

def getPktType (counter upperBound : Int) : Int × PktType :=
  let counter := counter + 1
  if counter ≤ upperBound then (counter, .fragment)
  else if counter ≤ 100 then (counter, .complete)
  else (0, .complete)

/-- The table of `sunday_pre`: a later occurrence in the pattern overwrites an earlier one. -/
def sunShift (pat : List UInt8) : UInt8 → Nat :=
  pat.zipIdx.foldl (fun table entry => Function.update table entry.1 (pat.length - entry.2))
    fun _ => pat.length + 1

theorem foldl_update_keeps {P : Nat → Prop} {bound : Nat} {byte : UInt8} (entries : List (UInt8 × Nat))
    (table : UInt8 → Nat) (listed : ∀ entry ∈ entries, P (bound - entry.2)) (now : P (table byte)) :
    P (entries.foldl (fun table entry => Function.update table entry.1 (bound - entry.2)) table byte) := by
  induction entries generalizing table with
  | nil => exact now
  | cons entry rest ih =>
    refine ih _ (fun other member => listed other (List.mem_cons_of_mem _ member)) ?_
    by_cases same : byte = entry.1
    · subst same
      simpa using listed entry List.mem_cons_self
    · simpa [same] using now

theorem sunShift_pos (pat : List UInt8) (byte : UInt8) : 0 < sunShift pat byte := by
  refine foldl_update_keeps _ _ (fun entry member => ?_) (Nat.succ_pos _)
  have := List.mem_zipIdx member
  omega

def sundayLoop (target : Nat → UInt8) (lenT : Nat) (pat : List UInt8) (pos : Nat) : Option Nat :=
  if pos + pat.length ≤ lenT then
    if (List.range pat.length).map (fun index => target (pos + index)) = pat then
      some (pos + pat.length)
    else sundayLoop target lenT pat (pos + sunShift pat (target (pos + pat.length)))
  else none
termination_by lenT + 1 - pos
decreasing_by
  have := sunShift_pos pat (target (pos + pat.length))
  omega

/-- The index after the first match that the search finds; `none` is -1. -/
def sundayMatch (target : Nat → UInt8) (lenT : Nat) (pat : List UInt8) : Option Nat :=
  sundayLoop target lenT pat 0

structure Settings where
  fragRate : Int
  isLenFixed : Bool
  lenCut : Int
  deriving Repr, DecidableEq

def getDataLen (settings : Settings) (node : Node) (nParts : Int) : Except Fault Nat := do
  let length ← if settings.isLenFixed then pure settings.lenCut
    else if nParts = 0 then throw .divisionByZero else pure ((node.len : Int).tdiv nParts)
  return if length < 40 then 40 else if length > maxSegSize then maxSegSize else length.toNat

/-- The length of the next payload. The comparison of the unsigned `length` with 0 never succeeds: when
nothing is found, -1 is a huge length, which is cut. -/
def nextLength (settings : Settings) (nParts : Int) (node : Node) (input : Input) :
    Except Fault Nat :=
  match (getPktType input.pktTypeCnt settings.fragRate).2 with
  | .fragment => getDataLen settings node nParts
  | .complete =>
    match sundayMatch (fun index => node.totBuf (node.offset + index)) (node.len - node.offset)
      [13, 10, 13, 10] with
    | some length => if length > maxSegSize then getDataLen settings node nParts else pure length
    | none => getDataLen settings node nParts

def sendPacket (settings : Settings) (nParts : Int) (input : Input) (node : Node) (t : Template) :
    Except Fault Outcome :=
  match node.state with
  | .closed => return if node.offset = 0 then sendSyn node t input else (node, t, [])
  | .synSent => return sendSyn node t input
  | .synRcvd => return sendSyn node t input
  | .established => do
      let length ← nextLength settings nParts node input
      return sendDataPkt node t length
  | .closing => return sendFin node t input
  | .finSent1 => return sendFin node t input
  | .finSent2 => return sendFin node t input

def run (settings : Settings) (nParts : Int) (node : Node) (t : Template) :
    List Input → Except Fault Outcome
  | [] => return (node, t, [])
  | input :: rest => do
      let (node, t, sent) ← sendPacket settings nParts input node t
      let (node, t, more) ← run settings nParts node t rest
      return (node, t, sent ++ more)

end Mcc.StreamGen
