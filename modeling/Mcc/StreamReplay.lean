import Mcc.StreamGenerator

/-!
The packets of the stream generator form a TCP conversation that carries the stored stream. A
conversation is described on its own, as segments with their direction, flags, numbers and payload;
each packet is shown to carry the segment in its place.
-/

namespace Mcc.StreamGen

structure Segment where
  forward : Bool
  syn : Bool
  fin : Bool
  ack : Bool
  seq : UInt32
  ackSeq : UInt32
  payload : List UInt8
  deriving Repr, DecidableEq

open Segment

structure Role where
  forward : Bool
  syn : Bool
  fin : Bool
  ack : Bool
  payload : List UInt8
  deriving Repr, DecidableEq

namespace Segment

def role (s : Segment) : Role := ⟨s.forward, s.syn, s.fin, s.ack, s.payload⟩

def next (s : Segment) : UInt32 :=
  s.seq + UInt32.ofNat s.payload.length + (if s.syn then 1 else 0) + (if s.fin then 1 else 0)

end Segment

def roles (pieces : List (List UInt8)) : List Role :=
  [⟨true, true, false, false, []⟩, ⟨false, true, false, true, []⟩, ⟨true, false, false, true, []⟩] ++
    pieces.flatMap (fun piece => [⟨true, false, false, true, piece⟩, ⟨false, false, false, true, []⟩]) ++
    [⟨true, false, true, true, []⟩, ⟨false, false, true, true, []⟩, ⟨true, false, false, true, []⟩]

/-- In each direction a segment's number is the one that the previous segment left, and an
acknowledgment is the next number of the other side. The arguments are these numbers, once there are
any. -/
def Sequenced (forward backward : Option UInt32) : List Segment → Prop
  | [] => True
  | s :: rest =>
    if s.forward then
      (∀ next, forward = some next → s.seq = next) ∧
        (if s.ack then backward = some s.ackSeq else backward = none) ∧
          Sequenced (some s.next) backward rest
    else
      (∀ next, backward = some next → s.seq = next) ∧
        (if s.ack then forward = some s.ackSeq else forward = none) ∧ Sequenced forward (some s.next) rest

def exchange (seq ackSeq : UInt32) : List (List UInt8) → List Segment
  | [] => []
  | piece :: rest =>
    ⟨true, false, false, true, seq, ackSeq, piece⟩ ::
      ⟨false, false, false, true, ackSeq, seq + UInt32.ofNat piece.length, []⟩ ::
        exchange (seq + UInt32.ofNat piece.length) ackSeq rest

def handshake (seq ackSeq : UInt32) : List Segment :=
  [⟨true, true, false, false, seq, 0, []⟩, ⟨false, true, false, true, ackSeq - 1, seq + 1, []⟩,
    ⟨true, false, false, true, seq + 1, ackSeq, []⟩]

def teardown (seq ackSeq : UInt32) : List Segment :=
  [⟨true, false, true, true, seq, ackSeq, []⟩, ⟨false, false, true, true, ackSeq, seq + 1, []⟩,
    ⟨true, false, false, true, seq + 1, ackSeq + 1, []⟩]

def dialogue (seq ackSeq : UInt32) (pieces : List (List UInt8)) : List Segment :=
  handshake seq ackSeq ++ exchange (seq + 1) ackSeq pieces ++
    teardown (seq + 1 + UInt32.ofNat pieces.flatten.length) ackSeq

theorem ofNat_add (first second : Nat) :
    UInt32.ofNat (first + second) = UInt32.ofNat first + UInt32.ofNat second := by
  simp

section

variable (seq ackSeq : UInt32)

section

variable (pieces : List (List UInt8))

theorem exchange_roles : (exchange seq ackSeq pieces).map role = pieces.flatMap fun piece =>
      [⟨true, false, false, true, piece⟩, ⟨false, false, false, true, []⟩] := by
  induction pieces generalizing seq with
  | nil => rfl
  | cons piece rest ih => simp [exchange, role, ih]

theorem dialogue_roles : (dialogue seq ackSeq pieces).map role = roles pieces := by
  simp [dialogue, roles, exchange_roles, handshake, teardown, role]

theorem exchange_sequenced (rest : List Segment)
    (later : Sequenced (some (seq + UInt32.ofNat pieces.flatten.length)) (some ackSeq) rest) :
    Sequenced (some seq) (some ackSeq) (exchange seq ackSeq pieces ++ rest) := by
  induction pieces generalizing seq with
  | nil => simpa [exchange] using later
  | cons piece more ih =>
    have next := ih (seq + UInt32.ofNat piece.length) (by
      rw [List.flatten_cons, List.length_append, ofNat_add] at later
      rwa [UInt32.add_assoc])
    simpa [exchange, Sequenced, Segment.next] using next

theorem dialogue_sequenced : Sequenced none none (dialogue seq ackSeq pieces) := by
  have inner := exchange_sequenced (seq + 1) ackSeq pieces
    (teardown (seq + 1 + UInt32.ofNat pieces.flatten.length) ackSeq)
    (by simp [teardown, Sequenced, next])
  simpa [dialogue, handshake, Sequenced, next, List.append_assoc] using inner

end

end

def Packet.payload (p : Packet) : List UInt8 :=
  (List.range (p.length - (34 + 4 * p.template.doff))).map fun index =>
    p.template.tail (4 * p.template.doff - tcpHeaderLen + index)

structure Carries (node : Node) (p : Packet) (s : Segment) : Prop where
  length : p.length = 14 + p.template.totLen.toNat
  saddr : p.template.saddr = if s.forward then node.saddr else node.daddr
  daddr : p.template.daddr = if s.forward then node.daddr else node.saddr
  source : p.template.source = if s.forward then node.sport else node.dport
  dest : p.template.dest = if s.forward then node.dport else node.sport
  syn : p.template.syn = s.syn
  fin : p.template.fin = s.fin
  ack : p.template.ack = s.ack
  seq : p.template.seq = s.seq
  ackSeq : p.template.ackSeq = s.ackSeq
  payload : p.payload = s.payload

structure Keeps (node after : Node) : Prop where
  totBuf : after.totBuf = node.totBuf
  len : after.len = node.len
  saddr : after.saddr = node.saddr
  daddr : after.daddr = node.daddr
  sport : after.sport = node.sport
  dport : after.dport = node.dport

theorem Keeps.trans {node middle after} (first : Keeps node middle)
    (second : Keeps middle after) : Keeps node after :=
  ⟨second.totBuf.trans first.totBuf, second.len.trans first.len, second.saddr.trans first.saddr,
    second.daddr.trans first.daddr, second.sport.trans first.sport, second.dport.trans first.dport⟩

theorem Carries.of_keeps {node after} (keeps : Keeps node after) {p s}
    (carries : Carries after p s) : Carries node p s :=
  { carries with
    saddr := by rw [carries.saddr, keeps.saddr, keeps.daddr]
    daddr := by rw [carries.daddr, keeps.saddr, keeps.daddr]
    source := by rw [carries.source, keeps.sport, keeps.dport]
    dest := by rw [carries.dest, keeps.sport, keeps.dport] }

def Fields.segment (f : Fields) (payload : List UInt8) : Segment :=
  ⟨f.forward, f.syn, f.fin, f.ack, f.seq, f.ackSeq, payload⟩

theorem calOptLen_cases (syn : Bool) : calOptLen syn = 12 ∨ calOptLen syn = 20 := by
  cases syn
  · exact .inl rfl
  · exact .inr rfl

theorem fill_doff (t : Template) (node : Node) (f : Fields) :
    4 * (t.fill node f).doff = tcpHeaderLen + calOptLen f.syn := by
  change 4 * ((tcpHeaderLen + calOptLen f.syn) / 4) = _
  rcases calOptLen_cases f.syn with small | large
  · simp [small, tcpHeaderLen]
  · simp [large, tcpHeaderLen]

theorem fill_totLen (t : Template) (node : Node) (f : Fields) (short : f.length ≤ maxSegSize) :
    (t.fill node f).totLen.toNat = ipHeaderLen + tcpHeaderLen + calOptLen f.syn + f.length := by
  change (UInt16.ofNat (ipHeaderLen + tcpHeaderLen + calOptLen f.syn + f.length)).toNat = _
  have := calOptLen_cases f.syn
  simp only [ipHeaderLen, tcpHeaderLen, maxSegSize] at *
  rw [UInt16.toNat_ofNat']
  omega

theorem fill_carries (t : Template) (node : Node) (f : Fields) (short : f.length ≤ maxSegSize)
    (tail : Nat → UInt8) :
    Carries node
      { template := { t.fill node f with tail }, length := headerLen + calOptLen f.syn + f.length }
      (f.segment ((List.range f.length).map fun index => tail (calOptLen f.syn + index))) := by
  have totLen := fill_totLen t node f short
  have doff := fill_doff t node f
  refine ⟨?_, rfl, rfl, rfl, rfl, rfl, rfl, rfl, rfl, rfl, ?_⟩
  · change headerLen + calOptLen f.syn + f.length = 14 + (t.fill node f).totLen.toNat
    rw [totLen]
    simp only [headerLen, ipHeaderLen, tcpHeaderLen]
    omega
  · change (List.range (headerLen + calOptLen f.syn + f.length - (34 + 4 * (t.fill node f).doff))).map
      (fun index => tail (4 * (t.fill node f).doff - tcpHeaderLen + index)) = _
    have count : headerLen + calOptLen f.syn + f.length - (34 + (tcpHeaderLen + calOptLen f.syn)) =
        f.length := by
      simp only [headerLen, tcpHeaderLen]
      omega
    rw [doff, count, Nat.add_sub_cancel_left]
    rfl

def control (node : Node) (t : Template) (f : Fields) : Packet where
  template := t.fill node f
  length := headerLen + calOptLen f.syn

theorem control_carries {node other} (keeps : Keeps node other) (t : Template) (f : Fields)
    (zero : f.length = 0) : Carries node (control other t f) (f.segment []) := by
  have carries := fill_carries t other f (by simp [zero]) (t.fill other f).tail
  rw [zero] at carries
  exact carries.of_keeps keeps

theorem getDataLen_ok {settings nParts}
    (divides : settings.isLenFixed = true ∨ nParts ≠ 0) (node : Node) :
    ∃ length, getDataLen settings node nParts = .ok length ∧ 40 ≤ length ∧ length ≤ maxSegSize := by
  have clamp (length : Int) : ∃ cut, (if length < 40 then 40
      else if length > maxSegSize then maxSegSize else length.toNat) = cut ∧ 40 ≤ cut ∧
        cut ≤ maxSegSize := by
    by_cases small : length < 40
    · exact ⟨40, by simp [small], by decide, by decide⟩
    · by_cases large : length > maxSegSize
      · exact ⟨maxSegSize, by simp [small, large], by decide, Nat.le_refl _⟩
      · exact ⟨length.toNat, by simp [small, large], by omega, by omega⟩
  by_cases fixed : settings.isLenFixed = true
  · obtain ⟨cut, isCut, bounds⟩ := clamp settings.lenCut
    refine ⟨cut, ?_, bounds⟩
    rw [← isCut]
    simp [getDataLen, fixed, pure, Except.pure, bind, Except.bind]
  · have parts := divides.resolve_left fixed
    obtain ⟨cut, isCut, bounds⟩ := clamp ((node.len : Int).tdiv nParts)
    refine ⟨cut, ?_, bounds⟩
    rw [← isCut]
    simp [getDataLen, fixed, parts, pure, Except.pure, bind, Except.bind]

theorem sundayLoop_ge {target lenT pat pos length}
    (found : sundayLoop target lenT pat pos = some length) : pat.length ≤ length := by
  fun_induction sundayLoop target lenT pat pos with
  | case1 pos inside equal =>
    cases found
    omega
  | case2 pos inside differs ih => exact ih found
  | case3 pos outside => cases found

theorem nextLength_ok {settings nParts}
    (divides : settings.isLenFixed = true ∨ nParts ≠ 0) (node : Node) (input : Input) :
    ∃ length, nextLength settings nParts node input = .ok length ∧ 0 < length ∧ length ≤ maxSegSize := by
  obtain ⟨cut, isCut, lower, upper⟩ := getDataLen_ok divides node
  have fallback : ∃ length, getDataLen settings node nParts = .ok length ∧ 0 < length ∧
      length ≤ maxSegSize := ⟨cut, isCut, by omega, upper⟩
  simp only [nextLength]
  split
  · exact fallback
  · split
    · rename_i length found
      split
      · exact fallback
      · have enough : 4 ≤ length := sundayLoop_ge found
        exact ⟨length, rfl, by omega, by omega⟩
    · exact fallback

theorem bytes_length (node : Node) (length : Nat) : (node.bytes length).length = length := by
  simp [Node.bytes]

theorem dataPacket_carries {node other} (keeps : Keeps node other)
    (offset : other.offset = node.offset) (t : Template) {length} (short : length ≤ maxSegSize) :
    Carries node (dataPacket other t length)
      ⟨true, false, false, true, other.seq, other.ackSeq, node.bytes length⟩ := by
  have same : other.bytes length = node.bytes length := by
    simp only [Node.bytes, keeps.totBuf, offset]
  have carries := (fill_carries t other (dataFields other length) short
    (dataPacket other t length).template.tail).of_keeps keeps
  have payload : ((List.range length).map fun index =>
      (dataPacket other t length).template.tail (calOptLen false + index)) = node.bytes length := by
    rw [← same]
    refine List.ext_getElem (by simp [bytes_length]) fun index small _ => ?_
    have inside : index < length := by simpa using small
    simp [dataPacket, Template.write, bytes_length, inside]
  change Carries node _ ⟨_, _, _, _, _, _, (List.range length).map fun index =>
      (dataPacket other t length).template.tail (calOptLen false + index)⟩ at carries
  rw [payload] at carries
  exact carries

section

variable {node : Node} {length : Nat} (established : node.state = .established)
  (inside : node.offset < node.len) (above : 0 < length) (short : length ≤ maxSegSize)
include established inside above short

theorem cut_spec :
    0 < (node.cut length).1 ∧ (node.cut length).1 ≤ maxSegSize ∧
      node.offset + (node.cut length).1 ≤ node.len ∧
      (node.cut length).2 = { node with
        state := if node.offset + (node.cut length).1 = node.len then .closing else .established } := by
  by_cases last : length ≥ node.len - node.offset
  · have isCut : node.cut length = (node.len - node.offset, { node with state := .closing }) := by
      simp [Node.cut, last]
    have ends : node.offset + (node.len - node.offset) = node.len := by omega
    rw [isCut]
    exact ⟨by omega, by omega, by omega, by simp [ends]⟩
  · have isCut : node.cut length = (length, node) := by simp [Node.cut, last]
    have more : node.offset + length ≠ node.len := by omega
    rw [isCut]
    refine ⟨above, short, by omega, ?_⟩
    simp only [more, if_false, ← established]

theorem sendDataPkt_carries (t : Template) :
    ∃ size middle after p q, sendDataPkt node t length = (middle, after, [p, q]) ∧
      0 < size ∧ size ≤ maxSegSize ∧ node.offset + size ≤ node.len ∧
      Carries node p ⟨true, false, false, true, node.seq, node.ackSeq, node.bytes size⟩ ∧
      Carries node q ⟨false, false, false, true, node.ackSeq, node.seq + UInt32.ofNat size, []⟩ ∧
      Keeps node middle ∧ middle.offset = node.offset + size ∧
      middle.seq = node.seq + UInt32.ofNat size ∧ middle.ackSeq = node.ackSeq ∧
      middle.state = if node.offset + size = node.len then .closing else .established := by
  obtain ⟨positive, bounded, fits, isNode⟩ := cut_spec established inside above short
  obtain ⟨size, isSize⟩ : ∃ size, size = (node.cut length).1 := ⟨_, rfl⟩
  rw [← isSize] at positive bounded fits isNode
  simp only [sendDataPkt, sendAck, sendControl, isNode, ← isSize]
  refine ⟨size, _, _, _, _, rfl, positive, bounded, fits, ?_, ?_, ⟨rfl, rfl, rfl, rfl, rfl, rfl⟩, rfl,
    rfl, rfl, rfl⟩
  · exact dataPacket_carries ⟨rfl, rfl, rfl, rfl, rfl, rfl⟩ rfl t bounded
  · exact control_carries ⟨rfl, rfl, rfl, rfl, rfl, rfl⟩ _ _ rfl

end

section Runs

variable {settings : Settings} {nParts : Int}

theorem run_append_ok {first second node middle after t middleT afterT sent more}
    (before : run settings nParts node t first = .ok (middle, middleT, sent))
    (later : run settings nParts middle middleT second = .ok (after, afterT, more)) :
    run settings nParts node t (first ++ second) = .ok (after, afterT, sent ++ more) := by
  induction first generalizing node t sent with
  | nil =>
    cases before
    simpa using later
  | cons input rest ih =>
    obtain ⟨⟨next, nextT, packets⟩, call, before⟩ := bind_ok before
    obtain ⟨⟨last, lastT, others⟩, rest, result⟩ := bind_ok before
    cases result
    have whole := ih rest
    simp only [List.cons_append, run, call, whole, bind, Except.bind, pure, Except.pure,
      List.append_assoc]

def Replays (settings : Settings) (nParts : Int) (inputs : Nat → Input) (calls : Nat) (node : Node)
    (t : Template) (after : Node) (afterT : Template) (segments : List Segment) : Prop :=
  ∃ packets, run settings nParts node t ((List.range calls).map inputs) = .ok (after, afterT, packets) ∧
    List.Forall₂ (Carries node) packets segments

theorem Replays.once {inputs node after t afterT packets segments}
    (call : sendPacket settings nParts (inputs 0) node t = .ok (after, afterT, packets))
    (carry : List.Forall₂ (Carries node) packets segments) :
    Replays settings nParts inputs 1 node t after afterT segments := by
  refine ⟨packets, ?_, carry⟩
  simp [run, call, bind, Except.bind, pure, Except.pure]

theorem Replays.append {inputs first second node middle after t middleT afterT segments more}
    (before : Replays settings nParts inputs first node t middle middleT segments)
    (keeps : Keeps node middle)
    (later : Replays settings nParts (fun call => inputs (first + call)) second middle middleT after
      afterT more) :
    Replays settings nParts inputs (first + second) node t after afterT (segments ++ more) := by
  obtain ⟨sent, firstRun, firstCarry⟩ := before
  obtain ⟨others, secondRun, secondCarry⟩ := later
  refine ⟨sent ++ others, ?_, List.rel_append firstCarry
    (secondCarry.imp fun _ _ carries => carries.of_keeps keeps)⟩
  rw [List.range_add, List.map_append, List.map_map]
  exact run_append_ok firstRun secondRun

theorem bytes_split (node : Node) (first second : Nat) :
    node.bytes (first + second) =
      node.bytes first ++ { node with offset := node.offset + first }.bytes second := by
  simp [Node.bytes, List.range_add, Function.comp_def, Nat.add_assoc]

theorem replays_data (divides : settings.isLenFixed = true ∨ nParts ≠ 0) (rest : Nat)
    (inputs : Nat → Input) {node} (t : Template) (established : node.state = .established)
    (inside : node.offset < node.len) (left : node.len - node.offset = rest) :
    ∃ calls after afterT pieces, calls ≤ rest ∧
      Replays settings nParts inputs calls node t after afterT (exchange node.seq node.ackSeq pieces) ∧
      Keeps node after ∧ after.state = .closing ∧
      after.seq = node.seq + UInt32.ofNat pieces.flatten.length ∧ after.ackSeq = node.ackSeq ∧
      pieces.flatten = node.bytes rest ∧
      ∀ piece ∈ pieces, 0 < piece.length ∧ piece.length ≤ maxSegSize := by
  induction rest using Nat.strong_induction_on generalizing inputs node t with
  | _ rest ih =>
    obtain ⟨length, isLength, above, short⟩ := nextLength_ok divides node (inputs 0)
    obtain ⟨size, middle, middleT, p, q, sent, positive, bounded, fits, data, acked, keeps, offset,
      seq, ackSeq, state⟩ := sendDataPkt_carries established inside above short t
    have call : sendPacket settings nParts (inputs 0) node t = .ok (middle, middleT, [p, q]) := by
      simp [sendPacket, established, isLength, sent, bind, Except.bind, pure, Except.pure]
    have first := Replays.once call (.cons data (.cons acked .nil))
    have size_length := bytes_length node size
    by_cases last : node.offset + size = node.len
    · have all : size = rest := by omega
      subst all
      refine ⟨1, middle, middleT, [node.bytes size], by omega, ?_, keeps, by simp [state, last], ?_,
        ackSeq, by simp, by simp [size_length, positive, bounded]⟩
      · simpa [exchange, size_length] using first
      · simpa [size_length] using seq
    · rw [if_neg last] at state
      have smaller : middle.len - middle.offset = rest - size := by
        rw [keeps.len, offset]
        omega
      obtain ⟨calls, after, afterT, pieces, few, later, keepsLater, closing, seqLater, ackLater,
        bytes, sizes⟩ := ih (rest - size) (by omega) (fun call => inputs (1 + call)) middleT state
          (by rw [keeps.len, offset]; omega) smaller
      refine ⟨1 + calls, after, afterT, node.bytes size :: pieces, by omega, ?_,
        keeps.trans keepsLater, closing, ?_, ackLater.trans ackSeq, ?_, ?_⟩
      · have whole := first.append keeps later
        rw [seq, ackSeq] at whole
        simpa [exchange, size_length] using whole
      · rw [seqLater, seq, List.flatten_cons, List.length_append, size_length, ofNat_add,
          UInt32.add_assoc]
      · have split : rest = size + (rest - size) := by omega
        rw [List.flatten_cons, bytes, split, bytes_split, Nat.add_sub_cancel_left]
        simp only [Node.bytes, keeps.totBuf, offset]
      · rintro piece (_ | ⟨_, member⟩)
        · exact ⟨by omega, by omega⟩
        · exact sizes piece member

-- The state of a node is known at each of the three calls, so that they evaluate.
theorem replays_handshake (inputs : Nat → Input) {node} (t : Template)
    (state : node.state = .closed) (start : node.offset = 0) :
    ∃ ackSeq after afterT, Replays settings nParts inputs 3 node t after afterT
        (handshake node.seq ackSeq) ∧
      Keeps node after ∧ after.state = .established ∧ after.offset = 0 ∧ after.seq = node.seq + 1 ∧
        after.ackSeq = ackSeq := by
  cases node
  subst state start
  refine ⟨_, _, _, ⟨_, rfl, .cons ?_ (.cons ?_ (.cons ?_ .nil))⟩, ⟨rfl, rfl, rfl, rfl, rfl, rfl⟩,
    rfl, rfl, rfl, rfl⟩
  all_goals exact control_carries ⟨rfl, rfl, rfl, rfl, rfl, rfl⟩ _ _ rfl

theorem replays_teardown (inputs : Nat → Input) {node} (t : Template) (state : node.state = .closing) :
    ∃ after afterT, Replays settings nParts inputs 3 node t after afterT
        (teardown node.seq node.ackSeq) ∧ after.state = .closed ∧ after.offset = 0 := by
  cases node
  subst state
  refine ⟨_, _, ⟨_, rfl, .cons ?_ (.cons ?_ (.cons ?_ .nil))⟩, rfl, rfl⟩
  all_goals exact control_carries ⟨rfl, rfl, rfl, rfl, rfl, rfl⟩ _ _ rfl

end Runs

/-- Whatever the clock and the random numbers are, the calls for a node with a stored stream send a
conversation that carries it, and leave the node closed. -/
theorem stream_replayed (settings : Settings) (nParts : Int)
    (divides : settings.isLenFixed = true ∨ nParts ≠ 0) (inputs : Nat → Input) (node : Node)
    (t : Template) (state : node.state = .closed) (start : node.offset = 0) (stored : 0 < node.len) :
    ∃ calls after afterT packets segments pieces, calls ≤ node.len + 6 ∧
      run settings nParts node t ((List.range calls).map inputs) = .ok (after, afterT, packets) ∧
      after.state = .closed ∧ List.Forall₂ (Carries node) packets segments ∧
      segments.map Segment.role = roles pieces ∧ Sequenced none none segments ∧
      pieces.flatten = (List.range node.len).map node.totBuf ∧
      ∀ piece ∈ pieces, 0 < piece.length ∧ piece.length ≤ maxSegSize := by
  obtain ⟨ackSeq, opened, openedT, greeting, keeps, established, offset, seq, isAck⟩ :=
    @replays_handshake settings nParts inputs node t state start
  obtain ⟨calls, done, doneT, pieces, few, data, keepsData, closing, seqData, ackData, bytes, sizes⟩ :=
    replays_data divides node.len (fun call => inputs (3 + call)) openedT established
      (by rw [offset, keeps.len]; exact stored) (by rw [offset, keeps.len]; rfl)
  obtain ⟨after, afterT, farewell, closed, _⟩ :=
    @replays_teardown settings nParts (fun call => inputs (3 + calls + call)) done doneT closing
  have upToData := greeting.append keeps data
  have whole := upToData.append (keeps.trans keepsData) farewell
  rw [seqData, ackData, seq, isAck] at whole
  obtain ⟨packets, packetsRun, carry⟩ := whole
  refine ⟨3 + calls + 3, after, afterT, packets, dialogue node.seq ackSeq pieces, pieces, by omega,
    packetsRun, closed, carry, dialogue_roles node.seq ackSeq pieces,
    dialogue_sequenced node.seq ackSeq pieces, ?_, sizes⟩
  rw [bytes]
  simp [Node.bytes, keeps.totBuf, offset]

def plainNode (len : Nat) : Node where
  totBuf _ := 65
  len := len
  offset := 0
  state := .closed
  id := 1
  rcvId := 0
  saddr := 0x0100000a
  daddr := 0x0200000a
  sport := 1024
  dport := 80
  seq := 10000000
  ackSeq := 20000000
  ts := 0
  tsPeer := 0

def plainTemplate : Template where
  ipId := 0
  totLen := 0
  saddr := 0
  daddr := 0
  ipCheck := 0
  source := 0
  dest := 0
  seq := 0
  ackSeq := 0
  doff := 5
  fin := false
  syn := false
  psh := true
  ack := true
  check := 0
  tail _ := 0

def plainInput : Input where
  pktTypeCnt := 0
  clock := 7
  prand := 9
  id := 1
  saddr := 0x0100000a
  daddr := 0x0200000a
  sport := 1024
  dport := 80
  seq := 5
  ackSeq := 6

theorem stream_replayed_hundred :
    ∃ calls after afterT packets, calls ≤ 106 ∧
      run ⟨100, false, 5⟩ 25 (plainNode 100) plainTemplate
        ((List.range calls).map fun _ => plainInput) = .ok (after, afterT, packets) := by
  obtain ⟨calls, after, afterT, packets, _, _, few, packetsRun, _⟩ :=
    stream_replayed ⟨100, false, 5⟩ 25 (.inr (by decide)) (fun _ => plainInput) (plainNode 100)
      plainTemplate rfl rfl (by decide)
  exact ⟨calls, after, afterT, packets, few, packetsRun⟩

theorem no_parts_fault :
    run ⟨100, false, 5⟩ 0 (plainNode 100) plainTemplate [plainInput, plainInput, plainInput,
      plainInput] = .error .divisionByZero := by
  rfl

end Mcc.StreamGen
