import Mcc.OnesComplement

/-!
The bytes of a received frame that `ProcessPacket` reads below the TCP state machine, and the lengths
it computes. The length that the driver reports is never compared with the header's lengths: the reads
stay inside the frame exactly when what the headers announce is there.
-/

namespace Mcc.FrameBounds

open OnesComplement Relation
open List (forall_mem_cons)

structure Frame where
  memory : Nat → UInt8
  length : Nat

inductive Access where
  | read (offset size : Nat)
  | length (value : Int)
  deriving DecidableEq

def Access.Within (length : Nat) : Access → Prop
  | .read offset size => offset + size ≤ length
  | .length value => 0 ≤ value ∧ value ≤ length

instance (length : Nat) : DecidablePred (Access.Within length)
  | .read offset size => inferInstanceAs (Decidable (offset + size ≤ length))
  | .length value => inferInstanceAs (Decidable (0 ≤ value ∧ value ≤ length))

structure Trace where
  accesses : List Access
  handled : Bool

open Trace

def Trace.dropped : Trace := ⟨[], false⟩

def Trace.after (accesses : List Access) (t : Trace) : Trace := ⟨accesses ++ t.accesses, t.handled⟩

namespace Frame

variable (f : Frame)

def byte (offset : Nat) : Nat := (f.memory offset).toNat

def bytes (offset size : Nat) : List UInt8 := (List.range size).map fun i => f.memory (offset + i)

def half (offset : Nat) : Nat := 256 * f.byte offset + f.byte (offset + 1)

def word (offset : Nat) : Nat :=
  f.byte offset + 256 * f.byte (offset + 1) + 65536 * f.byte (offset + 2) + 16777216 * f.byte (offset + 3)

def proto : Nat := f.half 12
def ihl : Nat := f.byte 14 % 16
def version : Nat := f.byte 14 / 16
def totLen : Nat := f.half 16
def protocol : Nat := f.byte 23
def daddr : Nat := f.word 30

def next : Nat := 14 + 4 * f.ihl

def doff : Nat := f.byte (f.next + 12) / 16
def syn : Bool := f.byte (f.next + 13) / 2 % 2 = 1
def rst : Bool := f.byte (f.next + 13) / 4 % 2 = 1
def icmpType : Nat := f.byte f.next

/-- `tcpopt`, and the options' length; the loops do nothing for a negative one. -/
def options : Nat := f.next + 20
def optionLen : Nat := 4 * f.doff - 20

/-- Of a header of less than five words only the first is loaded, and its lower half returned. -/
def ipFastCsum : Nat :=
  if f.ihl ≤ 4 then f.word 14 % 65536
  else
    let (sum, carry) := (List.range (f.ihl - 1)).foldl
      (fun (sum, carry) i =>
        let next := sum + f.word (18 + 4 * i) + carry
        (next % 2 ^ 32, next / 2 ^ 32))
      (f.word 14, 0)
    65535 - folded ((sum + carry) % 2 ^ 32) % 65536

def tcpCalcChecksum (len : Nat) : Nat :=
  let sum := machineSum (f.bytes f.next len) + pairSum (f.bytes 26 8) +
    (256 * (len % 256) + len / 256) + 256 * 6
  65535 - folded sum % 65536

/-- The upper half of `odd_byte` is not initialised. -/
def icmpChecksum (len : Nat) (upper : UInt8) : Nat :=
  let sum := machineSum (f.bytes f.next len) + if len % 2 = 1 then 256 * upper.toNat else 0
  65535 - folded sum % 65536

end Frame

/-- What the loop over the options does with an option it knows: how many bytes after the length it
reads, and the index after it, none where the function returns. -/
structure OptionReader where
  takes : Nat → Nat
  next : (opt optlen i : Nat) → Option Nat

open OptionReader

inductive Walk where
  | ends (found : Bool)
  | goesOn (i : Nat)
  deriving DecidableEq

namespace OptionReader

variable (r : OptionReader) (f : Frame)

def extent (i : Nat) : Nat :=
  if f.byte (f.options + i) < 2 then 1
  else if f.optionLen < i + f.byte (f.options + i + 1) then 2
  else 2 + r.takes (f.byte (f.options + i))

def step (i : Nat) : Walk :=
  let opt := f.byte (f.options + i)
  if opt = 0 then .ends false
  else if opt = 1 then .goesOn (i + 1)
  else
    let optlen := f.byte (f.options + i + 1)
    if f.optionLen < i + optlen then .ends false
    else (r.next opt optlen i).elim (.ends true) .goesOn

/-- An unknown option of length 0 keeps the loop where it is: `fuel` bounds the rounds. -/
def walk : (fuel i : Nat) → List Access × Option Bool
  | 0, _ => ([], none)
  | fuel + 1, i =>
    if f.optionLen ≤ i then ([], some false)
    else match r.step f i with
      | .ends found => ([.read (f.options + i) (r.extent f i)], some found)
      | .goesOn j =>
        let rest := walk fuel j
        (.read (f.options + i) (r.extent f i) :: rest.1, rest.2)

def Follows (i j : Nat) : Prop := i < f.optionLen ∧ r.step f i = .goesOn j

def Fits : Prop :=
  ∀ i, ReflTransGen (r.Follows f) 0 i → i < f.optionLen → f.options + i + r.extent f i ≤ f.length

end OptionReader

/-- The bytes are read whatever `optlen` says; only for other kinds does it move the index. -/
def parseTCPOptions : OptionReader where
  takes opt := if opt = 2 then 2 else if opt = 3 then 1 else if opt = 8 then 4 else 0
  next opt optlen i := some <| if opt = 2 then i + 4 else if opt = 3 then i + 3 else if opt = 4 then i + 2
    else if opt = 8 then i + 10 else i + optlen

def parseTCPTimestamp : OptionReader where
  takes opt := if opt = 8 then 8 else 0
  next opt optlen i := if opt = 8 then none else some (i + optlen)

/-- No stream takes an accepted segment, it opens one (the options are parsed if it is a SYN), or a
stream past the handshake has it, which saw a timestamp or not and receives the payload or not. -/
inductive StreamUse where
  | ignored
  | opens
  | known (sawTimestamp receives : Bool)

structure Setting where
  ipOffload : Bool
  tcpOffload : Bool
  addresses : List Nat
  upper : UInt8
  replies : Bool
  use : StreamUse
  fuel : Nat

open Setting

section
variable (s : Setting) (f : Frame)

def readPayload (receives : Bool) : List Access :=
  let payloadlen := f.totLen - 4 * (f.ihl + f.doff)
  if receives ∧ 0 < payloadlen then [.read (f.next + 4 * f.doff) payloadlen] else []

def readSegment : List Access :=
  let optionLen : Access := .length (4 * f.doff - 20)
  match s.use with
  | .ignored => []
  | .opens => if f.syn then optionLen :: (parseTCPOptions.walk f s.fuel 0).1 else []
  | .known sawTimestamp receives =>
    if sawTimestamp ∧ !f.rst then
      let (reads, found) := parseTCPTimestamp.walk f s.fuel 0
      optionLen :: reads ++ if found = some true then readPayload f receives else []
    else readPayload f receives

def processTCPPacket : Trace :=
  let len := f.totLen - 4 * f.ihl
  .after [.read 14 1, .read (f.next + 12) 1, .read (f.next + 4) 8, .read (f.next + 14) 2] <|
  if f.totLen < 4 * (f.ihl + f.doff) then .dropped
  else
    .after [.length f.totLen, .length (f.totLen - 4 * (f.ihl + f.doff))] <|
    .after (if s.tcpOffload then [] else [.read 26 8, .read f.next (len + len % 2)]) <|
    if !s.tcpOffload ∧ f.tcpCalcChecksum len ≠ 0 then .dropped
    else .after [.read 26 8, .read f.next 4, .read (f.next + 13) 1] ⟨readSegment s f, true⟩

/-- The length of the message is asserted not to be negative; that of the reply is cut to 16 bits. -/
def processICMPECHORequest : Trace :=
  let len : Int := f.totLen - 4 * f.ihl
  .after [.read 14 1, .length f.totLen, .length len] <|
  if len < 0 then .dropped
  else
    .after [.read f.next len.toNat] <|
    if f.icmpChecksum len.toNat s.upper ≠ 0 then .dropped
    else
      let reply := (len - 8) % 65536
      .after [.read 26 8, .read (f.next + 4) 4, .length reply]
        ⟨if s.replies ∧ 0 < reply then [.read (f.next + 8) reply.toNat] else [], true⟩

def processICMPPacket : Trace :=
  .after (s.addresses.map fun _ => .read 30 4) <|
  if f.daddr ∈ s.addresses then
    .after [.read f.next 1] <|
    if f.icmpType = 8 then processICMPECHORequest s f else .dropped
  else .dropped

/-- The destination is not compared: `PROMISCUOUS_MODE` is set. -/
def processIPv4Packet : Trace :=
  .after [.read 16 2] <|
  if f.totLen < 20 then .dropped
  else
    .after (if s.ipOffload then [] else [.read 14 (if f.ihl ≤ 4 then 4 else 4 * f.ihl)]) <|
    if !s.ipOffload ∧ f.ipFastCsum ≠ 0 then .dropped
    else
      .after [.read 14 1] <|
      if f.version ≠ 4 then .dropped
      else
        .after [.read 23 1] <|
        if f.protocol = 6 then processTCPPacket s f
        else if f.protocol = 1 then processICMPPacket s f
        else .dropped

/-- The type of the frame is read as Ethernet input, and ARP frames are not followed. -/
def processPacket : Trace :=
  if f.proto = 0x0800 then processIPv4Packet s f else .dropped

end

def Frame.Consistent (f : Frame) : Prop :=
  5 ≤ f.ihl ∧ 14 + f.totLen ≤ f.length ∧ (f.protocol = 6 → 5 ≤ f.doff ∧ 4 * (f.ihl + f.doff) ≤ f.totLen) ∧
    (f.protocol = 1 → 4 * f.ihl + 8 ≤ f.totLen)

def Trace.Sound (f : Frame) (t : Trace) : Prop :=
  (∀ a ∈ t.accesses, a.Within f.length) ∧ (¬f.Consistent → t.handled = false)

def Frame.ReadInBounds (f : Frame) : Prop := ∀ s, (processPacket s f).Sound f

def Frame.TCPFits (f : Frame) : Prop :=
  f.next + 16 ≤ f.length ∧ (4 * (f.ihl + f.doff) ≤ f.totLen →
    5 ≤ f.ihl ∧ 5 ≤ f.doff ∧ 14 + f.totLen + f.totLen % 2 ≤ f.length ∧
    (f.syn = true → parseTCPOptions.Fits f) ∧ (f.rst = false → parseTCPTimestamp.Fits f))

def Frame.ICMPFits (f : Frame) : Prop :=
  34 ≤ f.length ∧ f.next + 1 ≤ f.length ∧ (f.icmpType = 8 →
    4 * f.ihl ≤ f.totLen ∧ 14 + f.totLen ≤ f.length ∧
    ((∃ upper, f.icmpChecksum (f.totLen - 4 * f.ihl) upper = 0) → 5 ≤ f.ihl ∧ 4 * f.ihl + 8 ≤ f.totLen))

def Frame.IPv4Fits (f : Frame) : Prop :=
  18 ≤ f.length ∧ (20 ≤ f.totLen →
    (5 ≤ f.ihl → f.next ≤ f.length) ∧ (f.version = 4 →
      24 ≤ f.length ∧ (f.protocol = 6 → f.TCPFits) ∧ (f.protocol = 1 → f.ICMPFits)))

@[simp]
theorem sound_dropped (f : Frame) : dropped.Sound f := by
  simp [Sound, dropped]

@[simp]
theorem sound_after (f : Frame) (accesses : List Access) (t : Trace) :
    (t.after accesses).Sound f ↔ (∀ a ∈ accesses, a.Within f.length) ∧ t.Sound f := by
  simp only [Sound, after, List.forall_mem_append, and_assoc]

theorem sound_handled (f : Frame) (accesses : List Access) :
    (Trace.mk accesses true).Sound f ↔ (∀ a ∈ accesses, a.Within f.length) ∧ f.Consistent := by
  simp [Sound]

@[simp]
theorem read_within (length offset size : Nat) :
    (Access.read offset size).Within length ↔ offset + size ≤ length := Iff.rfl

@[simp]
theorem length_within (length : Nat) (value : Int) :
    (Access.length value).Within length ↔ 0 ≤ value ∧ value ≤ length := Iff.rfl

section
variable (r : OptionReader) (f : Frame)

theorem walk_follows {i j : Nat} (follows : r.Follows f i j)
    (within : ∀ fuel, ∀ a ∈ (r.walk f fuel i).1, a.Within f.length) (fuel : Nat) :
    ∀ a ∈ (r.walk f fuel j).1, a.Within f.length := by
  intro a member
  apply within (fuel + 1) a
  simp only [walk, Nat.not_le.mpr follows.1, ↓reduceIte, follows.2]
  exact List.mem_cons_of_mem _ member

theorem walk_reads {i : Nat} (inside : i < f.optionLen) :
    Access.read (f.options + i) (r.extent f i) ∈ (r.walk f 1 i).1 := by
  simp only [walk, Nat.not_le.mpr inside, ↓reduceIte]
  cases r.step f i <;> simp

theorem walk_within (i : Nat) :
    (∀ fuel, ∀ a ∈ (r.walk f fuel i).1, a.Within f.length) ↔
      ∀ j, ReflTransGen (r.Follows f) i j → j < f.optionLen →
        f.options + j + r.extent f j ≤ f.length := by
  constructor
  · intro within j reached inside
    induction reached using ReflTransGen.head_induction_on with
    | refl => exact within 1 _ (walk_reads r f inside)
    | head follows _ ih => exact ih (walk_follows r f follows within)
  · intro fits fuel
    induction fuel generalizing i with
    | zero => simp [walk]
    | succ fuel ih =>
      by_cases past : f.optionLen ≤ i
      · simp [walk, past]
      have here := fits i .refl (Nat.lt_of_not_le past)
      cases next : r.step f i with
      | ends found => simpa [walk, past, next] using here
      | goesOn j =>
        have follows : r.Follows f i j := ⟨Nat.lt_of_not_le past, next⟩
        have rest := ih j fun k reached => fits k (reached.head follows)
        simp only [walk, past, next, ↓reduceIte, forall_mem_cons]
        exact ⟨here, rest⟩

end

theorem totLen_lt (f : Frame) : f.totLen < 65536 := by
  have first := (f.memory 16).toNat_lt
  have second := (f.memory (16 + 1)).toNat_lt
  simp only [Frame.totLen, Frame.half, Frame.byte]
  omega

section
variable (f : Frame)

theorem processTCPPacket_long (s : Setting) (long : 4 * (f.ihl + f.doff) ≤ f.totLen) :
    (processTCPPacket s f).Sound f ↔ f.next + 16 ≤ f.length ∧ f.totLen ≤ f.length ∧
      (s.tcpOffload = false → 34 ≤ f.length ∧ 14 + f.totLen + f.totLen % 2 ≤ f.length) ∧
      (s.tcpOffload = true ∨ f.tcpCalcChecksum (f.totLen - 4 * f.ihl) = 0 →
        34 ≤ f.length ∧ (∀ a ∈ readSegment s f, a.Within f.length) ∧ f.Consistent) := by
  have start : f.next = 14 + 4 * f.ihl := rfl
  have nonnegative : (0 : Int) ≤ f.totLen - 4 * (f.ihl + f.doff) := by omega
  simp only [processTCPPacket, Nat.not_lt.mpr long, ↓reduceIte, sound_after, forall_mem_cons,
    read_within, length_within, nonnegative, true_and]
  cases s.tcpOffload with
  | true =>
    simp only [↓reduceIte, Bool.not_true, Bool.false_eq_true, false_and, sound_after,
      sound_handled, forall_mem_cons, read_within]
    constructor
    · rintro ⟨header, lengths, -, fields, taken⟩
      exact ⟨by omega, by omega, nofun, fun _ => ⟨fields.1, taken⟩⟩
    · rintro ⟨header, total, -, rest⟩
      obtain ⟨fields, taken⟩ := rest (.inl trivial)
      exact ⟨⟨by omega, by omega, by omega, by omega, nofun⟩, ⟨by omega, by omega, nofun⟩, nofun,
        ⟨fields, by omega, by omega, nofun⟩, taken⟩
  | false =>
    by_cases right : f.tcpCalcChecksum (f.totLen - 4 * f.ihl) = 0
    · simp only [right, Bool.not_false, true_and, Bool.false_eq_true, ne_eq, not_true_eq_false,
        ↓reduceIte, sound_after, sound_handled, forall_mem_cons, read_within]
      constructor
      · rintro ⟨header, lengths, sums, fields, taken⟩
        exact ⟨by omega, by omega, fun _ => by omega, fun _ => ⟨fields.1, taken⟩⟩
      · rintro ⟨header, total, summed, rest⟩
        obtain ⟨fields, taken⟩ := rest (.inr trivial)
        have sums := (summed trivial).2
        exact ⟨⟨by omega, by omega, by omega, by omega, nofun⟩, ⟨by omega, by omega, nofun⟩,
          ⟨fields, by omega, nofun⟩, ⟨fields, by omega, by omega, nofun⟩, taken⟩
    · simp only [right, Bool.not_false, true_and, Bool.false_eq_true, ne_eq, not_false_eq_true,
        ↓reduceIte, sound_dropped, forall_mem_cons, read_within]
      constructor
      · rintro ⟨header, lengths, sums, -⟩
        exact ⟨by omega, by omega, fun _ => by omega, by simp⟩
      · rintro ⟨header, total, summed, -⟩
        have sums := summed trivial
        exact ⟨⟨by omega, by omega, by omega, by omega, nofun⟩, ⟨by omega, by omega, nofun⟩,
          ⟨sums.1, by omega, nofun⟩, trivial⟩

theorem readPayload_within (ends : 14 + f.totLen ≤ f.length)
    (long : 4 * (f.ihl + f.doff) ≤ f.totLen) (receives : Bool) :
    ∀ a ∈ readPayload f receives, a.Within f.length := by
  intro a member
  simp only [readPayload] at member
  split at member
  · rw [List.mem_singleton.mp member, read_within, Frame.next]
    omega
  · simp at member

theorem readSegment_within (s : Setting) (f : Frame) (full : 5 ≤ f.doff)
    (ends : 14 + f.totLen ≤ f.length) (long : 4 * (f.ihl + f.doff) ≤ f.totLen)
    (opening : f.syn = true → parseTCPOptions.Fits f)
    (stamped : f.rst = false → parseTCPTimestamp.Fits f) : ∀ a ∈ readSegment s f, a.Within f.length := by
  have optionLen : (Access.length (4 * f.doff - 20)).Within f.length := by
    rw [length_within]
    omega
  have payload := readPayload_within f ends long
  unfold readSegment
  cases s.use with
  | ignored => simp
  | opens =>
    by_cases isSyn : f.syn = true
    · have walked := (walk_within parseTCPOptions f 0).mpr (opening isSyn) s.fuel
      simp only [isSyn, ↓reduceIte, forall_mem_cons]
      exact ⟨optionLen, walked⟩
    · simp [isSyn]
  | known sawTimestamp receives =>
    simp only
    split
    next parsed =>
      have walked := (walk_within parseTCPTimestamp f 0).mpr (stamped (by simpa using parsed.2)) s.fuel
      simp only [List.cons_append, forall_mem_cons, List.forall_mem_append]
      refine ⟨optionLen, walked, ?_⟩
      split
      · exact payload receives
      · simp
    next => exact payload receives

def Setting.offloaded (use : StreamUse) (fuel : Nat) : Setting :=
  ⟨true, true, [], 0, false, use, fuel⟩

theorem processTCPPacket_sound (tcp : f.protocol = 6) :
    (∀ s, (processTCPPacket s f).Sound f) ↔ f.TCPFits := by
  constructor
  · intro sound
    refine ⟨?_, fun long => ?_⟩
    · have header := sound (.offloaded .ignored 0)
      simp only [processTCPPacket, sound_after, forall_mem_cons, read_within] at header
      omega
    have taken (use fuel) := ((processTCPPacket_long f _ long).mp (sound (.offloaded use fuel))).2.2.2
      (.inl rfl)
    have summed := ((processTCPPacket_long f _ long).mp
      (sound { offloaded .ignored 0 with tcpOffload := false })).2.2.1 rfl
    obtain ⟨words, -, segment, -⟩ := (taken .ignored 0).2.2
    refine ⟨words, (segment tcp).1, summed.2, fun isSyn => ?_, fun noRst => ?_⟩
    · apply (walk_within parseTCPOptions f 0).mp
      intro fuel
      have reads := (taken .opens fuel).2.1
      simp only [readSegment, offloaded, isSyn, ↓reduceIte, forall_mem_cons] at reads
      exact reads.2
    · apply (walk_within parseTCPTimestamp f 0).mp
      intro fuel
      have reads := (taken (.known true false) fuel).2.1
      simp only [readSegment, offloaded, noRst, Bool.not_false, and_self, ↓reduceIte,
        List.cons_append, forall_mem_cons, List.forall_mem_append] at reads
      exact reads.2.1
  · rintro ⟨header, fits⟩ s
    have start : f.next = 14 + 4 * f.ihl := rfl
    by_cases long : 4 * (f.ihl + f.doff) ≤ f.totLen
    · obtain ⟨words, full, ends, opening, stamped⟩ := fits long
      have inside : 14 + f.totLen ≤ f.length := by omega
      refine (processTCPPacket_long f s long).mpr ⟨header, by omega, fun _ => ⟨by omega, ends⟩,
        fun _ => ⟨by omega, readSegment_within s f full inside long opening stamped, ?_⟩⟩
      exact ⟨words, inside, fun _ => ⟨full, long⟩, fun icmp => by omega⟩
    · simp only [processTCPPacket, Nat.lt_of_not_le long, ↓reduceIte, sound_after, sound_dropped,
        forall_mem_cons, read_within]
      exact ⟨⟨by omega, by omega, by omega, by omega, nofun⟩, trivial⟩

theorem processICMPECHORequest_sound (s : Setting) (icmp : f.protocol = 1) (low : 34 ≤ f.length) :
    (processICMPECHORequest s f).Sound f ↔ 4 * f.ihl ≤ f.totLen ∧ 14 + f.totLen ≤ f.length ∧
      (f.icmpChecksum (f.totLen - 4 * f.ihl) s.upper = 0 → 5 ≤ f.ihl ∧ 4 * f.ihl + 8 ≤ f.totLen) := by
  have start : f.next = 14 + 4 * f.ihl := rfl
  have small := totLen_lt f
  by_cases short : f.totLen < 4 * f.ihl
  · simp only [processICMPECHORequest, sound_after, forall_mem_cons, length_within]
    constructor
    · rintro ⟨⟨-, -, ⟨nonnegative, -⟩, -⟩, -⟩
      omega
    · rintro ⟨enough, -⟩
      omega
  obtain ⟨len, isLen⟩ : ∃ len, len = f.totLen - 4 * f.ihl := ⟨_, rfl⟩
  have cast : ((f.totLen : Int) - 4 * f.ihl) = len := by omega
  simp only [processICMPECHORequest, cast, ← isLen, Int.toNat_natCast,
    Int.not_lt.mpr (Int.natCast_nonneg len), ↓reduceIte, sound_after, forall_mem_cons, read_within,
    length_within]
  by_cases right : f.icmpChecksum len s.upper = 0
  · simp only [right, ne_eq, not_true_eq_false, ↓reduceIte, sound_after, sound_handled,
      forall_mem_cons, read_within, length_within, true_implies]
    constructor
    · rintro ⟨-, -, -, -, words, ends, -, message⟩
      exact ⟨by omega, ends, words, message icmp⟩
    · rintro ⟨enough, ends, words, message⟩
      have reply : ((len : Int) - 8) % 65536 = len - 8 := Int.emod_eq_of_lt (by omega) (by omega)
      have data : ((len : Int) - 8).toNat = len - 8 := by omega
      refine ⟨⟨by omega, by omega, by omega, nofun⟩, ⟨by omega, nofun⟩,
        ⟨by omega, by omega, by omega, nofun⟩, ?_, words, ends, fun tcp => by omega, fun _ => message⟩
      rw [reply, data]
      intro a member
      split at member
      · rw [List.mem_singleton.mp member, read_within]
        omega
      · simp at member
  · simp only [right, ne_eq, not_false_eq_true, ↓reduceIte, sound_dropped, and_true, false_implies]
    constructor
    · rintro ⟨-, message, -⟩
      omega
    · rintro ⟨enough, ends⟩
      exact ⟨⟨by omega, by omega, by omega, nofun⟩, by omega, nofun⟩

theorem processICMPPacket_sound (icmp : f.protocol = 1) :
    (∀ s, (processICMPPacket s f).Sound f) ↔ f.ICMPFits := by
  constructor
  · intro sound
    have toMe (upper) := sound { offloaded .ignored 0 with addresses := [f.daddr], upper }
    simp only [processICMPPacket, List.map_cons, List.map_nil, List.mem_singleton, ↓reduceIte,
      sound_after] at toMe
    have low : 34 ≤ f.length := (toMe 0).1 _ rfl
    refine ⟨low, (toMe 0).2.1 _ rfl, fun echo => ?_⟩
    have answered (upper) := (toMe upper).2.2
    simp only [echo, ↓reduceIte] at answered
    have request (upper) := (processICMPECHORequest_sound f _ icmp low).mp (answered upper)
    exact ⟨(request 0).1, (request 0).2.1, fun ⟨upper, right⟩ => (request upper).2.2 right⟩
  · rintro ⟨low, header, fits⟩ s
    simp only [processICMPPacket, sound_after]
    refine ⟨fun a member => ?_, ?_⟩
    · obtain ⟨-, -, rfl⟩ := List.mem_map.mp member
      exact low
    split
    next =>
      refine (sound_after _ _ _).mpr ⟨by simpa using header, ?_⟩
      split
      next echo =>
        obtain ⟨enough, ends, message⟩ := fits echo
        exact (processICMPECHORequest_sound f s icmp low).mpr
          ⟨enough, ends, fun right => message ⟨s.upper, right⟩⟩
      next => exact sound_dropped f
    next => exact sound_dropped f

theorem processIPv4Packet_offloaded (s : Setting) (long : 20 ≤ f.totLen) (isFour : f.version = 4)
    (sound : (processIPv4Packet { s with ipOffload := true } f).Sound f) :
    24 ≤ f.length ∧ (f.protocol = 6 → (processTCPPacket s f).Sound f) ∧
      (f.protocol = 1 → (processICMPPacket s f).Sound f) := by
  simp only [processIPv4Packet, Nat.not_lt.mpr long, isFour, ↓reduceIte, Bool.not_true,
    Bool.false_eq_true, false_and, ne_eq, not_true_eq_false, sound_after, forall_mem_cons,
    read_within] at sound
  obtain ⟨-, -, -, ⟨protocol, -⟩, rest⟩ := sound
  refine ⟨protocol, fun tcp => ?_, fun icmp => ?_⟩
  -- neither protocol looks at the offload of the IP checksum
  · rw [if_pos tcp] at rest
    exact rest
  · rw [if_neg (by omega), if_pos icmp] at rest
    exact rest

theorem processIPv4Packet_sound : (∀ s, (processIPv4Packet s f).Sound f) ↔ f.IPv4Fits := by
  have start : f.next = 14 + 4 * f.ihl := rfl
  constructor
  · intro sound
    have first (s) := (sound_after _ _ _).mp (sound s)
    have total : 18 ≤ f.length := by simpa using (first (.offloaded .ignored 0)).1
    refine ⟨total, fun long => ⟨fun words => ?_, fun isFour => ?_⟩⟩
    · have summed := (first { offloaded .ignored 0 with ipOffload := false }).2
      have many : ¬f.ihl ≤ 4 := by omega
      simp only [Nat.not_lt.mpr long, many, ↓reduceIte, Bool.false_eq_true, sound_after,
        forall_mem_cons, read_within] at summed
      omega
    have passed (s) := processIPv4Packet_offloaded f s long isFour (sound _)
    exact ⟨(passed (.offloaded .ignored 0)).1,
      fun tcp => (processTCPPacket_sound f tcp).mp fun s => (passed s).2.1 tcp,
      fun icmp => (processICMPPacket_sound f icmp).mp fun s => (passed s).2.2 icmp⟩
  · rintro ⟨total, fits⟩ s
    refine (sound_after _ _ _).mpr ⟨by simpa using total, ?_⟩
    by_cases short : f.totLen < 20
    · simp only [short, ↓reduceIte, sound_dropped]
    obtain ⟨words, fits⟩ := fits (Nat.not_lt.mp short)
    simp only [short, ↓reduceIte]
    refine (sound_after _ _ _).mpr ⟨?_, ?_⟩
    · cases s.ipOffload with
      | true => simp
      | false =>
        simp only [Bool.false_eq_true, ↓reduceIte, List.forall_mem_singleton, read_within]
        split <;> omega
    split
    next => exact sound_dropped f
    next =>
      refine (sound_after _ _ _).mpr ⟨by simp; omega, ?_⟩
      by_cases isFour : f.version = 4
      · obtain ⟨protocol, tcpFits, icmpFits⟩ := fits isFour
        simp only [isFour, ne_eq, not_true_eq_false, ↓reduceIte]
        refine (sound_after _ _ _).mpr ⟨by simpa using protocol, ?_⟩
        split
        next tcp => exact (processTCPPacket_sound f tcp).mpr (tcpFits tcp) s
        next =>
          split
          next icmp => exact (processICMPPacket_sound f icmp).mpr (icmpFits icmp) s
          next => exact sound_dropped f
      · simp only [ne_eq, isFour, not_false_eq_true, ↓reduceIte, sound_dropped]

/-- A frame is read inside its bounds exactly when it is no IPv4 frame or has room for what its
headers announce. -/
theorem readInBounds_iff (f : Frame) : f.ReadInBounds ↔ (f.proto = 0x0800 → f.IPv4Fits) := by
  unfold Frame.ReadInBounds processPacket
  by_cases isIPv4 : f.proto = 0x0800
  · simpa only [isIPv4, ↓reduceIte, true_implies] using processIPv4Packet_sound f
  · simp [isIPv4]

end

def shortFrame : Frame where
  memory i := [0, 0, 0, 0, 0, 1, 0, 0, 0, 0, 0, 2, 0x08, 0x00,
    0x45, 0, 0, 60, 0, 0, 0, 0, 64, 6, 0x66, 0xba, 10, 0, 0, 1, 10, 0, 0, 2,
    0x04, 0x01, 0, 80, 0, 0, 0, 1, 0, 0, 0, 1, 0x50, 0x10, 0x10, 0, 0, 0, 0, 0].getD i 0
  length := 54

theorem shortFrame_read_outside : shortFrame.ipFastCsum = 0 ∧
    Access.read 34 40 ∈ (processPacket ⟨false, false, [], 0, false, .ignored, 0⟩ shortFrame).accesses ∧
    Access.read 54 20 ∈
      (processPacket ⟨true, true, [], 0, false, .known false true, 0⟩ shortFrame).accesses ∧
    ¬shortFrame.Consistent ∧ ¬shortFrame.ReadInBounds := by
  refine ⟨by decide +kernel, by decide +kernel, by decide +kernel, ?_, ?_⟩
  · rintro ⟨-, ends, -⟩
    exact absurd ends (by decide +kernel)
  · intro inside
    have within := (inside ⟨true, true, [], 0, false, .known false true, 0⟩).1 (.read 54 20)
      (by decide +kernel)
    exact absurd within (by decide +kernel)

end Mcc.FrameBounds
