import Mcc.OptionWalk
import Mcc.StreamGenerator
import Mcc.TcpInput

/-!
The options as bytes: what `GenerateTCPOptions` writes is what `ParseTCPOptions` and
`ParseTCPTimestamp` read at the other end.
-/

namespace Mcc.OptionBytes

open StreamGen FrameBounds

def generateTCPTimestamp (s : TcpStream) (curTs : UInt32) : List UInt8 :=
  [8, 10] ++ be32 curTs ++ be32 s.rcv.tsRecent

def generateTCPOptions (s : TcpStream) (curTs : UInt32) (flags : Flags) (optlen : Nat) :
    Except Fault (List UInt8) :=
  let mss : List UInt8 := [2, 4, (s.ctl.mss >>> 8).toUInt8, (s.ctl.mss % 256).toUInt8]
  let tcpopt :=
    if flags.syn then
      mss ++ [1, 1] ++ generateTCPTimestamp s curTs ++ [1, 3, 3, s.ctl.wscaleMine]
    else [1, 1] ++ generateTCPTimestamp s curTs
  if tcpopt.length = optlen then .ok tcpopt else .error .assertion

variable (tcpopt : Nat → UInt8) (len : Int)

def wordAt (i : Nat) : UInt32 :=
  UInt32.ofNat ((tcpopt i).toNat * 2 ^ 24 + (tcpopt (i + 1)).toNat * 2 ^ 16 +
    (tcpopt (i + 2)).toNat * 2 ^ 8 + (tcpopt (i + 3)).toNat)

def takeOption (curTs : UInt32) (i : Nat) (s : TcpStream) : TcpStream :=
  if tcpopt i = 2 then
    let mss := ((tcpopt (i + 2)).toUInt16 <<< 8) + (tcpopt (i + 3)).toUInt16
    { s with ctl := { s.ctl with mss, effMss := mss - 12 } }
  else if tcpopt i = 3 then { s with ctl := { s.ctl with wscalePeer := tcpopt (i + 2) } }
  else if tcpopt i = 8 then { s with rcv := { s.rcv with
    sawTimestamp := true, tsRecent := wordAt tcpopt (i + 2), tsLastTsUpd := curTs } }
  else s

/-- The loop of `ParseTCPOptions`, with what it stores; none while the rounds do not suffice. -/
def parseTCPOptions (curTs : UInt32) : (fuel i : Nat) → TcpStream → Option TcpStream
  | 0, _, _ => none
  | fuel + 1, i, s =>
    if len ≤ i then some s
    else match FrameBounds.parseTCPOptions.stepAt tcpopt len i with
      | .ends _ => some s
      | .goesOn j => parseTCPOptions curTs fuel j (takeOption tcpopt curTs i s)

def parseTCPTimestamp : (fuel i : Nat) → Option (Option (UInt32 × UInt32))
  | 0, _ => none
  | fuel + 1, i =>
    if len ≤ i then some none
    else match FrameBounds.parseTCPTimestamp.stepAt tcpopt len i with
      | .ends true => some (some (wordAt tcpopt (i + 2), wordAt tcpopt (i + 6)))
      | .ends false => some none
      | .goesOn j => parseTCPTimestamp fuel j

theorem be32_word (value : UInt32) : UInt32.ofNat (((value >>> 24).toUInt8).toNat * 2 ^ 24 +
    ((value >>> 16).toUInt8).toNat * 2 ^ 16 + ((value >>> 8).toUInt8).toNat * 2 ^ 8 +
    (value.toUInt8).toNat) = value := by
  have bound := value.toNat_lt
  apply UInt32.toNat_inj.mp
  simp [Nat.shiftRight_eq_div_pow]
  omega

theorem be16_half (value : UInt16) :
    ((value >>> 8).toUInt8.toUInt16 <<< 8) + (value % 256).toUInt8.toUInt16 = value := by
  have bound := value.toNat_lt
  apply UInt16.toNat_inj.mp
  simp [Nat.shiftRight_eq_div_pow, Nat.shiftLeft_eq]
  omega

theorem options_round_trip (s t : TcpStream) (curTs now : UInt32) (flags : Flags) (fuel : Nat) :
    ∃ tcpopt, generateTCPOptions s curTs flags (calculateOptionLength flags) = .ok tcpopt ∧
      tcpopt.length = calculateOptionLength flags ∧ calculateOptionLength flags % 4 = 0 ∧
      if flags.syn then
        parseTCPOptions (tcpopt.getD · 0) tcpopt.length now (fuel + 7) 0 t = some { t with
          ctl := { t.ctl with
            mss := s.ctl.mss, effMss := s.ctl.mss - 12, wscalePeer := s.ctl.wscaleMine }
          rcv := { t.rcv with sawTimestamp := true, tsRecent := curTs, tsLastTsUpd := now } }
      else parseTCPTimestamp (tcpopt.getD · 0) tcpopt.length (fuel + 3) 0 =
        some (some (curTs, s.rcv.tsRecent)) := by
  unfold generateTCPOptions calculateOptionLength
  cases flags.syn with
  | true =>
    refine ⟨_, if_pos rfl, rfl, rfl, ?_⟩
    rw [if_pos rfl]
    conv_rhs => rw [← be16_half s.ctl.mss, ← be32_word curTs]
    rfl
  | false =>
    refine ⟨_, if_pos rfl, rfl, rfl, ?_⟩
    rw [if_neg Bool.false_ne_true]
    conv_rhs => rw [← be32_word curTs, ← be32_word s.rcv.tsRecent]
    rfl

end Mcc.OptionBytes
