import Mcc.OnesComplement
import Mcc.StreamReplay

/-!
Whether the receiver accepts the packets of the stream generator. The checksum of the IP header is
always right. That of the TCP segment is computed over 32 bits, without the carries out of them, and
in a data packet over the bytes that the template held before the payload was copied.
-/

namespace Mcc.StreamGen

open Mcc.OnesComplement
open UInt32 (reduceToNat toNat_add toNat_shiftRight)

theorem addWords_toNat (buf : List UInt8) (sum : UInt32) :
    (addWords buf sum).toNat = (sum.toNat + pairSum buf) % 2 ^ 32 := by
  fun_induction addWords buf sum with
  | case1 first second rest sum ih =>
    rw [ih, pairSum, toNat_add, toNat_add, UInt32.toNat_mul]
    simp only [UInt8.toNat_toUInt32, reduceToNat]
    omega
  | case2 buf sum short =>
    have small := sum.toNat_lt
    have zero : pairSum buf = 0 := by
      unfold pairSum
      split
      · rename_i first second rest
        exact absurd rfl (short first second rest)
      · rfl
    rw [zero]
    omega

def codeSum (base : Nat) (data : List UInt8) : Nat :=
  (folded ((base + pairSum data) % 2 ^ 32) + lastByte data) % 65536

theorem foldOnce_toNat (sum : UInt32) :
    ((sum >>> 16) + (sum &&& 0xffff)).toNat = sum.toNat / 65536 + sum.toNat % 65536 := by
  have small := sum.toNat_lt
  have low : sum.toNat &&& 65535 = sum.toNat % 65536 := Nat.and_two_pow_sub_one_eq_mod sum.toNat 16
  rw [toNat_add, toNat_shiftRight, UInt32.toNat_and]
  simp only [reduceToNat, Nat.reduceMod, low, Nat.shiftRight_eq_div_pow]
  omega

theorem complement_toNat (sum : UInt32) : (~~~ sum).toUInt16.toNat = 65535 - sum.toNat % 65536 := by
  have small := sum.toNat_lt
  rw [UInt32.toNat_toUInt16, UInt32.toNat_not]
  simp only [UInt32.size]
  omega

theorem foldTwice_toNat {sum once : UInt32} (isOnce : once = (sum >>> 16) + (sum &&& 0xffff)) :
    (once + (once >>> 16)).toNat = folded sum.toNat ∧ folded sum.toNat < 3 * 65536 := by
  have small := sum.toNat_lt
  have value := foldOnce_toNat sum
  rw [← isOnce] at value
  rw [toNat_add, toNat_shiftRight]
  simp only [reduceToNat, Nat.reduceMod, Nat.shiftRight_eq_div_pow, folded, ← value]
  omega

theorem checksum_toNat (buf : List UInt8) (sum : UInt32) :
    (checksum buf sum).toNat = 65535 - codeSum sum.toNat buf := by
  have words := addWords_toNat buf sum
  obtain ⟨first, isFirst⟩ : ∃ first, first = (addWords buf sum >>> 16) + (addWords buf sum &&& 0xffff) :=
    ⟨_, rfl⟩
  obtain ⟨twice, bound⟩ := foldTwice_toNat isFirst
  simp only [checksum, ← isFirst, complement_toNat, codeSum, ← words, ← twice]
  by_cases odd : buf.length % 2 = 1
  · have last := lastByte_odd odd
    rw [if_pos odd, toNat_add, last]
    simp only [UInt8.toNat_toUInt32]
    omega
  · have last := @lastByte_even buf (by omega)
    rw [if_neg odd, last, Nat.add_zero]

theorem pairSum_le (bytes : List UInt8) : 2 * pairSum bytes ≤ 65535 * bytes.length := by
  induction bytes using sum.induct with
  | case1 first second rest ih =>
    have := first.toNat_lt
    have := second.toNat_lt
    simp only [pairSum, List.length_cons]
    omega
  | case2 last => exact Nat.zero_le _
  | case3 => exact Nat.le_refl 0

theorem pairSum_le16 (value : UInt16) : pairSum (le16 value) = value.toNat := by
  have := value.toNat_lt
  simp only [le16, pairSum, UInt16.toNat_toUInt8, UInt16.toNat_shiftRight, UInt16.reduceToNat,
    Nat.reduceMod, Nat.shiftRight_eq_div_pow, Nat.reducePow]
  omega

theorem pairSum_be16 (value : UInt16) : pairSum (be16 value) = (htons value).toNat := by
  have := value.toNat_lt
  simp only [be16, htons, pairSum, UInt16.toNat_toUInt8, UInt16.toNat_shiftRight, UInt16.reduceToNat,
    Nat.reduceMod, Nat.shiftRight_eq_div_pow, Nat.reducePow, UInt16.toNat_ofNat']
  have high : value.toNat / 256 < 256 := by omega
  have swapped : value.toNat / 256 + 256 * (value.toNat % 256) < 65536 := by omega
  rw [Nat.mod_eq_of_lt high, Nat.mod_eq_of_lt swapped]
  omega

theorem pairSum_le32 (value : UInt32) :
    pairSum (le32 value) = value.toNat % 65536 + value.toNat / 65536 := by
  have := value.toNat_lt
  simp only [le32, pairSum, UInt32.toNat_toUInt8, toNat_shiftRight, reduceToNat,
    Nat.reduceMod, Nat.shiftRight_eq_div_pow, Nat.reducePow, Nat.add_zero]
  omega

theorem pairSum_pseudo (saddr daddr : UInt32) (len : UInt16) :
    pairSum (le32 saddr ++ le32 daddr ++ [0, 6] ++ be16 len) =
      (saddr.toNat % 65536 + saddr.toNat / 65536) + (daddr.toNat % 65536 + daddr.toNat / 65536) +
        (htons len).toNat + (htons 6).toNat := by
  have protocol : pairSum [0, 6] = (htons 6).toNat := rfl
  rw [List.append_assoc, List.append_assoc, pairSum_append (by simp [le32]),
    pairSum_append (by simp [le32]), pairSum_append (by simp), pairSum_le32, pairSum_le32, protocol,
    pairSum_be16]
  omega

theorem complement_mod {total code} (small : code ≤ 65535) :
    (total + (65535 - code)) % 65535 = 0 ↔ code % 65535 = total % 65535 := by
  omega

theorem codeSum_mod (base : Nat) (data : List UInt8) :
    codeSum (base % 2 ^ 32) data = codeSum base data := by
  simp only [codeSum, Nat.mod_add_mod]

theorem codeSum_append (base : Nat) {first} (even : first.length % 2 = 0)
    (second : List UInt8) : codeSum base (first ++ second) = codeSum (base + pairSum first) second := by
  simp only [codeSum, pairSum_append even, lastByte_append even, Nat.add_assoc]

theorem codeSum_le (base : Nat) (data : List UInt8) : codeSum base data ≤ 65535 := by
  simp only [codeSum]
  omega

theorem codeSum_even {data} (even : data.length % 2 = 0) (base : Nat) :
    codeSum base data % 65535 = (base + pairSum data) % 2 ^ 32 % 65535 := by
  rw [codeSum, lastByte_even even, Nat.add_zero]
  exact folded_mod _ (Nat.mod_lt _ (by decide))

theorem codeSum_nil (base : Nat) : codeSum base [] % 65535 = base % 2 ^ 32 % 65535 := by
  rw [codeSum_even (by rfl), pairSum, Nat.add_zero]
  simp

theorem machineSum_nil : machineSum [] = 0 := rfl

/-- The carries that `checksum` drops: those out of the 32 bits in which it adds the words, and the
one of a last byte that it adds to what it has folded them to. -/
def lostCarries (words last : Nat) : Nat :=
  words / 2 ^ 32 +
    if words % 2 ^ 32 ≠ 0 ∧ 65535 ≤ (words % 2 ^ 32 - 1) % 65535 + last then 1 else 0

theorem codeSum_lost (base : Nat) (data : List UInt8) :
    (codeSum base data + lostCarries (base + pairSum data) (lastByte data)) % 65535 =
      (base + machineSum data) % 65535 := by
  have last := lastByte_lt data
  have small : (base + pairSum data) % 2 ^ 32 < 2 ^ 32 := Nat.mod_lt _ (by decide)
  rw [codeSum, lostCarries, machineSum, ← Nat.mod_add_mod (folded _) 65536, folded_eq small]
  split <;> split <;> omega

section

variable (t : Template)

theorem ipBytes_length : t.ipBytes.length = 20 := rfl

theorem ipBytes_check : pairSum t.ipBytes = pairSum t.clearIpCheck.ipBytes + t.ipCheck.toNat := by
  have check := pairSum_le16 t.ipCheck
  have zero : (0 : UInt16).toUInt8.toNat + 256 * ((0 : UInt16) >>> 8).toUInt8.toNat = 0 := rfl
  simp only [le16, pairSum] at check
  simp only [Template.ipBytes, Template.clearIpCheck, be16, le16, le32, List.cons_append,
    List.nil_append, pairSum]
  omega

theorem ipChecksum_verifies (check : t.ipCheck = t.ipChecksum) : Verifies t.ipBytes := by
  have even : t.ipBytes.length % 2 = 0 := by rw [ipBytes_length]
  have evenZero : t.clearIpCheck.ipBytes.length % 2 = 0 := by rw [ipBytes_length]
  have value : t.ipCheck.toNat = 65535 - codeSum 0 t.clearIpCheck.ipBytes := by
    rw [check, Template.ipChecksum, checksum_toNat, UInt32.toNat_zero]
  have total : machineSum t.ipBytes = pairSum t.clearIpCheck.ipBytes +
      (65535 - codeSum 0 t.clearIpCheck.ipBytes) := by
    rw [machineSum, lastByte_even even, Nat.add_zero, ipBytes_check t, value]
  have bound := pairSum_le t.clearIpCheck.ipBytes
  rw [ipBytes_length] at bound
  have code := codeSum_even evenZero 0
  have fits : pairSum t.clearIpCheck.ipBytes < 2 ^ 32 := by omega
  rw [Nat.zero_add, Nat.mod_eq_of_lt fits] at code
  have above : 0 < pairSum t.clearIpCheck.ipBytes := by
    simp only [Template.ipBytes, List.append_assoc]
    rw [pairSum_append (by rfl)]
    exact Nat.lt_of_lt_of_le (by decide : 0 < pairSum [0x45, 0]) (Nat.le_add_right _ _)
  have positive : 0 < machineSum t.ipBytes := by omega
  rw [verifies_iff positive, total, complement_mod (codeSum_le _ _)]
  exact code

theorem tcpHeader_length : t.tcpHeader.length = 20 := rfl

theorem tcpHeader_check : pairSum t.tcpHeader = pairSum t.clearCheck.tcpHeader + t.check.toNat := by
  have check := pairSum_le16 t.check
  have zero : (0 : UInt16).toUInt8.toNat + 256 * ((0 : UInt16) >>> 8).toUInt8.toNat = 0 := rfl
  have flags : t.clearCheck.flags = t.flags := rfl
  simp only [le16, pairSum] at check
  simp only [Template.tcpHeader, flags, be16, be32, le16, List.cons_append, List.nil_append, pairSum]
  simp only [Template.clearCheck]
  omega

theorem tcpBytes_split (first second : Nat) : t.tcpBytes (first + second) =
      t.tcpBytes first ++ (List.range second).map fun index => t.tail (first + index) := by
  simp [Template.tcpBytes, List.range_add, Function.comp_def]

theorem tcpBytes_length (following : Nat) : (t.tcpBytes following).length = 20 + following := by
  simp [Template.tcpBytes, tcpHeader_length]

def Packet.pseudoHeader (p : Packet) : List UInt8 :=
  le32 p.template.saddr ++ le32 p.template.daddr ++ [0, 6] ++ be16 (UInt16.ofNat (p.length - 34))

def Packet.IpVerifies (p : Packet) : Prop := Verifies p.template.ipBytes

def Packet.TcpVerifies (p : Packet) : Prop :=
  Verifies (p.pseudoHeader ++ p.template.tcpBytes (p.length - headerLen))

def Packet.base (p : Packet) : Nat :=
  p.template.saddr.toNat + p.template.daddr.toNat + (htons 6).toNat +
    (htons (UInt16.ofNat (p.length - 34))).toNat +
      pairSum (p.template.clearCheck.tcpBytes (4 * p.template.doff - tcpHeaderLen))

theorem pseudoHeader_sum (p : Packet) :
    pairSum p.pseudoHeader % 65535 = (p.template.saddr.toNat + p.template.daddr.toNat + (htons 6).toNat +
      (htons (UInt16.ofNat (p.length - 34))).toNat) % 65535 := by
  have sum := pairSum_pseudo p.template.saddr p.template.daddr (UInt16.ofNat (p.length - 34))
  rw [Packet.pseudoHeader, sum]
  omega

theorem tcpVerifies_iff {p : Packet} {optlen : Nat} (even : optlen % 2 = 0)
    (doff : 4 * p.template.doff = tcpHeaderLen + optlen) (long : headerLen + optlen ≤ p.length)
    {data : List UInt8} (check : p.template.check.toNat = 65535 - codeSum p.base data) :
    p.TcpVerifies ↔ codeSum p.base data % 65535 = (p.base + machineSum p.payload) % 65535 := by
  have place : 4 * p.template.doff - tcpHeaderLen = optlen := by omega
  have following : p.length - headerLen = optlen + (p.length - (34 + 4 * p.template.doff)) := by
    simp only [headerLen, tcpHeaderLen] at *
    omega
  have bytes : p.template.tcpBytes (p.length - headerLen) = p.template.tcpBytes optlen ++ p.payload := by
    rw [following, tcpBytes_split, Packet.payload, place]
  have evenBytes : (p.template.tcpBytes optlen).length % 2 = 0 := by
    rw [tcpBytes_length]
    omega
  have evenPseudo : p.pseudoHeader.length % 2 = 0 := by simp [Packet.pseudoHeader, le32, be16]
  have header : pairSum (p.template.tcpBytes optlen) =
      pairSum (p.template.clearCheck.tcpBytes optlen) + p.template.check.toNat := by
    rw [Template.tcpBytes, Template.tcpBytes, pairSum_append (by rw [tcpHeader_length]),
      pairSum_append (by rw [tcpHeader_length]), tcpHeader_check]
    change _ = pairSum p.template.clearCheck.tcpHeader +
      pairSum ((List.range optlen).map p.template.tail) + _
    omega
  have total : machineSum (p.pseudoHeader ++ p.template.tcpBytes (p.length - headerLen)) =
      pairSum p.pseudoHeader + (pairSum (p.template.clearCheck.tcpBytes optlen) +
        machineSum p.payload + (65535 - codeSum p.base data)) := by
    rw [machineSum_append evenPseudo, bytes, machineSum_append evenBytes, header, check]
    omega
  have pseudo := pseudoHeader_sum p
  have base : p.base = p.template.saddr.toNat + p.template.daddr.toNat + (htons 6).toNat +
      (htons (UInt16.ofNat (p.length - 34))).toNat + pairSum (p.template.clearCheck.tcpBytes optlen) := by
    rw [Packet.base, place]
  have above : 0 < pairSum p.pseudoHeader := by
    simp only [Packet.pseudoHeader, List.append_assoc]
    rw [pairSum_append (by simp [le32]), pairSum_append (by simp [le32]), pairSum_append (by simp)]
    have : 0 < pairSum [0, 6] := by decide
    omega
  have equal : (pairSum p.pseudoHeader + (pairSum (p.template.clearCheck.tcpBytes optlen) +
      machineSum p.payload + (65535 - codeSum p.base data))) % 65535 =
        (p.base + machineSum p.payload + (65535 - codeSum p.base data)) % 65535 := by
    omega
  rw [Packet.TcpVerifies, verifies_iff (by omega), total, equal]
  exact complement_mod (codeSum_le _ _)

theorem generateOpt_length (curTs : UInt32) (syn : Bool) (tsRecent : UInt32) :
    (generateOpt curTs syn tsRecent).length = calOptLen syn := by
  cases syn <;> rfl

section

variable (node : Node)

section

variable (f : Fields)

theorem fill_tail (index : Nat) :
    (t.fill node f).tail (calOptLen f.syn + index) = t.tail (calOptLen f.syn + index) := by
  change (if _ ∧ calOptLen f.syn + index < 0 + (generateOpt f.curTs f.syn f.tsRecent).length then _
    else t.tail _) = _
  rw [generateOpt_length, if_neg (by omega)]

theorem fill_check : (t.fill node f).check = (t.fill node f).tcpChecksum := rfl

theorem fill_ipCheck : (t.fill node f).ipCheck = (t.fill node f).ipChecksum := rfl

def built (t : Template) (node : Node) (f : Fields) (payload : List UInt8) : Packet where
  template := (t.fill node f).write (calOptLen f.syn) payload
  length := headerLen + calOptLen f.syn + payload.length

theorem built_payload (payload : List UInt8) : (built t node f payload).payload = payload := by
  have doff := fill_doff t node f
  have place : 4 * (built t node f payload).template.doff = tcpHeaderLen + calOptLen f.syn := doff
  have count : (built t node f payload).length - (34 + (tcpHeaderLen + calOptLen f.syn)) =
      payload.length := by
    simp only [built, headerLen, tcpHeaderLen]
    omega
  rw [Packet.payload, place, count, Nat.add_sub_cancel_left]
  refine List.ext_getElem (by simp) fun index small inside => ?_
  simp only [List.getElem_map, List.getElem_range]
  change (if _ then _ else _) = _
  rw [if_pos (by omega), Nat.add_sub_cancel_left]
  simp [inside]

def Template.stale (t : Template) (optlen length : Nat) : List UInt8 :=
  (List.range length).map fun index => t.tail (optlen + index)

theorem codeSum_congr {base other} (same : base % 2 ^ 32 = other % 2 ^ 32) (data : List UInt8) :
    codeSum base data = codeSum other data := by
  rw [← codeSum_mod base, same, codeSum_mod]

theorem built_check {payload : List UInt8}
    (length : payload.length = f.length) (short : f.length ≤ maxSegSize) :
    (built t node f payload).template.check.toNat = 65535 -
      codeSum (built t node f payload).base (t.stale (calOptLen f.syn) f.length) := by
  have optlen := calOptLen_cases f.syn
  have totLen := fill_totLen t node f short
  generalize isP : built t node f payload = p
  generalize isFilled : t.fill node f = filled at totLen
  have tcpLen : (filled.totLen - 20).toNat = tcpHeaderLen + calOptLen f.syn + f.length := by
    have enough : (20 : UInt16) ≤ filled.totLen := by
      rw [UInt16.le_iff_toNat_le, totLen]
      simp only [ipHeaderLen, UInt16.reduceToNat]
      omega
    rw [UInt16.toNat_sub_of_le _ _ enough, totLen]
    simp only [ipHeaderLen, UInt16.reduceToNat]
    omega
  have sentLen : UInt16.ofNat (p.length - 34) = filled.totLen - 20 := by
    rw [← UInt16.toNat_inj, tcpLen, UInt16.toNat_ofNat', ← isP]
    simp only [built, headerLen, tcpHeaderLen, maxSegSize, length] at *
    omega
  have place : 4 * p.template.doff - tcpHeaderLen = calOptLen f.syn := by
    have doff : 4 * p.template.doff = tcpHeaderLen + calOptLen f.syn := by
      rw [← isP]
      exact fill_doff t node f
    omega
  have header : p.template.clearCheck.tcpBytes (calOptLen f.syn) =
      filled.clearCheck.tcpBytes (calOptLen f.syn) := by
    have tails : ((List.range (calOptLen f.syn)).map p.template.clearCheck.tail) =
        (List.range (calOptLen f.syn)).map filled.clearCheck.tail := by
      refine List.map_congr_left fun index member => ?_
      rw [← isP, ← isFilled]
      rw [List.mem_range] at member
      exact if_neg (by omega)
    rw [Template.tcpBytes, Template.tcpBytes, tails, ← isP, ← isFilled]
    rfl
  have base : p.base = filled.saddr.toNat + filled.daddr.toNat + (htons 6).toNat +
      (htons (filled.totLen - 20)).toNat + pairSum (filled.clearCheck.tcpBytes (calOptLen f.syn)) := by
    rw [Packet.base, place, sentLen, header, ← isP, ← isFilled]
    rfl
  have bytes : filled.clearCheck.tcpBytes ((filled.totLen - 20).toNat - tcpHeaderLen) =
      filled.clearCheck.tcpBytes (calOptLen f.syn) ++ t.stale (calOptLen f.syn) f.length := by
    have following : (filled.totLen - 20).toNat - tcpHeaderLen = calOptLen f.syn + f.length := by omega
    have tails : ((List.range f.length).map fun index =>
        filled.clearCheck.tail (calOptLen f.syn + index)) = t.stale (calOptLen f.syn) f.length := by
      refine List.map_congr_left fun index _ => ?_
      rw [← isFilled]
      exact fill_tail t node f index
    rw [following, tcpBytes_split, tails]
  have even : (filled.clearCheck.tcpBytes (calOptLen f.syn)).length % 2 = 0 := by
    rw [tcpBytes_length]
    omega
  have check : p.template.check = filled.tcpChecksum := by
    rw [← isP, ← isFilled]
    exact fill_check t node f
  have sums : ((filled.saddr + filled.daddr + (htons 6).toUInt32 +
      (htons (filled.totLen - 20)).toUInt32).toNat +
        pairSum (filled.clearCheck.tcpBytes (calOptLen f.syn))) % 2 ^ 32 = p.base % 2 ^ 32 := by
    rw [base]
    simp only [toNat_add, UInt16.toNat_toUInt32]
    omega
  rw [check, Template.tcpChecksum, checksum_toNat, bytes, codeSum_append _ even, codeSum_congr sums]

end

end

def Emitted (t : Template) (p : Packet) : Prop :=
  ∃ start node f payload, p = built start node f payload ∧ payload.length = f.length ∧
    f.length ≤ maxSegSize ∧ (payload ≠ [] → start = t ∧ f.syn = false)

theorem write_nil (offset : Nat) : t.write offset [] = t := by
  have same : (t.write offset []).tail = t.tail := by
    funext index
    change (if _ ∧ index < offset + 0 then _ else _) = _
    rw [if_neg (by omega)]
  change { t with tail := (t.write offset []).tail } = t
  rw [same]

theorem sendControl_emitted (t start : Template) (node : Node) (f : Fields) (zero : f.length = 0) :
    ∀ p ∈ (sendControl node start f).2, Emitted t p := by
  intro p member
  rw [List.mem_singleton.mp member]
  refine ⟨start, node, f, [], ?_, zero.symm, by simp [zero], fun filled => absurd rfl filled⟩
  simp [built, write_nil]

theorem sendSyn_emitted (node : Node) (input : Input) :
    ∀ p ∈ (sendSyn node t input).2.2, Emitted t p := by
  unfold sendSyn
  split
  · exact sendControl_emitted t t _ _ rfl
  · exact sendControl_emitted t t _ _ rfl
  · exact sendControl_emitted t t _ _ rfl
  · exact nofun

theorem sendFin_emitted (node : Node) (input : Input) :
    ∀ p ∈ (sendFin node t input).2.2, Emitted t p := by
  unfold sendFin
  split
  · exact sendControl_emitted t t _ _ rfl
  · exact sendControl_emitted t t _ _ rfl
  · exact sendControl_emitted t t _ _ rfl
  · exact nofun

theorem sendDataPkt_emitted (node : Node) {length} (short : length ≤ maxSegSize) :
    ∀ p ∈ (sendDataPkt node t length).2.2, Emitted t p := by
  have bounded : (node.cut length).1 ≤ maxSegSize := by
    simp only [Node.cut]
    split
    · exact Nat.le_trans (by assumption) short
    · exact short
  intro p member
  rcases List.mem_cons.mp member with isData | isAck
  · refine ⟨t, (node.cut length).2, dataFields (node.cut length).2 (node.cut length).1,
      (node.cut length).2.bytes (node.cut length).1, ?_, bytes_length _ _, bounded,
      fun _ => ⟨rfl, rfl⟩⟩
    rw [isData, built, bytes_length]
    rfl
  · exact sendControl_emitted t _ _ _ rfl p isAck

theorem getDataLen_le {settings node nParts length}
    (done : getDataLen settings node nParts = .ok length) : length ≤ maxSegSize := by
  by_cases divides : settings.isLenFixed = true ∨ nParts ≠ 0
  · obtain ⟨cut, isCut, _, upper⟩ := getDataLen_ok divides node
    rw [isCut] at done
    cases done
    exact upper
  · obtain ⟨free, nonzero⟩ := not_or.mp divides
    have free : settings.isLenFixed = false := by simpa using free
    have zero : nParts = 0 := by simpa using nonzero
    simp [getDataLen, free, zero, throw, throwThe, MonadExceptOf.throw, bind, Except.bind] at done

theorem nextLength_le {settings nParts node input length}
    (done : nextLength settings nParts node input = .ok length) : length ≤ maxSegSize := by
  simp only [nextLength] at done
  split at done
  · exact getDataLen_le done
  · split at done
    · split at done
      · exact getDataLen_le done
      · rename_i notLong
        cases done
        omega
    · exact getDataLen_le done

theorem sendPacket_emitted {settings nParts input node after t afterT packets}
    (sent : sendPacket settings nParts input node t = .ok (after, afterT, packets)) :
    ∀ p ∈ packets, Emitted t p := by
  simp only [sendPacket] at sent
  split at sent
  case h_1 =>
    by_cases start : node.offset = 0
    · rw [if_pos start] at sent
      have all := sendSyn_emitted t node input
      rwa [Except.ok.inj sent] at all
    · rw [if_neg start] at sent
      cases sent
      simp
  case h_4 =>
    obtain ⟨length, isLength, result⟩ := bind_ok sent
    have all := sendDataPkt_emitted t node (nextLength_le isLength)
    rwa [Except.ok.inj result] at all
  case h_2 | h_3 =>
    have all := sendSyn_emitted t node input
    rwa [Except.ok.inj sent] at all
  case h_5 | h_6 | h_7 =>
    have all := sendFin_emitted t node input
    rwa [Except.ok.inj sent] at all

theorem wrapped_mod_iff {base} (bound : base < 3 * 2 ^ 32) :
    base % 2 ^ 32 % 65535 = base % 65535 ↔ base < 2 ^ 32 := by
  constructor
  · intro same
    by_contra wraps
    have carries : base / 2 ^ 32 = 1 ∨ base / 2 ^ 32 = 2 := by omega
    rcases carries with one | two <;> omega
  · intro small
    rw [Nat.mod_eq_of_lt small]

theorem built_base_lt (node : Node) (f : Fields) (payload : List UInt8) :
    (built t node f payload).base < 3 * 2 ^ 32 := by
  have doff : 4 * (built t node f payload).template.doff = tcpHeaderLen + calOptLen f.syn :=
    fill_doff t node f
  generalize built t node f payload = p at doff ⊢
  have words := pairSum_le (p.template.clearCheck.tcpBytes (4 * p.template.doff - tcpHeaderLen))
  rw [tcpBytes_length] at words
  have options := calOptLen_cases f.syn
  have source := p.template.saddr.toNat_lt
  have destination := p.template.daddr.toNat_lt
  have length := (htons (UInt16.ofNat (p.length - 34))).toNat_lt
  have protocol : (htons 6).toNat = 1536 := rfl
  rw [Packet.base]
  omega

end

/-- The IP checksum is right. Without a payload the TCP checksum is right just if the sum has no
carry out of 32 bits; with one, just if the payload and the bytes that the template held in its place
differ in their sums by the carries that are lost. -/
theorem checksums_verify_iff (settings : Settings) (nParts : Int) (input : Input) (node after : Node)
    (t afterT : Template) (packets : List Packet)
    (sent : sendPacket settings nParts input node t = .ok (after, afterT, packets)) :
    ∀ p ∈ packets, p.IpVerifies ∧ (p.payload = [] → (p.TcpVerifies ↔ p.base < 2 ^ 32)) ∧
      (p.payload ≠ [] → (p.TcpVerifies ↔
        let stale := t.stale (calOptLen false) p.payload.length
        (machineSum p.payload + lostCarries (p.base + pairSum stale) (lastByte stale)) % 65535 =
          machineSum stale % 65535)) := by
  intro p member
  obtain ⟨start, ends, f, payload, rfl, length, short, fresh⟩ := sendPacket_emitted sent p member
  have options := calOptLen_cases f.syn
  have isPayload := built_payload start ends f payload
  have verifies := @tcpVerifies_iff (built start ends f payload) (calOptLen f.syn) (by omega)
    (fill_doff start ends f) (Nat.le_add_right _ _) _ (built_check start ends f length short)
  rw [isPayload] at verifies ⊢
  refine ⟨ipChecksum_verifies ((start.fill ends f).write _ payload) (fill_ipCheck start ends f), ?_, ?_⟩
  · intro empty
    subst empty
    have nothing : start.stale (calOptLen f.syn) f.length = [] := by
      rw [← length]
      rfl
    rw [verifies, nothing, codeSum_nil, machineSum_nil, Nat.add_zero]
    exact wrapped_mod_iff (built_base_lt start ends f [])
  · intro filled
    obtain ⟨rfl, notSyn⟩ := fresh filled
    rw [verifies, notSyn, length]
    have lost := codeSum_lost (built start ends f payload).base (start.stale (calOptLen false) f.length)
    dsimp only
    omega

instance (p : Packet) : Decidable p.TcpVerifies := inferInstanceAs (Decidable (_ = _))

def sentPackets : Except Fault Outcome → List Packet
  | .ok (_, _, packets) => packets
  | .error _ => []

def plainSyn : Packet :=
  (sentPackets (sendPacket ⟨100, false, 5⟩ 25 plainInput (plainNode 100) plainTemplate)).head (by decide +kernel)

/-- A data packet in a template that holds the same bytes already. -/
def plainData : Packet :=
  (sentPackets (sendPacket ⟨100, false, 5⟩ 25 plainInput { plainNode 40 with state := .established }
    { plainTemplate with tail := fun _ => 65 })).head (by decide +kernel)

theorem syn_verifies : plainSyn.payload = [] ∧ plainSyn.TcpVerifies ∧ plainData.payload ≠ [] ∧
    plainData.TcpVerifies := by
  have plain : plainSyn.payload = [] := by decide +kernel
  have data : plainData.payload ≠ [] := by decide +kernel
  have verifies := checksums_verify_iff ⟨100, false, 5⟩ 25 plainInput (plainNode 100) _ plainTemplate _ _
    rfl plainSyn (List.head_mem _)
  have repeated := checksums_verify_iff ⟨100, false, 5⟩ 25 plainInput
    { plainNode 40 with state := .established } _ { plainTemplate with tail := fun _ => 65 } _ _
    rfl plainData (List.head_mem _)
  exact ⟨plain, (verifies.2.1 plain).mpr (by decide +kernel), data,
    (repeated.2.2 data).mpr (by decide +kernel)⟩

/-- The first data packet has the checksum of the zeros that its payload replaces; and a carry out
of 32 bits is lost. -/
theorem checksums_fail :
    (sentPackets (run ⟨100, false, 5⟩ 25 (plainNode 40) plainTemplate
      [plainInput, plainInput, plainInput, plainInput])).map (fun p => decide p.TcpVerifies) =
        [true, true, true, false, true] ∧
    (sentPackets (sendPacket ⟨100, false, 5⟩ 25 plainInput
      { plainNode 40 with saddr := 0xffff000a, daddr := 0xffff010a } plainTemplate)).map
        (fun p => decide p.TcpVerifies) = [false] := by
  decide +kernel

end Mcc.StreamGen
