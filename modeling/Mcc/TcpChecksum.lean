import Mcc.GeneratedChecksum

/-!
The checksum of the stack's own segments: `TCPCalcChecksum` adds up the segment in the order of the
machine, and what it stores is the checksum over the bytes in network order. The helpers of the stream
generator do the same as long as no carry leaves their accumulator.
-/

namespace Mcc.TcpChecksum

open OnesComplement StreamGen

def pseudoHeader (saddr daddr : UInt32) (len : UInt16) : List UInt8 :=
  le32 saddr ++ le32 daddr ++ [0, 6] ++ be16 len

def halves (address : UInt32) : UInt32 := (address &&& (0xffff : UInt32)) + (address >>> 16)

/-- The accumulator before it is folded. The word that holds an odd last byte is masked. -/
def tcpSum (buf : List UInt8) (saddr daddr : UInt32) : UInt32 :=
  let sum := addWords buf 0
  let sum := if buf.length % 2 = 1 then sum + (buf.getLastD 0).toUInt32 else sum
  let sum := sum + halves saddr
  let sum := sum + halves daddr
  let sum := sum + (htons (UInt16.ofNat buf.length)).toUInt32
  sum + (htons 6).toUInt32

def tcpCalcChecksum (buf : List UInt8) (saddr daddr : UInt32) : UInt16 :=
  let sum := tcpSum buf saddr daddr
  let sum := (sum >>> 16) + (sum &&& 0xffff)
  let sum := sum + (sum >>> 16)
  (~~~sum).toUInt16

def covered (buf : List UInt8) (saddr daddr : UInt32) : List UInt8 :=
  pseudoHeader saddr daddr (UInt16.ofNat buf.length) ++ buf

theorem lastByte_lt (buf : List UInt8) : lastByte buf < 256 := by
  by_cases odd : buf.length % 2 = 1
  · exact lastByte_odd odd ▸ (buf.getLastD 0).toNat_lt
  · rw [lastByte_even (by omega)]
    decide

theorem halves_toNat (address : UInt32) :
    (halves address).toNat = address.toNat / 65536 + address.toNat % 65536 := by
  rw [halves, UInt32.add_comm, foldOnce_toNat]

variable {buf : List UInt8} (saddr daddr : UInt32)

theorem machineSum_covered (buf : List UInt8) (saddr daddr : UInt32) :
    machineSum (covered buf saddr daddr) =
      (saddr.toNat % 65536 + saddr.toNat / 65536) + (daddr.toNat % 65536 + daddr.toNat / 65536) +
        (htons (UInt16.ofNat buf.length)).toNat + (htons 6).toNat + machineSum buf := by
  rw [covered, pseudoHeader, machineSum_append (by simp [le32, be16]), pairSum_pseudo]

theorem tcpSum_toNat (short : buf.length ≤ 65535) :
    (tcpSum buf saddr daddr).toNat = machineSum (covered buf saddr daddr) := by
  have words := addWords_toNat buf 0
  have bound := pairSum_le buf
  have length := (htons (UInt16.ofNat buf.length)).toNat_lt
  have protocol : (htons 6).toNat = 1536 := rfl
  have first := saddr.toNat_lt
  have second := daddr.toNat_lt
  rw [UInt32.toNat_zero, Nat.zero_add, Nat.mod_eq_of_lt (by omega)] at words
  have padded : (if buf.length % 2 = 1 then addWords buf 0 + (buf.getLastD 0).toUInt32
      else addWords buf 0).toNat = machineSum buf := by
    by_cases odd : buf.length % 2 = 1
    · have byte := (buf.getLastD 0).toNat_lt
      rw [if_pos odd, UInt32.toNat_add, machineSum, lastByte_odd odd, words, UInt8.toNat_toUInt32]
      omega
    · rw [if_neg odd, machineSum, lastByte_even (by omega), words, Nat.add_zero]
  have last := lastByte_lt buf
  rw [machineSum_covered]
  simp only [tcpSum, UInt32.toNat_add, UInt16.toNat_toUInt32, padded, halves_toNat]
  simp only [machineSum]
  omega

theorem folded_pos {sum : Nat} (above : 0 < sum) (small : sum < 2 ^ 32) : 0 < folded sum % 65536 := by
  obtain ⟨once, isOnce⟩ : ∃ once, once = sum / 65536 + sum % 65536 := ⟨_, rfl⟩
  have range : 0 < once ∧ once ≤ 2 * 65535 := by omega
  have carry : once / 65536 = 0 ∨ once / 65536 = 1 := by omega
  simp only [folded, ← isOnce]
  rcases carry with zero | one <;> omega

theorem covered_pos : 0 < machineSum (covered buf saddr daddr) := by
  have protocol : (htons 6).toNat = 1536 := rfl
  rw [machineSum_covered]
  omega

theorem tcpCalcChecksum_toNat (short : buf.length ≤ 65535) :
    (tcpCalcChecksum buf saddr daddr).toNat =
      65535 - folded (machineSum (covered buf saddr daddr)) % 65536 := by
  have fold := (@foldTwice_toNat (tcpSum buf saddr daddr) _ rfl).1
  rw [tcpCalcChecksum, complement_toNat, fold, tcpSum_toNat saddr daddr short]

theorem htons_toNat (value : UInt16) :
    (htons value).toNat = value.toNat / 256 + 256 * (value.toNat % 256) := by
  have := value.toNat_lt
  rw [htons, UInt16.toNat_ofNat']
  omega

theorem covered_field {front field back : List UInt8} (place : front.length = 16)
    (size : field.length = 2) : machineSum (covered (front ++ field ++ back) saddr daddr) =
      pairSum (pseudoHeader saddr daddr (UInt16.ofNat (18 + back.length))) +
        (pairSum front + (pairSum field + machineSum back)) := by
  have length : (front ++ field ++ back).length = 18 + back.length := by
    rw [List.length_append, List.length_append, place, size]
  rw [covered, length, machineSum_append (by simp [pseudoHeader, le32, be16]), List.append_assoc,
    machineSum_append (by rw [place]), machineSum_append (by rw [size])]

theorem tcp_checksum_right (buf : List UInt8) (saddr daddr : UInt32)
    (length : 20 ≤ buf.length ∧ buf.length ≤ 65535) :
    (tcpSum buf saddr daddr).toNat = machineSum (covered buf saddr daddr) ∧
      (htons (tcpCalcChecksum buf saddr daddr)).toNat = 65535 - sum (covered buf saddr daddr) ∧
      ∀ front back, front.length = 16 → buf = front ++ [0, 0] ++ back →
        tcpCalcChecksum (front ++ le16 (tcpCalcChecksum buf saddr daddr) ++ back) saddr daddr = 0 := by
  have sum := tcpSum_toNat saddr daddr length.2
  have small := (tcpSum buf saddr daddr).toNat_lt
  have above := @covered_pos buf saddr daddr
  have value := tcpCalcChecksum_toNat saddr daddr length.2
  have fold := folded_mod _ (sum ▸ small)
  have positive := folded_pos above (sum ▸ small)
  refine ⟨sum, ?_, fun front back place isBuf => ?_⟩
  · have bound := sum_le (covered buf saddr daddr)
    have nonzero := sum_eq_zero_iff (covered buf saddr daddr)
    have swapped := sum_mod (covered buf saddr daddr)
    rw [htons_toNat, value]
    omega
  · have before := @covered_field saddr daddr front [0, 0] back place rfl
    have after := @covered_field saddr daddr front (le16 (tcpCalcChecksum buf saddr daddr)) back place rfl
    have zero : pairSum [0, 0] = 0 := rfl
    rw [← isBuf, zero] at before
    rw [pairSum_le16] at after
    have short : (front ++ le16 (tcpCalcChecksum buf saddr daddr) ++ back).length ≤ 65535 := by
      have size := congrArg List.length isBuf
      simp only [List.length_append, List.length_cons, List.length_nil, le16] at size ⊢
      omega
    have again := tcpCalcChecksum_toNat saddr daddr short
    have fits := tcpSum_toNat saddr daddr short ▸ (tcpSum _ saddr daddr).toNat_lt
    have next := folded_mod _ fits
    have rest := folded_pos (by omega) fits
    apply UInt16.toNat_inj.mp
    rw [again, UInt16.toNat_zero]
    omega

def oddSegment : List UInt8 := List.replicate 16 1 ++ [0, 0] ++ [1, 2, 3]

theorem tcp_checksum_right_odd :
    (20 ≤ oddSegment.length ∧ oddSegment.length ≤ 65535) ∧
      tcpCalcChecksum (List.replicate 16 1 ++ le16 (tcpCalcChecksum oddSegment 1 2) ++ [1, 2, 3]) 1 2 = 0 :=
  ⟨by decide, (tcp_checksum_right oddSegment 1 2 (by decide)).2.2 _ _ rfl rfl⟩

def segmentChecksum (saddr daddr : UInt32) (segment : List UInt8) : UInt16 :=
  checksum segment (saddr + daddr + (htons 6).toUInt32 + (htons (UInt16.ofNat segment.length)).toUInt32)

/-- The two bytes that the checksum is stored as are those that RFC 1071 prescribes for `bytes`. -/
def IsChecksum (check : UInt16) (bytes : List UInt8) : Prop := (htons check).toNat = 65535 - sum bytes

theorem isChecksum_iff {check : UInt16} {code : Nat} (value : check.toNat = 65535 - code)
    (small : code ≤ 65535) (bytes : List UInt8) : IsChecksum check bytes ↔
      code % 65535 = machineSum bytes % 65535 ∧ (code = 0 ↔ machineSum bytes = 0) := by
  have bound := sum_le bytes
  have swapped := sum_mod bytes
  have zero := sum_eq_zero_iff bytes
  rw [IsChecksum, htons_toNat, value]
  omega

/-- The sum over `base` and the data loses no carry, out of the 32 bits or, where the last byte is
added, out of the 16 bits. -/
def KeepsCarries (base : Nat) (data : List UInt8) : Prop :=
  base + pairSum data < 2 ^ 32 ∧ folded (base + pairSum data) % 65536 + lastByte data < 65536

theorem codeSum_right_iff {base total : Nat} {data : List UInt8} (few : base + pairSum data < 3 * 2 ^ 32)
    (same : total % 65535 = (base + machineSum data) % 65535)
    (zero : total = 0 ↔ base + machineSum data = 0) :
    (codeSum base data % 65535 = total % 65535 ∧ (codeSum base data = 0 ↔ total = 0)) ↔
      KeepsCarries base data := by
  obtain ⟨carries, kept, split, small⟩ : ∃ carries kept, base + pairSum data = kept + 2 ^ 32 * carries ∧
      kept < 2 ^ 32 := ⟨_, _, (Nat.mod_add_div _ (2 ^ 32)).symm, Nat.mod_lt _ (by decide)⟩
  obtain ⟨low, isLow⟩ : ∃ low, low = folded kept % 65536 := ⟨_, rfl⟩
  have last := lastByte_lt data
  have code : codeSum base data = (low + lastByte data) % 65536 := by
    rw [codeSum, split, Nat.add_mul_mod_self_left, Nat.mod_eq_of_lt small, isLow, Nat.mod_add_mod]
  have lowMod : low % 65535 = kept % 65535 := isLow ▸ folded_mod kept small
  have lowPos : 0 < kept → 0 < low := fun above => isLow ▸ folded_pos above small
  have lowZero : kept = 0 → low = 0 := fun nothing => by rw [isLow, nothing]; rfl
  have machine : machineSum data = pairSum data + lastByte data := rfl
  have sum : total % 65535 = (low + lastByte data + carries) % 65535 := by omega
  rw [code, KeepsCarries, split]
  by_cases carry : low + lastByte data < 65536
  · rw [Nat.mod_eq_of_lt carry]
    by_cases nothing : carries = 0
    · rw [nothing, Nat.mul_zero, Nat.add_zero, ← isLow]
      rw [nothing] at sum split
      exact iff_of_true ⟨sum.symm, by omega⟩ ⟨small, carry⟩
    · refine iff_of_false (fun right => ?_) fun right => by omega
      omega
  · refine iff_of_false (fun right => ?_) fun right => ?_
    · have code : (low + lastByte data) % 65536 = low + lastByte data - 65536 := by omega
      omega
    · have nothing : carries = 0 := by omega
      rw [nothing, Nat.mul_zero, Nat.add_zero, ← isLow] at right
      exact carry right.2

theorem generator_checksums_iff (data : List UInt8) (short : data.length ≤ 65535) (saddr daddr : UInt32) :
    (IsChecksum (checksum data 0) data ↔ KeepsCarries 0 data) ∧
      (IsChecksum (segmentChecksum saddr daddr data) (covered data saddr daddr) ↔
        KeepsCarries (saddr.toNat + daddr.toNat + (htons 6).toNat +
          (htons (UInt16.ofNat data.length)).toNat) data) := by
  have bound := pairSum_le data
  have length := (htons (UInt16.ofNat data.length)).toNat_lt
  have protocol : (htons 6).toNat = 1536 := rfl
  constructor
  · rw [isChecksum_iff (checksum_toNat data 0) (codeSum_le _ _)]
    exact codeSum_right_iff (by rw [UInt32.toNat_zero]; omega) (by simp) (by simp)
  · have total := machineSum_covered data saddr daddr
    have first := saddr.toNat_lt
    have second := daddr.toNat_lt
    rw [segmentChecksum, isChecksum_iff (checksum_toNat data _) (codeSum_le _ _), UInt32.toNat_add,
      UInt32.toNat_add, UInt32.toNat_add]
    simp only [UInt16.toNat_toUInt32, Nat.mod_add_mod]
    rw [codeSum_mod]
    exact codeSum_right_iff (by omega) (by omega) (by omega)

theorem generator_checksums_even : IsChecksum (checksum [0xff, 0xff] 0) [0xff, 0xff] :=
  (generator_checksums_iff [0xff, 0xff] (by decide) 0 0).1.mpr (by unfold KeepsCarries; decide)

theorem odd_carry_lost : ¬IsChecksum (checksum [0xff, 0xff, 1] 0) [0xff, 0xff, 1] := by
  unfold IsChecksum
  decide

end Mcc.TcpChecksum
