import Mcc.Machine
import Mcc.Toeplitz

/-!
Receive-side scaling (`rss.c`): the cached windows of the key, the hash of a packet's addresses and
ports, and the queue the network card puts the packet in.
-/

namespace Mcc

open Toeplitz

def rssKey : List UInt8 :=
  [0x6D, 0x5A, 0x56, 0xDA, 0x25, 0x5B, 0x0E, 0xC2, 0x41, 0x67, 0x25, 0x3D, 0x43, 0xA3, 0x8F, 0xB0,
    0xD0, 0xCA, 0x2B, 0xCB, 0xAE, 0x7B, 0x30, 0xB4, 0x77, 0xCB, 0x2D, 0xA3, 0x80, 0x30, 0xF2, 0x0C,
    0x6A, 0x42, 0xB7, 0x3B, 0xBE, 0xAC, 0x01, 0xFA]

def keyByte (index : Nat) : UInt8 := rssKey.getD index 0

def keyBit (idx : Nat) : Bool := ((keyByte (idx / 8)).toNat <<< (idx % 8)) &&& 0x80 ≠ 0

def buildKeyCacheLoop : Nat → Nat → UInt32 → List UInt32
  | 0, _, _ => []
  | remaining + 1, idx, result =>
    result :: buildKeyCacheLoop remaining (idx + 1)
      ((result <<< 1) ||| (if keyBit idx then 1 else 0))

def buildKeyCache (cacheLen : Nat) : List UInt32 :=
  buildKeyCacheLoop cacheLen 32
    (((keyByte 0).toUInt32 <<< 24) ||| ((keyByte 1).toUInt32 <<< 16) |||
      ((keyByte 2).toUInt32 <<< 8) ||| (keyByte 3).toUInt32)

def keyCacheLen : Nat := 96

/-- One of the loops of `GetRSSHash`: the most significant bit of the value is tested and shifted
out, `remaining` times. -/
def hashLoop {v : Nat} (cache : List UInt32) : Nat → Nat → BitVec v → UInt32 → UInt32
  | 0, _, _, res => res
  | remaining + 1, index, value, res =>
    hashLoop cache remaining (index + 1) (value <<< 1)
      (if value.msb then res ^^^ cache.getD index 0 else res)

def getRSSHash (sip dip : UInt32) (sp dp : UInt16) : UInt32 :=
  let cache := buildKeyCache keyCacheLen
  let res := hashLoop cache 32 0 sip.toBitVec 0
  let res := hashLoop cache 32 32 dip.toBitVec res
  let res := hashLoop cache 16 64 sp.toBitVec res
  hashLoop cache 16 80 dp.toBitVec res

def redirectOff : UInt32 → UInt32
  | 0 => 3
  | 1 => 1
  | 2 => -1
  | _ => -3

def getRSSCPUCore (sip dip : UInt32) (sp dp : UInt16) (numQueues : Int32) (endianCheck : Bool) :
    Except Fault Int32 :=
  let masked :=
    if endianCheck then
      let masked := getRSSHash sip dip sp dp &&& 0x1FF
      masked + redirectOff (masked &&& 3)
    else getRSSHash sip dip sp dp &&& 0x7F
  if numQueues = 0 then .error .divisionByZero
  else .ok (masked % numQueues.toUInt32).toInt32

def keyBits (idx : Nat) : Bool := (keyByte (idx / 8)).toBitVec.getMsbD (idx % 8)

def toeplitzHash (sip dip : UInt32) (sp dp : UInt16) : UInt32 :=
  ⟨hash 32 keyBits 0
    (bits sip.toBitVec ++ (bits dip.toBitVec ++ (bits sp.toBitVec ++ bits dp.toBitVec)))⟩

theorem keyBit_eq (idx : Nat) : keyBit idx = keyBits idx := by
  have inside : idx % 8 < 8 := Nat.mod_lt _ (by decide)
  have shifted : 8 - 1 - idx % 8 = 7 - idx % 8 := rfl
  rw [keyBit, keyBits, show 0x80 = 2 ^ 7 from rfl, Nat.and_two_pow, Nat.testBit_shiftLeft,
    BitVec.getMsbD_eq_getLsbD, shifted, decide_eq_true inside, Bool.true_and,
    decide_eq_true (Nat.le_of_lt_succ inside), Bool.true_and]
  change _ = (keyByte (idx / 8)).toNat.testBit (7 - idx % 8)
  cases (keyByte (idx / 8)).toNat.testBit (7 - idx % 8) <;> rfl

theorem buildKeyCacheLoop_eq (remaining start : Nat) (result : UInt32)
    (isWindow : result.toBitVec = window keyBits start 32) :
    buildKeyCacheLoop remaining (start + 32) result =
      (List.range' start remaining).map fun start => ⟨window keyBits start 32⟩ := by
  induction remaining generalizing start result with
  | zero => rfl
  | succ remaining ih =>
    rw [buildKeyCacheLoop, List.range'_succ, List.map_cons]
    refine congrArg₂ _ (UInt32.toBitVec_inj.mp isWindow) ?_
    rw [Nat.add_right_comm]
    refine ih (start + 1) _ ?_
    rw [window_succ, UInt32.toBitVec_or, UInt32.toBitVec_shiftLeft, isWindow, keyBit_eq]
    cases keyBits (start + 32) <;> rfl

theorem buildKeyCache_eq (cacheLen : Nat) :
    buildKeyCache cacheLen = (List.range' 0 cacheLen).map fun start => ⟨window keyBits start 32⟩ :=
  buildKeyCacheLoop_eq cacheLen 0 _ (by decide)

theorem hashLoop_eq {v : Nat} (remaining index : Nat) (value : BitVec v) (res : UInt32)
    (inside : index + remaining ≤ keyCacheLen) :
    (hashLoop (buildKeyCache keyCacheLen) remaining index value res).toBitVec =
      res.toBitVec ^^^ hash 32 keyBits index (leading remaining value) := by
  induction remaining generalizing index value res with
  | zero => simp [hashLoop, leading, Toeplitz.hash]
  | succ remaining ih =>
    have cached : (buildKeyCache keyCacheLen).getD index 0 = ⟨window keyBits index 32⟩ := by
      have here : index < keyCacheLen := by omega
      simp [buildKeyCache_eq, List.getD_eq_getElem?_getD, here]
    rw [hashLoop, ih _ _ _ (by omega), leading_succ, Toeplitz.hash, cached]
    cases value.msb
    · simp
    · simp [BitVec.xor_assoc]

theorem getRSSHash_eq (sip dip : UInt32) (sp dp : UInt16) :
    getRSSHash sip dip sp dp = toeplitzHash sip dip sp dp := by
  refine UInt32.toBitVec_inj.mp ?_
  simp only [getRSSHash]
  rw [hashLoop_eq _ _ _ _ (by decide), hashLoop_eq _ _ _ _ (by decide),
    hashLoop_eq _ _ _ _ (by decide), hashLoop_eq _ _ _ _ (by decide)]
  simp [toeplitzHash, hash_append, BitVec.xor_assoc, bits]

def redirection (endianCheck : Bool) (hash : UInt32) : Nat :=
  if endianCheck then hash.toNat % 512 ^^^ 3 else hash.toNat % 128

def receivingQueue (sip dip : UInt32) (sp dp : UInt16) (numQueues : Int32) (endianCheck : Bool) :
    Nat :=
  redirection endianCheck (toeplitzHash sip dip sp dp) % numQueues.toUInt32.toNat

theorem redirection_lt (endianCheck : Bool) (hash : UInt32) : redirection endianCheck hash < 512 := by
  cases endianCheck
  · exact Nat.lt_of_lt_of_le (Nat.mod_lt _ (by decide)) (by decide : 128 ≤ 512)
  · exact Nat.xor_lt_two_pow (n := 9) (Nat.mod_lt _ (by decide)) (by decide)

theorem redirectOff_eq (index : Nat) (inside : index < 512) :
    (UInt32.ofNat index + redirectOff (UInt32.ofNat index &&& 3)).toNat = index ^^^ 3 := by
  revert index
  decide +kernel

theorem toInt_toInt32 {value : UInt32} (small : value.toNat < 2 ^ 31) :
    value.toInt32.toInt = value.toNat :=
  BitVec.toInt_eq_toNat_of_lt (by change 2 * value.toNat < 2 ^ 32; omega)

theorem masked_eq (endianCheck : Bool) (hash : UInt32) :
    (if endianCheck then (hash &&& 0x1FF) + redirectOff (hash &&& 0x1FF &&& 3)
      else hash &&& 0x7F).toNat = redirection endianCheck hash := by
  cases endianCheck
  · exact Nat.and_two_pow_sub_one_eq_mod hash.toNat 7
  · have low : hash &&& 0x1FF = UInt32.ofNat (hash.toNat % 512) :=
      UInt32.toNat_inj.mp (by
        rw [UInt32.toNat_and, UInt32.toNat_ofNat_of_lt' (Nat.lt_of_lt_of_le (Nat.mod_lt _ (by decide))
          (by decide : 512 ≤ UInt32.size))]
        exact Nat.and_two_pow_sub_one_eq_mod hash.toNat 9)
    rw [if_pos rfl, low]
    exact redirectOff_eq _ (Nat.mod_lt _ (by decide))

theorem getRSSCPUCore_eq_ok {sip dip : UInt32} {sp dp : UInt16} {numQueues core : Int32}
    {endianCheck : Bool} :
    getRSSCPUCore sip dip sp dp numQueues endianCheck = .ok core ↔
      numQueues ≠ 0 ∧ core.toInt = receivingQueue sip dip sp dp numQueues endianCheck := by
  rw [getRSSCPUCore]
  by_cases zero : numQueues = 0
  · simp [zero]
  · rw [if_neg zero, Except.ok.injEq, ← Int32.toInt_inj, toInt_toInt32, UInt32.toNat_mod,
      masked_eq, getRSSHash_eq, receivingQueue]
    · exact ⟨fun same => ⟨zero, same.symm⟩, fun both => both.2.symm⟩
    · rw [UInt32.toNat_mod, masked_eq]
      have small := redirection_lt endianCheck (getRSSHash sip dip sp dp)
      exact Nat.lt_of_le_of_lt (Nat.mod_le _ _) (by omega)

end Mcc
