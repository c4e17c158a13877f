import Mathlib

/-!
The Internet checksum: sums of 16-bit words in one's complement arithmetic, read from bytes in
network order, and the same sums read in the order of a little-endian machine.
-/

namespace Mcc.OnesComplement

def add (first second : Nat) : Nat :=
  if first + second < 65536 then first + second else first + second - 65535

def sum : List UInt8 → Nat
  | first :: second :: rest => add (256 * first.toNat + second.toNat) (sum rest)
  | [last] => 256 * last.toNat
  | [] => 0

def Verifies (bytes : List UInt8) : Prop := sum bytes = 65535

def pairSum : List UInt8 → Nat
  | first :: second :: rest => first.toNat + 256 * second.toNat + pairSum rest
  | _ => 0

def lastByte : List UInt8 → Nat
  | _ :: _ :: rest => lastByte rest
  | [last] => last.toNat
  | [] => 0

def machineSum (bytes : List UInt8) : Nat := pairSum bytes + lastByte bytes

theorem sum_le (bytes : List UInt8) : sum bytes ≤ 65535 := by
  induction bytes using sum.induct with
  | case1 first second rest ih =>
    have := first.toNat_lt
    have := second.toNat_lt
    simp only [sum, add]
    split <;> omega
  | case2 last =>
    have := last.toNat_lt
    simp only [sum]
    omega
  | case3 => exact Nat.zero_le _

theorem sum_eq_zero_iff (bytes : List UInt8) : sum bytes = 0 ↔ machineSum bytes = 0 := by
  induction bytes using sum.induct with
  | case1 first second rest ih =>
    simp only [machineSum, pairSum, lastByte] at ih ⊢
    simp only [sum, add]
    split <;> omega
  | case2 last =>
    simp only [machineSum, pairSum, lastByte, sum]
    omega
  | case3 => exact Iff.rfl

theorem sum_mod (bytes : List UInt8) : sum bytes % 65535 = 256 * machineSum bytes % 65535 := by
  induction bytes using sum.induct with
  | case1 first second rest ih =>
    simp only [machineSum, pairSum, lastByte, sum, add] at ih ⊢
    split <;> omega
  | case2 last => simp [machineSum, pairSum, lastByte, sum]
  | case3 => rfl

theorem verifies_iff {bytes : List UInt8} (above : 0 < machineSum bytes) :
    Verifies bytes ↔ machineSum bytes % 65535 = 0 := by
  have bound := sum_le bytes
  have zero := sum_eq_zero_iff bytes
  have swapped := sum_mod bytes
  unfold Verifies
  constructor <;> intro <;> omega

theorem pairSum_append {first : List UInt8} (even : first.length % 2 = 0) (second : List UInt8) :
    pairSum (first ++ second) = pairSum first + pairSum second := by
  induction first using sum.induct with
  | case1 high low rest ih =>
    simp only [List.length_cons] at even
    have := ih (by omega)
    simp only [List.cons_append, pairSum, this]
    omega
  | case2 last => simp at even
  | case3 => simp [pairSum]

theorem lastByte_append {first : List UInt8} (even : first.length % 2 = 0) (second : List UInt8) :
    lastByte (first ++ second) = lastByte second := by
  induction first using sum.induct with
  | case1 high low rest ih =>
    simp only [List.length_cons] at even
    simpa [lastByte] using ih (by omega)
  | case2 last => simp at even
  | case3 => rfl

theorem lastByte_even {bytes : List UInt8} (even : bytes.length % 2 = 0) : lastByte bytes = 0 := by
  simpa [lastByte] using lastByte_append even []

theorem lastByte_lt (bytes : List UInt8) : lastByte bytes < 256 := by
  fun_induction lastByte bytes with
  | case1 first second rest ih => exact ih
  | case2 last => exact last.toNat_lt
  | case3 => decide

theorem lastByte_odd {bytes : List UInt8} (odd : bytes.length % 2 = 1) :
    lastByte bytes = (bytes.getLastD 0).toNat := by
  induction bytes using sum.induct with
  | case1 first second rest ih =>
    have isOdd : rest.length % 2 = 1 := by
      simp only [List.length_cons] at odd
      omega
    have nonempty : rest ≠ [] := by
      rintro rfl
      cases isOdd
    rw [lastByte, ih isOdd]
    cases rest with
    | nil => exact absurd rfl nonempty
    | cons byte more => rfl
  | case2 last => rfl
  | case3 => cases odd

theorem machineSum_append {first : List UInt8} (even : first.length % 2 = 0) (second : List UInt8) :
    machineSum (first ++ second) = pairSum first + machineSum second := by
  rw [machineSum, machineSum, pairSum_append even, lastByte_append even]
  omega

def folded (sum : Nat) : Nat :=
  let sum := sum / 65536 + sum % 65536
  sum + sum / 65536

theorem folded_eq {sum : Nat} (small : sum < 2 ^ 32) :
    folded sum % 65536 = if sum = 0 then 0 else (sum - 1) % 65535 + 1 := by
  obtain ⟨once, isOnce⟩ : ∃ once, once = sum / 65536 + sum % 65536 := ⟨_, rfl⟩
  have same : once % 65535 = sum % 65535 := by omega
  have bound : once ≤ 2 * 65535 := by omega
  have value : folded sum % 65536 = if once < 65536 then once else once - 65535 := by
    simp only [folded, ← isOnce]
    split <;> omega
  rw [value]
  split <;> split <;> omega

theorem folded_mod (sum : Nat) (small : sum < 2 ^ 32) : folded sum % 65536 % 65535 = sum % 65535 := by
  rw [folded_eq small]
  split <;> omega

end Mcc.OnesComplement
