import Mathlib

/-!
Wrap-around arithmetic on 32-bit serial numbers. A serial number is a base plus an
unbounded natural offset; differences of nearby offsets survive the wrap.
-/

namespace SerialNumber

def plus (base : UInt32) (offset : Nat) : UInt32 := base + UInt32.ofNat offset

def signed (word : UInt32) : Int :=
  if word.toNat < 2 ^ 31 then word.toNat else (word.toNat : Int) - 2 ^ 32

theorem signed_le (word : UInt32) : signed word ≤ word.toNat := by
  unfold signed
  split <;> omega

section

variable (base : UInt32)

theorem toNat_plus (offset : Nat) : (plus base offset).toNat = (base.toNat + offset) % 2 ^ 32 := by
  simp only [plus, UInt32.toNat_add, UInt32.toNat_ofNat']
  omega

@[simp] theorem plus_zero : plus base 0 = base := by
  apply UInt32.toNat_inj.mp
  rw [toNat_plus]
  have bound := base.toNat_lt
  omega

theorem plus_plus (first second : Nat) : plus (plus base first) second = plus base (first + second) := by
  apply UInt32.toNat_inj.mp
  simp only [toNat_plus]
  omega

theorem plus_add_word (offset : Nat) (word : UInt32) :
    plus base offset + word = plus base (offset + word.toNat) := by
  apply UInt32.toNat_inj.mp
  simp only [toNat_plus, UInt32.toNat_add]
  omega

theorem toNat_plus_sub_plus {later earlier : Nat} (order : earlier ≤ later)
    (near : later - earlier < 2 ^ 32) :
    (plus base later - plus base earlier).toNat = later - earlier := by
  simp only [UInt32.toNat_sub, toNat_plus]
  omega

theorem toNat_plus_sub (word base : UInt32) (count : Nat) :
    (plus word count - base).toNat = ((word - base).toNat + count) % 2 ^ 32 := by
  simp only [UInt32.toNat_sub, toNat_plus]
  omega

theorem plus_sub_plus {later earlier : Nat} (order : earlier ≤ later) :
    plus base later - plus base earlier = UInt32.ofNat (later - earlier) := by
  apply UInt32.toNat_inj.mp
  simp only [UInt32.toNat_sub, toNat_plus, UInt32.toNat_ofNat']
  omega

theorem plus_inj {first second : Nat} (above : first < second + 2 ^ 32)
    (below : second < first + 2 ^ 32) : plus base first = plus base second ↔ first = second := by
  constructor
  · intro same
    have values := congrArg UInt32.toNat same
    simp only [toNat_plus] at values
    omega
  · rintro rfl
    rfl

theorem signed_plus_sub_plus {first second : Nat} (above : first < second + 2 ^ 31)
    (below : second ≤ first + 2 ^ 31) :
    signed (plus base first - plus base second) = (first : Int) - second := by
  simp only [signed, UInt32.toNat_sub, toNat_plus]
  split <;> omega

end

theorem plus_toNat_sub (base word : UInt32) : plus base (word - base).toNat = word := by
  apply UInt32.toNat_inj.mp
  rw [toNat_plus, UInt32.toNat_sub]
  have baseBound := base.toNat_lt
  have wordBound := word.toNat_lt
  omega

end SerialNumber
