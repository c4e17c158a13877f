import Mathlib

/-!
The Toeplitz hash: every set bit of the input adds the window of the key that starts at the bit's
own position. A window follows from the one before it by shifting the next bit of the key in.
-/

namespace Toeplitz

variable {w v : Nat} (key : Nat → Bool)

def window (key : Nat → Bool) (start : Nat) : (w : Nat) → BitVec w
  | 0 => 0#0
  | w + 1 => (window key start w).concat (key (start + w))

def hash (w : Nat) (key : Nat → Bool) : Nat → List Bool → BitVec w
  | _, [] => 0
  | start, bit :: rest => (if bit then window key start w else 0) ^^^ hash w key (start + 1) rest

def leading (count : Nat) (value : BitVec v) : List Bool := (List.range count).map value.getMsbD

def bits (value : BitVec v) : List Bool := leading v value

@[simp] theorem leading_length (count : Nat) (value : BitVec v) : (leading count value).length = count := by
  simp [leading]

theorem leading_succ (count : Nat) (value : BitVec v) :
    leading (count + 1) value = value.msb :: leading count (value <<< 1) := by
  rw [leading, List.range_succ_eq_map, List.map_cons, List.map_map]
  refine congrArg₂ _ rfl (List.map_congr_left fun bit _ => ?_)
  exact (BitVec.getMsbD_shiftLeft value 1).symm

theorem getLsbD_window (start bit : Nat) (inside : bit < w) :
    (window key start w).getLsbD bit = key (start + (w - 1 - bit)) := by
  induction w generalizing bit with
  | zero => exact absurd inside (Nat.not_lt_zero bit)
  | succ w ih =>
    rw [window, BitVec.getLsbD_concat]
    cases bit with
    | zero => simp
    | succ bit =>
      rw [if_neg (Nat.succ_ne_zero bit), Nat.add_sub_cancel, ih bit (by omega)]
      congr 2
      omega

theorem window_succ (start : Nat) :
    window key (start + 1) w =
      (window key start w <<< 1) ||| (BitVec.ofBool (key (start + w))).setWidth w := by
  refine BitVec.eq_of_getLsbD_eq fun bit inside => ?_
  rw [getLsbD_window key _ _ inside, BitVec.getLsbD_or, BitVec.getLsbD_shiftLeft,
    BitVec.getLsbD_setWidth, BitVec.getLsbD_ofBool]
  cases bit with
  | zero =>
    have last : start + 1 + (w - 1) = start + w := by omega
    simp [last, inside]
  | succ bit =>
    have same : start + 1 + (w - 1 - (bit + 1)) = start + (w - 1 - bit) := by omega
    have before : bit < w := by omega
    simp [inside, same, getLsbD_window key start bit before]

theorem hash_append (start : Nat) (first second : List Bool) :
    hash w key start (first ++ second) =
      hash w key start first ^^^ hash w key (start + first.length) second := by
  induction first generalizing start with
  | nil => simp [hash]
  | cons bit rest ih =>
    rw [List.cons_append, hash, ih, hash, BitVec.xor_assoc, List.length_cons,
      Nat.add_right_comm, Nat.add_assoc]

end Toeplitz
