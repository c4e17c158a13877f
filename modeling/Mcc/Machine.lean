import Mcc.SerialNumber

/-!
What the C code can do wrong, and the byte copies that can do it. A computation that
would fail an assertion, follow a null pointer or leave a buffer ends in a `Fault`.
-/

namespace Mcc

inductive Fault where
  | assertion
  | nullPointer
  | outOfBounds
  | divisionByZero
  deriving Repr, DecidableEq

theorem bind_ok {ε α β : Type} {value : Except ε α} {next : α → Except ε β} {result : β}
    (done : value >>= next = .ok result) :
    ∃ produced, value = .ok produced ∧ next produced = .ok result := by
  cases value with
  | error error => cases done
  | ok produced => exact ⟨produced, rfl, done⟩

def sizeT (value : Int) : Nat := (value % 2 ^ 64).toNat

def memcpy (memory : List UInt8) (target : Int) (source : List UInt8) (count : Nat) :
    Except Fault (List UInt8) :=
  if 0 ≤ target ∧ target + count ≤ memory.length ∧ count ≤ source.length then
    .ok (memory.take target.toNat ++ source.take count ++ memory.drop (target.toNat + count))
  else .error .outOfBounds

def memmove (memory : List UInt8) (target origin : Int) (count : Nat) :
    Except Fault (List UInt8) :=
  if 0 ≤ origin ∧ origin + count ≤ memory.length then
    memcpy memory target (memory.drop origin.toNat) count
  else .error .outOfBounds

variable {memory source : List UInt8} {target count : Nat} (room : target + count ≤ memory.length)
  (supply : count ≤ source.length)
include room supply

theorem memcpy_ok : memcpy memory target source count =
      .ok (memory.take target ++ source.take count ++ memory.drop (target + count)) := by
  have inside : (0 : Int) ≤ target ∧ (target : Int) + count ≤ memory.length ∧
      count ≤ source.length := ⟨by omega, by omega, supply⟩
  simp [memcpy, inside]

theorem length_copied :
    (memory.take target ++ source.take count ++ memory.drop (target + count)).length = memory.length := by
  simp only [List.length_append, List.length_take, List.length_drop]
  omega

theorem getElem?_copied (index : Nat) :
    (memory.take target ++ source.take count ++ memory.drop (target + count))[index]? =
      if target ≤ index ∧ index < target + count then source[index - target]?
      else memory[index]? := by
  have takeLength : (memory.take target).length = target := by
    simp only [List.length_take]
    omega
  have copyLength : (source.take count).length = count := by
    simp only [List.length_take]
    omega
  rcases Nat.lt_or_ge index target with below | above
  · rw [List.append_assoc, List.getElem?_append_left (by omega), List.getElem?_take_of_lt below,
      if_neg (by omega)]
  · rcases Nat.lt_or_ge index (target + count) with inside | beyond
    · rw [List.getElem?_append_left (by simp only [List.length_append]; omega),
        List.getElem?_append_right (by omega), takeLength, List.getElem?_take_of_lt (by omega),
        if_pos ⟨above, inside⟩]
    · rw [List.getElem?_append_right (by simp only [List.length_append]; omega),
        List.getElem?_drop, if_neg (by omega)]
      congr 1
      simp only [List.length_append]
      omega

end Mcc
