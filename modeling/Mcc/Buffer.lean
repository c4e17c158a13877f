import Mathlib

/-!
The byte buffer of a connection: the live bytes of a block of memory, from the offset `head` on.
-/

namespace Mcc

structure Buffer where
  bytes : List UInt8
  head : Nat
  cap : Nat
  exp : Nat
  bounded : head + bytes.length ≤ cap

namespace Buffer

def empty : Buffer where
  bytes := []
  head := 0
  cap := 0
  exp := 2048
  bounded := Nat.le_refl _

def append (buf : Buffer) (data : List UInt8) : Buffer :=
  if fits : buf.head + buf.bytes.length + data.length ≤ buf.cap then
    { buf with
      bytes := buf.bytes ++ data
      bounded := by
        rw [List.length_append]
        omega }
  else if half : buf.bytes.length + data.length < buf.cap / 2 then
    { buf with
      bytes := buf.bytes ++ data
      head := 0
      bounded := by
        rw [List.length_append]
        omega }
  else
    { buf with
      bytes := buf.bytes ++ data
      head := 0
      cap := max buf.exp (max (2 * buf.cap) (buf.bytes.length + data.length))
      bounded := by
        rw [List.length_append]
        omega }

/-- `append` of the buffer's own bytes. What is copied is lost if the block is given up before. -/
def appendSelf (buf : Buffer) : Option Buffer :=
  if buf.head + buf.bytes.length + buf.bytes.length ≤ buf.cap then some (buf.append buf.bytes)
  else none

@[simp]
theorem append_bytes (buf : Buffer) (data : List UInt8) :
    (buf.append data).bytes = buf.bytes ++ data := by
  unfold append
  split
  · rfl
  · split <;> rfl

def space (buf : Buffer) : Nat :=
  buf.cap - (buf.head + buf.bytes.length)

def makeRoom (buf : Buffer) : Buffer :=
  if buf.space < buf.exp then
    { buf with
      head := 0
      cap := max buf.exp (max (2 * buf.cap) buf.bytes.length)
      bounded := by omega }
  else buf

/-- `add_size` after a read of `data` into the free space, which has to hold it. -/
def addSize (buf : Buffer) (data : List UInt8) : Option Buffer :=
  if fits : buf.head + buf.bytes.length + data.length ≤ buf.cap then
    some { buf with
      bytes := buf.bytes ++ data
      bounded := by
        rw [List.length_append]
        omega }
  else none

def consume (buf : Buffer) (len : Nat) : Option Buffer :=
  if less : len < buf.bytes.length then
    some { buf with
      bytes := buf.bytes.drop len
      head := buf.head + len
      bounded := by
        have := buf.bounded
        rw [List.length_drop]
        omega }
  else if len = buf.bytes.length then some { empty with exp := buf.exp }
  else none

inductive Call where
  | makeRoom
  | addSize (data : List UInt8)
  | consume (len : Nat)

def call (buf : Buffer) : Call → Option Buffer
  | .makeRoom => some buf.makeRoom
  | .addSize data => buf.addSize data
  | .consume len => buf.consume len

inductive Reached (allowed : Buffer → Call → Prop) (exp live : Nat) : Buffer → Prop where
  | start : Reached allowed exp live { empty with exp }
  | step {buf next} (made : Call) : Reached allowed exp live buf → allowed buf made →
      buf.call made = some next → next.bytes.length ≤ live → Reached allowed exp live next

def GrowsFull (buf : Buffer) (made : Call) : Prop :=
  made = .makeRoom → buf.space < buf.exp → buf.head = 0

section

variable {allowed : Buffer → Call → Prop} {exp live : Nat} {buf next : Buffer} {made : Call}

theorem call_cases (done : buf.call made = some next) : next.exp = buf.exp ∧
    (next.cap ≤ buf.cap ∨ (made = .makeRoom ∧ buf.space < buf.exp) ∧
      next.cap = max buf.exp (max (2 * buf.cap) buf.bytes.length)) := by
  cases made with
  | makeRoom =>
    cases done
    unfold makeRoom
    split
    · exact ⟨rfl, .inr ⟨⟨rfl, ‹_›⟩, rfl⟩⟩
    · exact ⟨rfl, .inl (Nat.le_refl _)⟩
  | addSize data =>
    rw [call, addSize] at done
    split at done <;> cases done
    exact ⟨rfl, .inl (Nat.le_refl _)⟩
  | consume len =>
    rw [call, consume] at done
    split at done
    · cases done
      exact ⟨rfl, .inl (Nat.le_refl _)⟩
    · split at done <;> cases done
      exact ⟨rfl, .inl (Nat.zero_le _)⟩

theorem Reached.fixed (reached : Reached allowed exp live buf) :
    buf.exp = exp ∧ buf.bytes.length ≤ live := by
  induction reached with
  | start => exact ⟨rfl, Nat.zero_le _⟩
  | step _ _ _ done within ih => exact ⟨(call_cases done).1.trans ih.1, within⟩

theorem capacity_within (reached : Reached GrowsFull exp live buf) : buf.cap ≤ 2 * (live + exp) := by
  induction reached with
  | start => exact Nat.zero_le _
  | step made before full done _ ih =>
    obtain ⟨sized, within⟩ := before.fixed
    obtain ⟨-, kept | ⟨⟨isRoom, short⟩, grown⟩⟩ := call_cases done
    · exact Nat.le_trans kept ih
    · have front := full isRoom short
      unfold space at short
      omega

end

theorem capacity_within_grown : ∃ buf : Buffer, buf.bytes = [2, 3] ∧ buf.head = 1 ∧ buf.cap = 8 ∧
    buf.cap ≤ 2 * (2 + 4) := by
  have room := @Reached.step GrowsFull 4 2 _ _ .makeRoom .start (fun _ _ => rfl) rfl (by decide)
  have filled := Reached.step (.addSize [1, 2]) room (by rintro ⟨⟩) rfl (by decide)
  have grown := Reached.step .makeRoom filled (fun _ _ => rfl) rfl (by decide)
  have consumed := Reached.step (.consume 1) grown (by rintro ⟨⟩) rfl (by decide)
  have refilled := Reached.step (.addSize [3]) consumed (by rintro ⟨⟩) rfl (by decide)
  exact ⟨_, rfl, rfl, rfl, capacity_within refilled⟩

def Single (head cap : Nat) : Prop :=
  ∃ buf, Reached (fun _ _ => True) 2048 2 buf ∧ buf.bytes.length = 1 ∧ buf.head = head ∧ buf.cap = cap

theorem Single.slides {cap : Nat} (single : Single 0 cap) (count : Nat) (room : count + 1 ≤ cap) :
    Single count cap := by
  induction count with
  | zero => exact single
  | succ count ih =>
    obtain ⟨buf, reached, one, rfl, rfl⟩ := ih (Nat.le_of_succ_le room)
    have fits : buf.head + buf.bytes.length + [(0 : UInt8)].length ≤ buf.cap := by
      simpa [one] using room
    have added := Reached.step (.addSize [0]) reached trivial (dif_pos fits) (by simp [one])
    have dropped := Reached.step (.consume 1) added trivial (dif_pos (by simp [one])) (by simp [one])
    exact ⟨_, dropped, by simp [one], rfl, rfl⟩

theorem single_doubled (rounds : Nat) : Single 0 (2048 * 2 ^ rounds) := by
  induction rounds with
  | zero =>
    exact ⟨_, .step (.addSize [0]) (.step .makeRoom .start trivial rfl (by decide)) trivial rfl
      (by decide), rfl, rfl, rfl⟩
  | succ rounds ih =>
    have least := Nat.one_le_two_pow (n := rounds)
    obtain ⟨buf, reached, one, front, is⟩ := ih.slides (2048 * 2 ^ rounds - 2048) (by omega)
    have sized := reached.fixed.1
    have short : buf.space < buf.exp := by
      unfold space
      omega
    have grown : buf.makeRoom.cap = 2048 * 2 ^ (rounds + 1) ∧ buf.makeRoom.head = 0 ∧
        buf.makeRoom.bytes = buf.bytes := by
      unfold makeRoom
      rw [if_pos short]
      refine ⟨?_, rfl, rfl⟩
      dsimp only
      omega
    refine ⟨_, .step .makeRoom reached trivial rfl ?_, ?_, grown.2.1, grown.1⟩
    · rw [grown.2.2, one]
      decide
    · rw [grown.2.2, one]

theorem capacity_unbounded : ¬∃ factor, ∀ exp live buf, Reached (fun _ _ => True) exp live buf →
    buf.cap ≤ factor * (live + exp) := by
  rintro ⟨factor, bounds⟩
  obtain ⟨buf, reached, -, -, is⟩ := single_doubled (factor + 1)
  have within := bounds _ _ buf reached
  have more := Nat.lt_two_pow_self (n := factor)
  rw [is, Nat.pow_succ] at within
  omega

end Buffer

end Mcc
