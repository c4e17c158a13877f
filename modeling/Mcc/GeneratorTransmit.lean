import Mathlib

/-!
The transmission of the stream generator's packets. A full table is handed to the NIC, what does not
go out is freed, and the table is emptied; the flush at the end leaves the table as it is.
-/

namespace Mcc.GeneratorTransmit

def maxBurst : Nat := 128

structure Thread where
  mTable : List Nat
  allocated : Nat
  tx : Nat
  dropped : Nat
  handed : List Nat
  freed : List Nat

def attempts (nic : Nat → Nat) (cnt : Nat) : Nat → Nat → Nat
  | 0, nbTx => nbTx
  | retry + 1, nbTx =>
    if nbTx < cnt then attempts nic cnt retry (nbTx + min (nic retry) (cnt - nbTx)) else nbTx

def pktRetryCount : Nat := 1000

def sendBurst (t : Thread) (nic : Nat → Nat) : Thread :=
  let cnt := t.mTable.length
  let nbTx := attempts nic cnt pktRetryCount (min (nic pktRetryCount) cnt)
  { t with
    tx := t.tx + nbTx
    dropped := t.dropped + (cnt - nbTx)
    handed := t.handed ++ t.mTable.take nbTx
    freed := t.freed ++ t.mTable.drop nbTx }

def flush (t : Thread) (nic : Nat → Nat) : Thread :=
  if t.mTable.length > 0 then sendBurst t nic else t

def Thread.add (t : Thread) : Thread :=
  { t with mTable := t.mTable ++ [t.allocated], allocated := t.allocated + 1 }

abbrev Call := Bool × (Nat → Nat)

def sendPkt (burst : Nat) (t : Thread) (call : Call) : Option Thread :=
  if call.1 then
    if t.mTable.length < maxBurst then
      if t.add.mTable.length ≥ burst then some { sendBurst t.add call.2 with mTable := [] }
      else some t.add
    else none
  else some t

def start : Thread := ⟨[], 0, 0, 0, [], []⟩

def Thread.released (t : Thread) : List Nat := t.handed ++ t.freed

def Accounted (burst : Nat) (calls : List Call) (flushes : List (Nat → Nat)) : Prop :=
  ∃ queued, calls.foldlM (sendPkt burst) start = some queued ∧
    (flushes.foldl flush queued).released.Nodup ∧
    (flushes ≠ [] → (flushes.foldl flush queued).released.Perm (List.range queued.allocated) ∧
      (flushes.foldl flush queued).tx + (flushes.foldl flush queued).dropped = queued.allocated)

structure Sound (burst : Nat) (t : Thread) : Prop where
  all : (t.released ++ t.mTable).Perm (List.range t.allocated)
  counted : t.tx + t.dropped = t.released.length
  length : t.mTable.length = t.allocated % burst

variable (t : Thread) (nic : Nat → Nat)

theorem attempts_le (cnt retry : Nat) {nbTx : Nat} (small : nbTx ≤ cnt) :
    attempts nic cnt retry nbTx ≤ cnt := by
  induction retry generalizing nbTx with
  | zero => exact small
  | succ retry ih =>
    rw [attempts]
    split
    · exact ih (by omega)
    · exact small

theorem sendBurst_released : (sendBurst t nic).released.Perm (t.released ++ t.mTable) := by
  refine List.perm_iff_count.mpr fun mbuf => ?_
  simp only [sendBurst, Thread.released]
  generalize attempts nic t.mTable.length _ _ = nbTx
  have split := congrArg (List.count mbuf) (List.take_append_drop nbTx t.mTable)
  simp only [List.count_append] at split ⊢
  omega

theorem sendBurst_counted {t} (counted : t.tx + t.dropped = t.released.length) :
    (sendBurst t nic).tx + (sendBurst t nic).dropped = (sendBurst t nic).released.length := by
  have sent := attempts_le nic t.mTable.length pktRetryCount (Nat.min_le_right (nic pktRetryCount) _)
  rw [(sendBurst_released t nic).length_eq, List.length_append, ← counted]
  simp only [sendBurst]
  omega

theorem flush_eq : flush t nic = sendBurst t nic := by
  unfold flush
  split
  · rfl
  · have empty : t.mTable = [] := List.eq_nil_of_length_eq_zero (by omega)
    have zero := Nat.le_zero.mp (attempts_le nic 0 pktRetryCount (Nat.le_refl 0))
    cases t
    cases empty
    simp [sendBurst, zero]

theorem flushes_released (flushes : List (Nat → Nat)) : (flushes.foldl flush t).released.length =
    t.released.length + flushes.length * t.mTable.length := by
  induction flushes generalizing t with
  | nil => simp
  | cons nic rest ih =>
    rw [List.foldl_cons, ih, flush_eq, (sendBurst_released t nic).length_eq, List.length_append,
      List.length_cons, Nat.succ_mul, Nat.add_assoc, Nat.add_comm t.mTable.length]
    rfl

variable {t} {burst : Nat} (range : 0 < burst ∧ burst ≤ maxBurst)
include range

theorem sendPkt_sound (sound : Sound burst t) (call : Call) :
    ∃ next, sendPkt burst t call = some next ∧ Sound burst next ∧
      next.allocated = t.allocated + call.1.toNat := by
  obtain ⟨all, counted, length⟩ := sound
  have room := Nat.mod_lt t.allocated range.1
  have next := Nat.mod_add_mod t.allocated burst 1
  have more : t.add.mTable.length = t.mTable.length + 1 := List.length_append
  have added : (t.add.released ++ t.add.mTable).Perm (List.range t.add.allocated) := by
    simp only [Thread.add, List.range_succ, ← List.append_assoc]
    exact all.append_right _
  unfold sendPkt
  split
  case isTrue got =>
    rw [if_pos (by omega), got]
    split
    · rw [show t.allocated % burst + 1 = burst by omega, Nat.mod_self] at next
      refine ⟨_, rfl, ⟨?_, sendBurst_counted call.2 counted, next⟩, rfl⟩
      rw [List.append_nil]
      exact (sendBurst_released t.add call.2).trans added
    · rw [Nat.mod_eq_of_lt (by omega), ← length] at next
      exact ⟨_, rfl, ⟨added, counted, more.trans next⟩, rfl⟩
  case isFalse off =>
    rw [Bool.not_eq_true] at off
    exact ⟨t, rfl, ⟨all, counted, length⟩, by rw [off]; rfl⟩

theorem run_sound (sound : Sound burst t) (calls : List Call) :
    ∃ queued, calls.foldlM (sendPkt burst) t = some queued ∧ Sound burst queued ∧
      queued.allocated = t.allocated + calls.countP (·.1) := by
  induction calls generalizing t with
  | nil => exact ⟨t, rfl, sound, rfl⟩
  | cons call rest ih =>
    obtain ⟨next, sent, sound, more⟩ := sendPkt_sound range sound call
    obtain ⟨queued, run, sound, total⟩ := ih sound
    rw [List.foldlM_cons, sent, List.countP_cons]
    refine ⟨queued, run, sound, ?_⟩
    rw [total, more]
    cases call.1 <;> simp [Nat.add_assoc, Nat.add_comm]

/-- A second flush is harmless only when the calls have left the table empty. -/
theorem accounted_iff (calls : List Call) (flushes : List (Nat → Nat)) :
    Accounted burst calls flushes ↔ flushes.length ≤ 1 ∨ calls.countP (·.1) % burst = 0 := by
  obtain ⟨queued, ran, ⟨all, counted, length⟩, total⟩ :=
    run_sound range (t := start) ⟨.refl [], rfl, (Nat.zero_mod _).symm⟩ calls
  rw [total, show start.allocated = 0 from rfl, Nat.zero_add] at length
  constructor
  · rintro ⟨other, same, -, once⟩
    obtain rfl := Option.some.inj (ran.symm.trans same)
    by_cases few : flushes.length ≤ 1
    · exact .inl few
    · have twice := (once (List.ne_nil_of_length_pos (by omega))).1.trans all.symm
      have sizes := twice.length_eq
      rw [flushes_released, List.length_append] at sizes
      have : 2 * queued.mTable.length ≤ flushes.length * queued.mTable.length :=
        Nat.mul_le_mul_right _ (by omega)
      exact .inr (by omega)
  · intro condition
    have distinct := all.nodup_iff.mpr List.nodup_range
    rcases flushes with _ | ⟨nic, rest⟩
    · exact ⟨queued, ran, (List.nodup_append.mp distinct).1, fun flushed => absurd rfl flushed⟩
    have released := sendBurst_released queued nic
    -- Either no further flush follows, or those that do find the table empty.
    have once : (nic :: rest).foldl flush queued = sendBurst queued nic := by
      rw [List.foldl_cons, flush_eq]
      rcases condition with few | full
      · rw [List.eq_nil_of_length_eq_zero (Nat.le_zero.mp (Nat.le_of_succ_le_succ few))]
        rfl
      · exact List.foldl_fixed' (fun _ => if_neg (by change ¬queued.mTable.length > 0; omega)) rest
    refine ⟨queued, ran, ?_, fun _ => ⟨?_, ?_⟩⟩ <;> rw [once]
    · exact released.nodup_iff.mpr distinct
    · exact released.trans all
    · rw [sendBurst_counted nic counted, (released.trans all).length_eq, List.length_range]

omit range

theorem accounted_one : (0 < 2 ∧ 2 ≤ maxBurst) ∧ Accounted 2 [(true, fun _ => 1)] [fun _ => 1] :=
  ⟨by decide, (accounted_iff (by decide) _ _).mpr (.inl (by decide))⟩

theorem flushed_twice : ¬Accounted 2 [(true, fun _ => 1)] [fun _ => 1, fun _ => 1] := by
  rintro ⟨queued, ran, distinct, -⟩
  obtain rfl : start.add = queued := Option.some.inj ran
  exact absurd distinct (by decide)

end Mcc.GeneratorTransmit
