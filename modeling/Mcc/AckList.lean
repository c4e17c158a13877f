import Mcc.WindowUpdate

/-!
The ACK list: a stream that `EnqueueACK` has put there stays until a segment that acknowledges as
much has been sent, as long as its six-bit counter does not overflow.
-/

namespace Mcc

open SerialNumber

def Pending (s : TcpStream) : Prop :=
  s.lists.onAckList = true ∧ (s.lists.ackCnt ≠ 0 ∨ s.lists.isWack = true)

def Action.Acking (seq : UInt32) (count : Nat) : Action → Prop
  | .sent packet => packet.flags.ack = true ∧ ∃ more ≤ count, packet.ackSeq = plus seq more
  | _ => False

/-- While `rcv_nxt` moves by `count`, every segment sent acknowledges at least what it was, and
without one what is pending stays pending. -/
structure Acks (count : Nat) (s t : TcpStream) : Prop where
  rcvNxt : t.rcv.rcvNxt = plus s.rcv.rcvNxt count
  history : Grows (Action.Acking s.rcv.rcvNxt count) s.history t.history
  pending : t.history = s.history → Pending s → Pending t

section Service

variable {s t u : TcpStream} {curTs : UInt32} {buffers : Nat}

theorem Acks.refl (s : TcpStream) : Acks 0 s s :=
  ⟨(UInt32.add_zero _).symm, .refl _ _, fun _ => id⟩

theorem Acks.sent {wack payload} (rcv : t.rcv.rcvNxt = s.rcv.rcvNxt)
    (history : t.history = .sent (packetOf { ack := true } wack payload s) :: s.history) :
    Acks 0 s t where
  rcvNxt := rcv.trans (UInt32.add_zero _).symm
  history := history ▸ Grows.cons ⟨rfl, 0, Nat.le_refl 0, (UInt32.add_zero _).symm⟩ _
  pending same := absurd (history.symm.trans same) (List.cons_ne_self _ _)

theorem Acks.trans {first second} (before : Acks first s t) (after : Acks second t u) :
    Acks (first + second) s u where
  rcvNxt := by rw [after.rcvNxt, before.rcvNxt, plus_plus]
  history := by
    refine (before.history.mono fun action acking => ?_).trans
      (after.history.mono fun action acking => ?_)
    · cases action with
      | sent packet =>
        obtain ⟨ack, more, bound, ackSeq⟩ := acking
        exact ⟨ack, more, by omega, ackSeq⟩
      | _ => exact acking
    · cases action with
      | sent packet =>
        obtain ⟨ack, more, bound, ackSeq⟩ := acking
        exact ⟨ack, first + more, by omega, by rw [ackSeq, before.rcvNxt, plus_plus]⟩
      | _ => exact acking
  pending same waits := by
    have between := before.history.same after.history same
    exact after.pending (same.trans between.symm) (before.pending between waits)

theorem Acks.andThen (before : Acks 0 s t) (after : Acks 0 t u) : Acks 0 s u := before.trans after

theorem flushPass_acks {output result}
    (done : flushPass output curTs s = .ok result) : Acks 0 s result.1 :=
  flushPass_keeps done (Acks.refl s) { Acks.refl s with
    pending := fun _ _ => ⟨rfl, .inr (Bool.or_true _)⟩ }
    fun _ _ => Acks.sent rfl rfl

theorem flush_acks {result}
    (done : flushTCPSendingBuffer buffers curTs s = .ok result) : Acks 0 s result.1 := by
  unfold flushTCPSendingBuffer at done
  split at done
  · cases done
  · split at done
    · cases done
      exact .refl s
    · exact flushLoop_preserves (fun _ _ _ before passed => before.andThen (flushPass_acks passed))
        buffers s 0 result (.refl s) done

theorem finishData_acks {packets} (acks : Acks 0 s t)
    (counted : t.history = s.history → packets ≤ 0) : Acks 0 s (finishData packets t) := by
  refine ⟨acks.rcvNxt, acks.history, fun same waits => ?_⟩
  obtain ⟨on, count | wack⟩ := acks.pending same waits
  · exact ⟨on, .inl (finishData_ackCnt (counted same) count)⟩
  · exact ⟨on, .inr wack⟩

theorem writeTCPDataList_acks (done : writeTCPDataList buffers curTs s = .ok t) : Acks 0 s t := by
  obtain ⟨⟨after, ret⟩, serve, finish⟩ := bind_ok done
  have served : Acks 0 s after ∧ (after.history = s.history → ret ≤ 0) := by
    unfold serveData at serve
    repeat' split at serve
    case h_1.isFalse | h_2 | h_3 | h_4 => exact ⟨flush_acks serve, (flush_emits serve).2⟩
    all_goals
      cases serve
      exact ⟨.refl s, fun _ => by decide⟩
  dsimp only at finish
  split at finish <;> cases finish
  · exact served.1
  · exact finishData_acks served.1 served.2

theorem ackLoop_acks (count : Nat) : ∀ (buffers : Nat) (s : TcpStream),
    Acks 0 s (ackLoop curTs count buffers s).1 := by
  induction count with
  | zero => exact fun _ s => .refl s
  | succ count ih =>
    intro buffers s
    unfold ackLoop
    rcases @sendBare_cases curTs (0 < buffers) s with large | full | ⟨-, sent⟩
    · rw [large]
      exact .refl s
    · rw [full]
      exact .refl s
    · rw [sent]
      refine Acks.andThen ?_ (ih (buffers - 1) _)
      exact Acks.sent rfl rfl

theorem sendWack_acks : Acks 0 s (sendWack buffers curTs s) := by
  unfold sendWack
  split
  · rcases sendTCPPacket_cases (0 < buffers) curTs { ack := true } true [] 0 s with
      ⟨same, failed, -⟩ | ⟨-, -, sent⟩
    · dsimp only
      rw [same]
      exact { Acks.refl s with pending := fun _ waits => ⟨waits.1, .inr (by simpa using failed)⟩ }
    · rw [sent]
      exact Acks.sent rfl rfl
  · exact Acks.refl s

theorem writeTCPACKList_acks (acks : toAck s = true) : Acks 0 s (writeTCPACKList buffers curTs s) := by
  have served : Acks 0 s (serveACKs buffers curTs s) := by
    unfold serveACKs
    rw [if_pos acks]
    have looped := @ackLoop_acks curTs s.lists.ackCnt.toNat buffers s
    generalize ackLoop curTs s.lists.ackCnt.toNat buffers s = result at looped ⊢
    obtain ⟨acked, left⟩ := result
    refine (looped.andThen (@sendWack_acks acked curTs left)).andThen ?_
    exact { Acks.refl _ with pending := fun _ waits => ⟨by simpa using waits.2, waits.2⟩ }
  exact served.andThen { Acks.refl _ with }

end Service

inductive AckCall where
  | enqueue (opt : AckOption)
  | writeAck (buffers : Nat) (curTs : UInt32)
  | writeData (buffers : Nat) (curTs : UInt32)
  | receive (count : Nat) (rcvbuf : Option RingBuffer.TcpRingBuffer)

namespace AckCall

def apply (s : TcpStream) : AckCall → Except Fault TcpStream
  | .enqueue opt => .ok (enqueueACK opt s)
  | .writeAck buffers curTs => .ok (writeTCPACKList buffers curTs s)
  | .writeData buffers curTs => writeTCPDataList buffers curTs s
  | .receive count rcvbuf =>
    .ok { s with rcv := { s.rcv with rcvNxt := plus s.rcv.rcvNxt count, rcvbuf } }

def run (s : TcpStream) (calls : List AckCall) : Except Fault TcpStream := calls.foldlM apply s

def moves : AckCall → Nat
  | .receive count _ => count
  | _ => 0

def Allowed (s : TcpStream) : AckCall → Prop
  | .enqueue .now => s.lists.ackCnt < 63
  | .writeAck _ _ => toAck s = true
  | _ => True

def Along : TcpStream → List AckCall → Prop
  | _, [] => True
  | s, call :: rest => call.Allowed s ∧ ∀ t, call.apply s = .ok t → Along t rest

variable {s t : TcpStream} {opt : AckOption} {call : AckCall}

theorem enqueue_pending (allowed : (AckCall.enqueue opt).Allowed s) : Pending (enqueueACK opt s) := by
  refine ⟨rfl, ?_⟩
  cases opt with
  | now =>
    refine .inl fun zero => ?_
    have low : s.lists.ackCnt.toNat < 63 := UInt8.lt_iff_toNat_lt.mp allowed
    have value : (s.lists.ackCnt.toNat + 1) % 256 % 64 = 0 := congrArg UInt8.toNat zero
    omega
  | aggregate =>
    refine .inl ?_
    simp only [enqueueACK]
    split
    · decide
    · assumption
  | wack => exact .inr (Bool.or_true _)

theorem apply_acks (allowed : call.Allowed s) (done : call.apply s = .ok t) : Acks call.moves s t := by
  cases call with
  | enqueue opt =>
    cases done
    exact { Acks.refl s with pending := fun _ _ => enqueue_pending allowed }
  | writeAck buffers curTs =>
    cases done
    exact writeTCPACKList_acks allowed
  | writeData buffers curTs => exact writeTCPDataList_acks done
  | receive count rcvbuf =>
    cases done
    exact ⟨rfl, .refl _ _, fun _ => id⟩

theorem run_acks (calls : List AckCall) : ∀ {s}, Along s calls →
    run s calls = .ok t → Acks (calls.map moves).sum s t := by
  induction calls with
  | nil =>
    intro s _ done
    cases done
    exact .refl t
  | cons call rest ih =>
    intro s along done
    obtain ⟨next, called, done⟩ := bind_ok (show call.apply s >>= _ = _ from done)
    exact (apply_acks along.1 called).trans (ih (along.2 next called) done)

end AckCall

/-- After `EnqueueACK` the stream is on the list, or a segment sent since then acknowledges what had
been received, or more. -/
theorem ack_sent_or_listed (s t : TcpStream) (opt : AckOption) (calls : List AckCall)
    (allowed : AckCall.Along s (.enqueue opt :: calls))
    (done : AckCall.run s (.enqueue opt :: calls) = .ok t) :
    t.lists.onAckList = true ∨ ∃ packet added, t.history = added ++ s.history ∧ .sent packet ∈ added ∧
      (Action.sent packet).Acking s.rcv.rcvNxt (calls.map AckCall.moves).sum := by
  have acks := AckCall.run_acks calls (allowed.2 _ rfl) done
  obtain ⟨added, grown, acking⟩ := acks.history
  cases added with
  | nil => exact .inl (acks.pending grown (AckCall.enqueue_pending allowed.1)).1
  | cons action others =>
    have sent := acking action List.mem_cons_self
    cases action with
    | sent packet => exact .inr ⟨packet, _, grown, List.mem_cons_self, sent⟩
    | _ => cases sent

def acknowledging (ackCnt : UInt8) : TcpStream :=
  let created := createTCPStream sampleConfig true 0
  { created with
    state := .established
    lists := { created.lists with ackCnt, onAckList := true }
    rcv := { created.rcv with
      rcvNxt := 1
      rcvbuf := some (RingBuffer.rbInit sampleConfig.rbm (List.replicate 64 0) 1) } }

theorem ack_sent_or_listed_once : ∃ t packet added,
    AckCall.run (acknowledging 0) [.enqueue .now, .writeAck 1 0] = .ok t ∧
      (t.lists.onAckList = true ∨ t.history = added ++ [] ∧ .sent packet ∈ added) := by
  have kept := ack_sent_or_listed (acknowledging 0) _ .now [.writeAck 1 0]
    ⟨show (0 : UInt8) < 63 by decide, fun _ first =>
      ⟨by cases first; rfl, fun _ _ => trivial⟩⟩ rfl
  obtain listed | ⟨packet, added, grown, member, -⟩ := kept
  · cases listed
  · exact ⟨_, packet, added, rfl, .inr ⟨grown, member⟩⟩

theorem sixty_fourth_ack_lost : ∃ t,
    AckCall.run (acknowledging 63) [.enqueue .now, .writeAck 100 0] = .ok t ∧
      t.lists.onAckList = false ∧ t.history = (acknowledging 63).history :=
  ⟨_, rfl, rfl, rfl⟩

end Mcc
