import Mcc.DataFlush

/-!
Duplicate acknowledgments: what `ProcessACK` counts as one, and how often a run of them enters the
fast retransmission.
-/

namespace Mcc

structure Arrival where
  segment : Segment
  curTs : UInt32
  stream : TcpStream

namespace Arrival

def noted (arrival : Arrival) : TcpStream :=
  noteSegment arrival.curTs arrival.segment arrival.stream

def counting (arrival : Arrival) : TcpStream × Bool :=
  let s := arrival.noted
  let ackSeq := dataAck arrival.segment s
  countDuplicate arrival.segment ackSeq (s.ctl.peerWnd + s.rcv.sndWl2)
    (updateWindow arrival.segment ackSeq s)

def Counted (arrival : Arrival) : Prop :=
  arrival.counting.2 = true ∧ ∃ buf, arrival.stream.seqs.sndbuf = some buf ∧
    ¬tcpSeqGt (dataAck arrival.segment arrival.noted) (buf.headSeq + buf.len)

def entersFast (arrival : Arrival) : Bool := arrival.counting.1.rcv.dupAcks = 3

def IsDuplicate (arrival : Arrival) : Prop :=
  arrival.segment.payload = [] ∧ arrival.segment.ackSeq = arrival.stream.seqs.sndUna ∧
    tcpSeqLt arrival.stream.seqs.sndUna arrival.stream.seqs.sndNxt ∧
    scaledWindow arrival.segment arrival.stream.ctl = arrival.stream.ctl.peerWnd

/-- What `ProcessACK` does not look at: the last acknowledgment number was `snd_una`, this one is
not that of the FIN, and an empty segment that repeats it repeats the window. -/
structure Plain (arrival : Arrival) : Prop where
  last : arrival.stream.rcv.lastAckSeq = arrival.stream.seqs.sndUna
  noFin : arrival.stream.seqs.isFinSent = true → arrival.segment.ackSeq ≠ arrival.stream.seqs.fss + 1
  window : arrival.segment.payload = [] → arrival.segment.ackSeq = arrival.stream.seqs.sndUna →
    scaledWindow arrival.segment arrival.stream.ctl = arrival.stream.ctl.peerWnd

end Arrival

inductive CountedRun : TcpStream → List Arrival → TcpStream → Prop
  | start {s t} (same : t.rcv.dupAcks = s.rcv.dupAcks) : CountedRun s [] t
  | next {s u v arrival seen} (before : CountedRun s seen arrival.stream) (counted : arrival.Counted)
      (done : processACK arrival.curTs arrival.segment arrival.noted = .ok u)
      (same : v.rcv.dupAcks = u.rcv.dupAcks) : CountedRun s (arrival :: seen) v

theorem estimate_dupAcks (mrtt : UInt32) (seqs : SendSeq) (rcv : RecvVars) :
    (estimate mrtt seqs rcv).dupAcks = rcv.dupAcks := by
  unfold estimate
  dsimp only
  split
  · rfl
  · split <;> rfl

variable {arrival : Arrival}

theorem Arrival.Counted.facts (counted : arrival.Counted) :
    tcpSeqLt (dataAck arrival.segment arrival.noted) arrival.stream.seqs.sndNxt ∧
      dataAck arrival.segment arrival.noted = arrival.stream.rcv.lastAckSeq ∧
      arrival.segment.payload = [] ∧
      arrival.counting.1.rcv.dupAcks = arrival.stream.rcv.dupAcks + 1 := by
  obtain ⟨dupAcks, lastAckSeq, dup, counting, counts⟩ := countDuplicate_form arrival.segment
    (dataAck arrival.segment arrival.noted) (arrival.noted.ctl.peerWnd + arrival.noted.rcv.sndWl2)
    (updateWindow arrival.segment (dataAck arrival.segment arrival.noted) arrival.noted)
  obtain ⟨_, _, _, _, windowed, -⟩ :=
    updateWindow_form arrival.segment (dataAck arrival.segment arrival.noted) arrival.noted
  have isDup := counted.1
  rw [Arrival.counting, counting] at isDup ⊢
  rw [windowed] at counts
  exact counts isDup

theorem Arrival.Counted.dupAcks {t : TcpStream} (counted : arrival.Counted)
    (done : processACK arrival.curTs arrival.segment arrival.noted = .ok t) :
    t.rcv.dupAcks = arrival.stream.rcv.dupAcks + 1 := by
  obtain ⟨buf, held, inside⟩ := counted.2
  have next := counted.facts.2.2.2
  unfold processACK at done
  rw [show arrival.noted.seqs.sndbuf = some buf from held] at done
  dsimp only at done
  rw [if_neg inside] at done
  obtain ⟨resent, fast, acked⟩ := bind_ok done
  have kept : resent.rcv.dupAcks = arrival.stream.rcv.dupAcks + 1 := by
    obtain ⟨_, _, _, _, _, rfl, -⟩ := fastRetransmit_form fast
    exact next
  refine @acknowledge_preserves _ _ _ _ (fun u => u.rcv.dupAcks = arrival.stream.rcv.dupAcks + 1) _ _
    (fun same measures => ?_) (fun same grows => ?_) (fun same => ?_) (fun same timer => ?_) ?_ acked
  · obtain ⟨rcv, rto, rfl | ⟨mrtt, rfl⟩, rfl⟩ := measureRTT_form measures
    · exact same
    · exact (estimate_dupAcks _ _ _).trans same
  · obtain ⟨cwnd, rfl⟩ := growWindow_form grows
    exact same
  · unfold removeAcked
    dsimp only
    split <;> exact same
  · obtain ⟨-, tsRto, rfl⟩ := updateRetransmissionTimer_form timer
    exact same
  · rw [recoverAfterLoss_spec]
    exact kept

theorem CountedRun.entries {s t : TcpStream} {seen : List Arrival} (ran : CountedRun s seen t)
    (fresh : s.rcv.dupAcks = 0) (few : seen.length < 259) :
    t.rcv.dupAcks = UInt8.ofNat seen.length ∧
      seen.countP Arrival.entersFast = if seen.length < 3 then 0 else 1 := by
  induction ran with
  | start same => exact ⟨same.trans fresh, rfl⟩
  | @next u v arrival seen before counted done same ih =>
    obtain ⟨count, entries⟩ := ih (Nat.lt_of_succ_lt few)
    have next : arrival.stream.rcv.dupAcks + 1 = UInt8.ofNat (seen.length + 1) := by
      rw [count]
      exact (UInt8.ofNat_add _ _).symm
    refine ⟨same.trans ((counted.dupAcks done).trans next), ?_⟩
    have enters : arrival.entersFast = decide (seen.length = 2) := by
      rw [Arrival.entersFast, counted.facts.2.2.2, next, decide_eq_decide,
        ← UInt8.toNat_inj, UInt8.toNat_ofNat']
      rw [List.length_cons] at few
      change (seen.length + 1) % 256 = 3 ↔ _
      omega
    rw [List.countP_cons, entries, enters, List.length_cons]
    by_cases two : seen.length = 2
    · simp [two]
    · simp only [two, decide_false, Bool.false_eq_true, if_false, Nat.add_zero]
      split <;> split <;> omega

theorem duplicates_right (s t : TcpStream) (seen : List Arrival) (fresh : s.rcv.dupAcks = 0)
    (ran : CountedRun s seen t) (few : seen.length < 259) (plain : ∀ arrival ∈ seen, arrival.Plain) :
    (∀ arrival ∈ seen, arrival.IsDuplicate) ∧ seen.countP Arrival.entersFast ≤ 1 := by
  refine ⟨?_, ?_⟩
  · clear few fresh
    induction ran with
    | start => exact List.forall_mem_nil _
    | @next u v arrival seen before counted done same ih =>
      rw [List.forall_mem_cons] at plain ⊢
      refine ⟨?_, ih plain.2⟩
      obtain ⟨last, noFin, window⟩ := plain.1
      obtain ⟨below, repeated, empty, -⟩ := counted.facts
      have ack : dataAck arrival.segment arrival.noted = arrival.segment.ackSeq :=
        if_neg fun fin => noFin fin.2.1 fin.2.2
      rw [ack, last] at repeated
      rw [ack, repeated] at below
      exact ⟨empty, repeated, below, window empty repeated⟩
  · rw [(ran.entries fresh few).2]
    split <;> decide

def repeatedAck (window : UInt16) : Arrival where
  segment := { flags := { ack := true }, seq := 0, ackSeq := 1, window }
  curTs := 0
  stream := { flushing 1460 with
    seqs := { (flushing 1460).seqs with sndNxt := 2 }
    rcv := { (flushing 1460).rcv with lastAckSeq := 1, sndWl1 := 0, sndWl2 := 1 } }

def repeatedAt (dupAcks : UInt8) : Arrival :=
  let first := repeatedAck 10
  { first with stream := { first.stream with rcv := { first.stream.rcv with dupAcks } } }

theorem duplicates_right_once : (repeatedAt 2).entersFast = true ∧
    (∀ arrival ∈ [3, 2, 1, 0].map repeatedAt, arrival.IsDuplicate) ∧
      ([3, 2, 1, 0].map repeatedAt).countP Arrival.entersFast ≤ 1 := by
  have counted : ∀ dupAcks ∈ [3, 2, 1, 0], (repeatedAt dupAcks).Counted := by
    intro dupAcks member
    fin_cases member <;> exact ⟨by decide, _, rfl, by decide⟩
  have ran : CountedRun (repeatedAt 0).stream ([3, 2, 1, 0].map repeatedAt) _ :=
    .next (.next (.next (.next (.start rfl) (counted 0 (by decide)) rfl rfl)
      (counted 1 (by decide)) rfl rfl) (counted 2 (by decide)) rfl rfl)
      (counted 3 (by decide)) rfl rfl
  refine ⟨by decide, duplicates_right _ _ _ rfl ran (by decide) fun arrival member => ?_⟩
  obtain ⟨dupAcks, -, rfl⟩ := List.mem_map.mp member
  exact ⟨rfl, nofun, fun _ _ => rfl⟩

theorem window_update_counted : (repeatedAck 20).Counted ∧ ¬(repeatedAck 20).IsDuplicate :=
  ⟨⟨by decide, _, rfl, by decide⟩, fun duplicate => nomatch duplicate.2.2.2⟩

end Mcc
