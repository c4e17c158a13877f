import Mcc.TcpBlur

/-!
What a segment that `ValidateSequence` refuses leaves behind. The timestamp of the segment is
recorded before its sequence number is looked at.
-/

namespace Mcc

open SerialNumber Lockstep

def Late (s : TcpStream) : Prop := TcpState.synRcvd.number < s.state.number

instance (s : TcpStream) : Decidable (Late s) := inferInstanceAs (Decidable (_ < _))

def rejects (config : Config) (curTs : UInt32) (segment : Segment) (s : TcpStream) : Bool :=
  !(validateSequence config curTs segment s).2

structure NoTrace (s after : TcpStream) : Prop where
  tsRecent : after.rcv.tsRecent = s.rcv.tsRecent
  tsLastackRcvd : after.rcv.tsLastackRcvd = s.rcv.tsLastackRcvd
  rcvNxt : after.rcv.rcvNxt = s.rcv.rcvNxt
  rcvbuf : after.rcv.rcvbuf = s.rcv.rcvbuf
  sndUna : after.seqs.sndUna = s.seqs.sndUna
  sndNxt : after.seqs.sndNxt = s.seqs.sndNxt
  sndbuf : after.seqs.sndbuf = s.seqs.sndbuf
  peerWnd : after.ctl.peerWnd = s.ctl.peerWnd
  rest : Alike (blur .acks) after s

def NothingToRecord (segment : Segment) (s : TcpStream) : Prop :=
  segment.flags.rst = true ∨ s.rcv.sawTimestamp = false ∨
    ∀ tsVal tsRef, segment.timestamp = some (tsVal, tsRef) →
      tcpSeqLt tsVal s.rcv.tsRecent ∨ tsVal = s.rcv.tsRecent ∧ tsRef = s.rcv.tsLastackRcvd

theorem noTrace_of_alike {s after} (alike : Alike (blur .acks) after s) : NoTrace s after where
  tsRecent := alike.field (f := (·.rcv.tsRecent)) fun _ => rfl
  tsLastackRcvd := alike.field (f := (·.rcv.tsLastackRcvd)) fun _ => rfl
  rcvNxt := alike.field (f := (·.rcv.rcvNxt)) fun _ => rfl
  rcvbuf := alike.field (f := (·.rcv.rcvbuf)) fun _ => rfl
  sndUna := alike.field (f := (·.seqs.sndUna)) fun _ => rfl
  sndNxt := alike.field (f := (·.seqs.sndNxt)) fun _ => rfl
  sndbuf := alike.field (f := (·.seqs.sndbuf)) fun _ => rfl
  peerWnd := alike.field (f := (·.ctl.peerWnd)) fun _ => rfl
  rest := alike

theorem enqueueACK_schedules (opt : AckOption) (plain : opt ≠ .wack) (s : TcpStream) :
    Alike (blur .acks) (enqueueACK opt s) s := by
  simp [Alike, blur, enqueueACK, plain]

theorem validateWindow_schedules (config : Config) (curTs : UInt32) (segment : Segment)
    (s : TcpStream) : Alike (blur .acks) (validateWindow config curTs segment s).1 s := by
  unfold validateWindow
  split
  · exact .refl s
  · split
    · exact .refl s
    · split
      · split
        · exact enqueueACK_schedules .aggregate nofun s
        · exact enqueueACK_schedules .now nofun s
      · split
        · rfl
        · rfl

def recordTimestamp (curTs tsVal tsRef : UInt32) (s : TcpStream) : TcpStream :=
  { s with rcv := { s.rcv with
      tsLastTsUpd := if tcpSeqGt tsVal s.rcv.tsRecent then curTs else s.rcv.tsLastTsUpd
      tsRecent := tsVal
      tsLastackRcvd := tsRef } }

theorem recordTimestamp_same (curTs : UInt32) (s : TcpStream) :
    recordTimestamp curTs s.rcv.tsRecent s.rcv.tsLastackRcvd s = s := by
  have same : ¬ tcpSeqGt s.rcv.tsRecent s.rcv.tsRecent := by
    simp [tcpSeqGt, signed]
  unfold recordTimestamp
  rw [if_neg same]

theorem validateSequence_schedules (config : Config) (curTs : UInt32) (segment : Segment)
    (s : TcpStream) :
    Alike (blur .acks) (validateSequence config curTs segment s).1 s ∧ NothingToRecord segment s ∨
      ∃ tsVal tsRef, segment.flags.rst = false ∧ s.rcv.sawTimestamp = true ∧
        segment.timestamp = some (tsVal, tsRef) ∧ ¬ tcpSeqLt tsVal s.rcv.tsRecent ∧
        Alike (blur .acks) (validateSequence config curTs segment s).1
          (recordTimestamp curTs tsVal tsRef s) := by
  unfold validateSequence
  split
  · rename_i checked
    obtain ⟨rst, saw⟩ := checked
    cases timestamp : segment.timestamp with
    | none =>
      refine .inl ⟨.refl s, .inr (.inr fun tsVal tsRef has => ?_)⟩
      rw [timestamp] at has
      cases has
    | some values =>
      obtain ⟨tsVal, tsRef⟩ := values
      dsimp only
      split
      · rename_i old
        refine .inl ⟨enqueueACK_schedules .now nofun s, .inr (.inr fun tsVal tsRef has => .inl ?_)⟩
        rw [timestamp] at has
        cases has
        exact old
      · rename_i recent
        exact .inr ⟨tsVal, tsRef, rst, saw, rfl, recent,
          validateWindow_schedules config curTs segment (recordTimestamp curTs tsVal tsRef s)⟩
  · rename_i unchecked
    refine .inl ⟨validateWindow_schedules config curTs segment s, ?_⟩
    by_cases rst : segment.flags.rst = true
    · exact .inl rst
    · refine .inr (.inl ?_)
      by_contra saw
      exact unchecked ⟨Bool.eq_false_iff.mpr rst, Bool.eq_true_of_not_eq_false saw⟩

theorem processTCPPacket_rejected {config around segment s} (late : Late s)
    (rejected : rejects config around.curTs segment s) :
    processTCPPacket config around segment s =
      .ok (validateSequence config around.curTs segment s).1 := by
  have invalid : (validateSequence config around.curTs segment s).2 = false := by
    simpa [rejects] using rejected
  unfold processTCPPacket
  rw [if_pos (show _ < _ from late)]
  dsimp only
  rw [invalid]
  rfl

theorem noTrace_iff {config curTs segment s} :
    NoTrace s (validateSequence config curTs segment s).1 ↔ NothingToRecord segment s := by
  rcases validateSequence_schedules config curTs segment s with
    ⟨alike, nothing⟩ | ⟨tsVal, tsRef, rst, saw, timestamp, recent, alike⟩
  · exact ⟨fun _ => nothing, fun _ => (noTrace_of_alike alike)⟩
  constructor
  · intro trace
    refine .inr (.inr fun tsVal' tsRef' has => .inr ?_)
    rw [timestamp] at has
    cases has
    exact ⟨(noTrace_of_alike alike).tsRecent.symm.trans trace.tsRecent,
      (noTrace_of_alike alike).tsLastackRcvd.symm.trans trace.tsLastackRcvd⟩
  · intro nothing
    rcases nothing with reset | unseen | repeats
    · cases rst.symm.trans reset
    · cases saw.symm.trans unseen
    · obtain ⟨rfl, rfl⟩ := (repeats tsVal tsRef timestamp).resolve_left recent
      rw [recordTimestamp_same] at alike
      exact (noTrace_of_alike alike)

def Drops (config : Config) (curTs : UInt32) (segment : Segment) (s : TcpStream) : Prop :=
  Late s ∧ rejects config curTs segment s

instance (config : Config) (curTs : UInt32) (segment : Segment) (s : TcpStream) :
    Decidable (Drops config curTs segment s) := inferInstanceAs (Decidable (_ ∧ _))

theorem drops_alike (config : Config) (curTs : UInt32) (segment : Segment) {s t}
    (alike : Alike (blur .acks) s t) : Drops config curTs segment s ↔ Drops config curTs segment t := by
  have state : s.state = t.state := alike.field blur_state
  have verdict := (validateSequence_alike config curTs segment alike).2
  rw [Drops, Drops, Late, Late, rejects, rejects, state, verdict]

/-- A refused segment leaves no trace exactly if it brings no timestamp to record. Every further run
of quiet steps then refuses the same segments as without it. -/
theorem rejected_no_trace_iff {config : Config} {around : Surroundings} {segment : Segment}
    {s : TcpStream} (dropped : Drops config around.curTs segment s) :
    ∃ after, processTCPPacket config around segment s = .ok after ∧
      (NoTrace s after ↔ NothingToRecord segment s) ∧
      (NothingToRecord segment s → ∀ listener steps, (∀ taken ∈ steps, taken.Quiet) →
        Both (fun host undisturbed => ∀ curTs later,
            Drops config curTs later host.stream ↔ Drops config curTs later undisturbed.stream)
          (run config { stream := after, listener } steps)
          (run config { stream := s, listener } steps)) := by
  refine ⟨_, processTCPPacket_rejected dropped.1 dropped.2, noTrace_iff, ?_⟩
  intro nothing listener steps quiet
  have alike : Alike (blur .acks) (validateSequence config around.curTs segment s).1 s :=
    (noTrace_iff.mpr nothing).rest
  have hosts : AlikeHosts (blur .acks)
      { stream := (validateSequence config around.curTs segment s).1, listener }
      { stream := s, listener } := ⟨alike, rfl⟩
  refine (run_blind config hosts quiet).mono fun host undisturbed alike => ?_
  intro curTs later
  exact drops_alike config curTs later alike.1

def stampedSegment (flags : Flags) (seq tsVal : UInt32) : Segment where
  flags := flags
  seq := seq
  ackSeq := 101
  window := 65535
  mssOption := if flags.syn then some 1460 else none
  timestampOption := if flags.syn then some tsVal else none
  timestamp := some (tsVal, 0)

def stampedHandshake : List Step :=
  [.connectq, .writeControl true 0,
    .segment 1 none false (stampedSegment { syn := true, ack := true } 500 50)]

theorem repeated_timestamp_no_trace : ∃ host established after,
    start sampleConfig (.active 100 true false) = .ok host ∧
      run sampleConfig host stampedHandshake = .ok established ∧
      processTCPPacket sampleConfig { curTs := 2, chunk := none, listener := false, acceptRoom := false }
        (stampedSegment { ack := true } 100000 50) established.stream = .ok after ∧
      NoTrace established.stream after := by
  obtain ⟨host, established, started, ran, dropped, tsRecent, tsLastackRcvd⟩ :
      ∃ host established, start sampleConfig (.active 100 true false) = .ok host ∧
        run sampleConfig host stampedHandshake = .ok established ∧
        Drops sampleConfig 2 (stampedSegment { ack := true } 100000 50) established.stream ∧
        established.stream.rcv.tsRecent = 50 ∧ established.stream.rcv.tsLastackRcvd = 0 :=
    ⟨_, _, rfl, rfl, by decide, rfl, rfl⟩
  obtain ⟨after, done, noTrace, -⟩ := @rejected_no_trace_iff sampleConfig
    { curTs := 2, chunk := none, listener := false, acceptRoom := false }
    (stampedSegment { ack := true } 100000 50) established.stream dropped
  refine ⟨host, established, after, started, ran, done, noTrace.mpr (.inr (.inr ?_))⟩
  intro tsVal tsRef timestamp
  cases timestamp
  exact .inr ⟨tsRecent.symm, tsLastackRcvd.symm⟩

theorem rejected_timestamp_drops_next : ∃ host established after,
    start sampleConfig (.active 100 true false) = .ok host ∧
      run sampleConfig host stampedHandshake = .ok established ∧
      Drops sampleConfig 2 (stampedSegment { ack := true } 100000 1000000) established.stream ∧
      processTCPPacket sampleConfig { curTs := 2, chunk := none, listener := false, acceptRoom := false }
        (stampedSegment { ack := true } 100000 1000000) established.stream = .ok after ∧
      after.rcv.tsRecent ≠ established.stream.rcv.tsRecent ∧
      Drops sampleConfig 3 (stampedSegment { ack := true } 501 51) after ∧
      ¬ Drops sampleConfig 3 (stampedSegment { ack := true } 501 51) established.stream := by
  refine ⟨_, _, _, rfl, rfl, ?_, rfl, ?_, ?_, ?_⟩ <;> decide

end Mcc
