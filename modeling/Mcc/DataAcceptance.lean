import Mcc.AdvertisedWindow

/-!
What becomes of data that contains the next expected byte and lies in the receive window:
`ValidateSequence` and `ProcessTCPPayload` measure it against `rcv_nxt`, `RBPut` against the head of
the buffer, which an application's reads have moved forward.
-/

namespace Mcc

open SerialNumber IntervalList RingBuffer

def Segment.behind (segment : Segment) (s : TcpStream) : Nat := (s.rcv.rcvNxt - segment.seq).toNat

structure Segment.Expected (segment : Segment) (s : TcpStream) : Prop where
  packet : segment.payload.length < 2 ^ 16
  next : segment.behind s < segment.payload.length
  window : segment.payload.length ≤ segment.behind s + s.rcv.rcvWnd.toNat

def Taken (config : Config) (around : Surroundings) (segment : Segment) (s : TcpStream) : Prop :=
  ∃ checked t moved, validateSequence config around.curTs segment s = (checked, true) ∧
    processTCPPayload config around segment checked = .ok (t, moved) ∧
    tcpSeqGeq t.rcv.rcvNxt (segment.seq + segment.payloadlen)

def Stamped (segment : Segment) (s : TcpStream) : Prop :=
  segment.flags.rst = false → s.rcv.sawTimestamp = true →
    ∃ stamp, segment.timestamp = some stamp ∧ ¬tcpSeqLt stamp.1 s.rcv.tsRecent

variable {config : Config} {around : Surroundings} {segment : Segment} {s : TcpStream}
  {buff : TcpRingBuffer}

theorem Segment.places (segment : Segment) (s : TcpStream) :
    s.rcv.rcvNxt = plus segment.seq (segment.behind s) ∧
      segment.seq + segment.payloadlen = plus segment.seq segment.payload.length ∧
      s.rcv.rcvNxt + s.rcv.rcvWnd = plus segment.seq (segment.behind s + s.rcv.rcvWnd.toNat) := by
  have next : s.rcv.rcvNxt = plus segment.seq (segment.behind s) := (plus_toNat_sub _ _).symm
  refine ⟨next, rfl, ?_⟩
  rw [← plus_plus, ← next, plus, UInt32.ofNat_toNat]

theorem validateWindow_expected (expected : segment.Expected s)
    (small : s.rcv.rcvWnd.toNat < 2 ^ 31) (curTs : UInt32) :
    validateWindow config curTs segment s = (s, true) := by
  obtain ⟨next, ends, edge⟩ := segment.places s
  have inside := expected.next
  have window := expected.window
  unfold validateWindow
  rw [if_pos]
  rw [tcpSeqBetween, tcpSeqGeq, tcpSeqLeq, edge, next, ends,
    signed_plus_sub_plus _ (by omega) (by omega), signed_plus_sub_plus _ (by omega) (by omega)]
  omega

theorem validateSequence_expected (expected : segment.Expected s)
    (small : s.rcv.rcvWnd.toNat < 2 ^ 31) (curTs : UInt32) :
    (∃ checked, validateSequence config curTs segment s = (checked, true)) ↔ Stamped segment s := by
  unfold validateSequence Stamped
  split
  · rename_i asks
    cases stamp : segment.timestamp with
    | none => simp [asks]
    | some pair =>
      by_cases old : tcpSeqLt pair.1 s.rcv.tsRecent
      · simp [old, asks]
      · have passes := @validateWindow_expected config segment { s with rcv := { s.rcv with
          tsLastTsUpd := if tcpSeqGt pair.1 s.rcv.tsRecent then curTs else s.rcv.tsLastTsUpd
          tsRecent := pair.1
          tsLastackRcvd := pair.2 } } { expected with } small curTs
        simp [old, passes]
  · rename_i skips
    simp only [validateWindow_expected expected small, Prod.mk.injEq, and_true, exists_eq', true_iff]
    exact fun rst saw => absurd ⟨rst, saw⟩ skips

theorem validateSequence_rcv {curTs checked}
    (done : validateSequence config curTs segment s = (checked, true)) :
    checked.state = s.state ∧ checked.rcv.rcvNxt = s.rcv.rcvNxt ∧
      checked.rcv.rcvWnd = s.rcv.rcvWnd ∧ checked.rcv.rcvbuf = s.rcv.rcvbuf := by
  have validated := (validateSequence_spec config curTs segment s).1
  rw [done] at validated
  have rcv {α : Type} (field : RecvVars → α) := congrArg field validated.rcv
  exact ⟨validated.state, rcv (·.rcvNxt), rcv (·.rcvWnd), rcv (·.rcvbuf)⟩

theorem processTCPPayload_expected (state : s.state = .established) (held : s.rcv.rcvbuf = some buff)
    (fitted : Fitted config s) (expected : segment.Expected s) :
    (∃ t moved, processTCPPayload config around segment s = .ok (t, moved) ∧
        tcpSeqGeq t.rcv.rcvNxt (segment.seq + segment.payloadlen)) ↔
      tcpSeqGeq segment.seq buff.headSeq := by
  simp only [Fitted, held] at fitted
  obtain ⟨sound, isNxt, isWnd⟩ := fitted
  have bounded := config.rbm.bounded
  have merged := sound.mergedLen_le
  obtain ⟨packet, inside, window⟩ := expected
  obtain ⟨next, ends, edge⟩ := segment.places s
  have wnd : s.rcv.rcvWnd.toNat = config.rbm.chunkSize - buff.mergedLen := by
    rw [isWnd, UInt32.toNat_ofNat']
    omega
  have stores : processTCPPayload config around segment s = storePayload segment buff s := by
    unfold processTCPPayload
    simp only [ends, edge, held]
    rw [if_neg, if_neg]
    · rw [tcpSeqGt, signed_plus_sub_plus _ (by omega) (by omega)]
      omega
    · rw [tcpSeqLt, next, signed_plus_sub_plus _ (by omega) (by omega)]
      omega
  have length : segment.payloadlen.toNat = segment.payload.length := by
    rw [Segment.payloadlen, UInt32.toNat_ofNat']
    omega
  have stored {after : TcpRingBuffer} {ret : Int}
      (put : rbPut buff segment.payload segment.payloadlen segment.seq = .ok (after, ret)) :
      ∃ t moved, storePayload segment buff s = .ok (t, moved) ∧
        t.rcv.rcvNxt = plus after.headSeq after.mergedLen := by
    simp only [storePayload, put, discardPayload, state, reduceCtorEq, or_self, ↓reduceIte, bind,
      Except.bind, pure, Except.pure]
    split <;> exact ⟨_, _, rfl, rfl⟩
  rw [stores]
  rcases Nat.lt_or_ge buff.mergedLen (segment.behind s) with before | joins
  · -- the segment starts before the head: `RBPut` drops it whole
    have head : buff.headSeq = plus segment.seq (segment.behind s - buff.mergedLen) := by
      refine (UInt32.add_left_inj (UInt32.ofNat buff.mergedLen)).mp ?_
      change plus _ _ = plus _ _
      rw [plus_plus, Nat.sub_add_cancel (Nat.le_of_lt before), ← next, isNxt]
    have distance : signed (segment.seq - buff.headSeq) =
        -((segment.behind s - buff.mergedLen : Nat) : Int) := by
      have zero := signed_plus_sub_plus segment.seq
        (show 0 < segment.behind s - buff.mergedLen + 2 ^ 31 by omega) (by omega)
      rw [show plus segment.seq 0 = segment.seq from UInt32.add_zero _, ← head] at zero
      omega
    refine iff_of_false ?_ (by rw [tcpSeqGeq, distance]; omega)
    rintro ⟨t, moved, done, reached⟩
    obtain ⟨⟨after, ret⟩, put, -⟩ := bind_ok done
    have old : 2 ^ 31 < (segment.seq - buff.headSeq).toNat := by
      have word := (segment.seq - buff.headSeq).toNat_lt
      simp only [signed] at distance
      split at distance <;> omega
    obtain ⟨u, _, finish, nxt⟩ := stored put
    cases done.symm.trans finish
    rw [nxt, rbPut_old old put, ← isNxt, next, ends, tcpSeqGeq,
      signed_plus_sub_plus _ (by omega) (by omega)] at reached
    omega
  · have start : segment.seq = plus buff.headSeq (buff.mergedLen - segment.behind s) := by
      refine (UInt32.add_left_inj (UInt32.ofNat (segment.behind s))).mp ?_
      change plus _ _ = plus _ _
      rw [plus_plus, Nat.sub_add_cancel joins, ← next, isNxt]
    have offset : (segment.seq - buff.headSeq).toNat = buff.mergedLen - segment.behind s := by
      have distance := toNat_plus_sub_plus buff.headSeq
        (Nat.zero_le (buff.mergedLen - segment.behind s)) (by omega)
      rwa [show plus buff.headSeq 0 = buff.headSeq from UInt32.add_zero _, ← start] at distance
    obtain ⟨after, put, reaches⟩ := @Sound.accepts _ _ segment.payload segment.seq sound (by omega)
    have reaches := reaches (by omega)
    obtain ⟨soundAfter, head, -⟩ := sound.put (Nat.le_of_eq length) (by rw [UInt32.toNat_add]; omega) put
    have fits := soundAfter.mergedLen_le
    obtain ⟨t, moved, done, nxt⟩ := stored put
    refine iff_of_true ⟨t, moved, done, ?_⟩ ?_
    · rw [nxt, head, ends, start, plus_plus, tcpSeqGeq, signed_plus_sub_plus _ (by omega) (by omega)]
      omega
    · simp only [tcpSeqGeq, signed]
      split <;> omega

theorem run_fitted {host after steps opening}
    (started : start config opening = .ok host) (fits : ∀ taken ∈ steps, taken.Fits config)
    (done : run config host steps = .ok after) : Honours config 0 after.stream := by
  refine @run_preserves config (fun _ taken => taken.Fits config)
    (fun host => Honours config 0 host.stream) ?_ _ _ _ (start_honours started)
    (Along.of_forall (fun taken member _ => fits taken member) host) done
  intro host taken next honours fits stepped
  obtain ⟨stream, streamStepped, isNext⟩ := bind_ok stepped
  cases isNext
  exact fun live => (step_honours fits honours streamStepped live).mono (Nat.zero_le _)

theorem expected_data_taken_iff {host after : Host} {steps : List Step} {opening : Opening}
    (started : start config opening = .ok host) (fits : ∀ taken ∈ steps, taken.Fits config)
    (done : run config host steps = .ok after) (live : after.stream.onHashTable = true)
    (state : after.stream.state = .established) (held : after.stream.rcv.rcvbuf = some buff)
    (expected : segment.Expected after.stream) :
    Taken config around segment after.stream ↔
      tcpSeqGeq segment.seq buff.headSeq ∧ Stamped segment after.stream := by
  have fitted := (run_fitted started fits done live).receiving (by rw [state]; rfl)
  have bounded := config.rbm.bounded
  have small : after.stream.rcv.rcvWnd.toNat < 2 ^ 31 := by
    simp only [Fitted, held] at fitted
    rw [fitted.2.2, UInt32.toNat_ofNat']
    omega
  have stamped := @validateSequence_expected config _ _ expected small around.curTs
  have kept {checked : TcpStream}
      (passes : validateSequence config around.curTs segment after.stream = (checked, true)) :
      (∃ t moved, processTCPPayload config around segment checked = .ok (t, moved) ∧
          tcpSeqGeq t.rcv.rcvNxt (segment.seq + segment.payloadlen)) ↔
        tcpSeqGeq segment.seq buff.headSeq := by
    obtain ⟨sameState, rcvNxt, rcvWnd, rcvbuf⟩ := validateSequence_rcv passes
    have behind : segment.behind checked = segment.behind after.stream := by
      rw [Segment.behind, rcvNxt]
      rfl
    refine processTCPPayload_expected (sameState.trans state) (rcvbuf.trans held) ?_
      ⟨expected.packet, by rw [behind]; exact expected.next,
        by rw [behind, rcvWnd]; exact expected.window⟩
    simpa only [Fitted, rcvbuf, rcvNxt, rcvWnd, held] using fitted
  constructor
  · rintro ⟨checked, t, moved, passes, rest⟩
    exact ⟨(kept passes).mp ⟨t, moved, rest⟩, stamped.mp ⟨checked, passes⟩⟩
  · rintro ⟨ahead, stamp⟩
    obtain ⟨checked, passes⟩ := stamped.mpr stamp
    obtain ⟨t, moved, rest⟩ := (kept passes).mpr ahead
    exact ⟨checked, t, moved, passes, rest⟩

def dataSegment (seq : UInt32) (payload : List UInt8) : Segment where
  seq
  ackSeq := 1
  flags := { ack := true }
  window := 65535
  payload

def readTwo : List Step :=
  [.writeControl true 0, .segment 0 none true handshakeAck,
    .segment 0 (some (List.replicate 64 0)) true (dataSegment 1 [10, 11]), .accept true, .recv 2]

def calm : Surroundings := { curTs := 0, chunk := none, listener := true, acceptRoom := true }

theorem readTwo_reached : ∃ host after buff, start sampleConfig (.passive 0 0 firstSyn) = .ok host ∧
    run sampleConfig host readTwo = .ok after ∧ after.stream.onHashTable = true ∧
    after.stream.state = .established ∧ after.stream.rcv.rcvbuf = some buff ∧ buff.headSeq = 3 ∧
    after.stream.rcv.rcvNxt = 3 ∧ after.stream.rcv.rcvWnd = 64 ∧
    after.stream.rcv.sawTimestamp = false :=
  ⟨_, _, _, rfl, rfl, rfl, rfl, rfl, rfl, rfl, rfl, rfl⟩

theorem readTwo_fits : ∀ taken ∈ readTwo, taken.Fits sampleConfig := by
  simp [readTwo, Step.Fits, sampleConfig]

theorem next_byte_taken : ∃ host after, start sampleConfig (.passive 0 0 firstSyn) = .ok host ∧
    run sampleConfig host readTwo = .ok after ∧
    Taken sampleConfig calm (dataSegment 3 [12]) after.stream := by
  obtain ⟨host, after, buff, started, done, live, state, held, head, nxt, wnd, saw⟩ := readTwo_reached
  refine ⟨host, after, started, done, (expected_data_taken_iff started readTwo_fits done live state
    held ⟨by decide, ?_, ?_⟩).mpr ⟨?_, fun _ stamped => ?_⟩⟩
  · simp [Segment.behind, nxt, dataSegment]
  · simp [Segment.behind, nxt, wnd, dataSegment]
  · rw [head]
    decide
  · rw [saw] at stamped
    cases stamped

theorem read_byte_refuses_next :
    ∃ host after, start sampleConfig (.passive 0 0 firstSyn) = .ok host ∧
      run sampleConfig host readTwo = .ok after ∧ after.stream.state = .established ∧
      (dataSegment 2 [11, 12]).Expected after.stream ∧
      ¬Taken sampleConfig calm (dataSegment 2 [11, 12]) after.stream := by
  refine ⟨_, _, rfl, rfl, rfl, ⟨by decide, by decide, by decide⟩, ?_⟩
  rintro ⟨checked, t, moved, passes, done, reached⟩
  obtain rfl := (Prod.mk.inj passes).1
  obtain rfl := (Prod.mk.inj (Except.ok.inj done)).1
  exact absurd reached (by decide)

end Mcc
