import Mcc.CongestionWindow
import Mcc.DuplicateAck
import Mcc.Handshake

/-!
What a connection takes from its peer: the segment size and the window scale of the SYN, and the
window of every segment.
-/

namespace Mcc

/-- A segment has room for a byte beside the timestamp option, and the congestion window can grow. -/
def SendControl.Usable (ctl : SendControl) : Prop :=
  12 < ctl.mss ∧ ctl.effMss ≠ 0 ∧ (ctl.cwnd ≠ 0 ∨ ctl.ssthresh ≠ 0)

structure Tuned (before after : SendControl) : Prop where
  wscalePeer : after.wscalePeer = before.wscalePeer
  peerWnd : after.peerWnd = before.peerWnd
  usable : before.Usable → after.Usable

theorem Tuned.refl (ctl : SendControl) : Tuned ctl ctl := ⟨rfl, rfl, id⟩

theorem Tuned.trans {before between after} (first : Tuned before between)
    (second : Tuned between after) : Tuned before after :=
  ⟨second.wscalePeer.trans first.wscalePeer, second.peerWnd.trans first.peerWnd,
    second.usable ∘ first.usable⟩

variable {config : Config} {around : Surroundings} {segment : Segment} {curTs : UInt32}
  {s t u : TcpStream}

theorem ne_zero_of_lt {small large : UInt32} (less : small < large) : large ≠ 0 := by
  rintro rfl
  exact absurd less UInt32.not_lt_zero

theorem double_mss_ne_zero {mss : UInt16} (large : 12 < mss) : 2 * mss.toUInt32 ≠ 0 := by
  have least := UInt16.lt_iff_toNat_lt.mp large
  have bound := mss.toNat_lt
  intro zero
  have same := congrArg UInt32.toNat zero
  simp only [UInt32.toNat_mul, UInt16.toNat_toUInt32, UInt32.reduceToNat] at same
  omega

theorem mss_ne_zero {mss : UInt16} (large : 12 < mss) : mss.toUInt32 ≠ 0 :=
  fun zero => double_mss_ne_zero large (by rw [zero]; rfl)

theorem initialCwnd_ne_zero {ctl : SendControl} (large : 12 < ctl.mss) : initialCwnd ctl ≠ 0 := by
  unfold initialCwnd
  split
  · rw [UInt32.mul_comm]
    exact double_mss_ne_zero large
  · exact mss_ne_zero large

theorem halvedWindow_ne_zero {ctl : SendControl} (large : 12 < ctl.mss) : halvedWindow ctl ≠ 0 := by
  have double := double_mss_ne_zero large
  unfold halvedWindow
  dsimp only
  split
  · exact double
  · rename_i half
    intro zero
    rw [zero] at half
    exact half (UInt32.pos_iff_ne_zero.mpr double)

theorem backOff_tuned (s : TcpStream) : Tuned s.ctl (backOff s).ctl :=
  ⟨rfl, rfl, fun usable => ⟨usable.1, usable.2.1, .inl (mss_ne_zero usable.1)⟩⟩

theorem timer_tuned (done : updateRetransmissionTimer curTs s = .ok t) : Tuned s.ctl t.ctl := by
  obtain ⟨-, tsRto, rfl⟩ := updateRetransmissionTimer_form done
  exact ⟨rfl, rfl, id⟩

theorem fastRetransmit_tuned {ackSeq : UInt32} {dup : Bool}
    (done : fastRetransmit ackSeq dup s = .ok t) : Tuned s.ctl t.ctl := by
  unfold fastRetransmit addtoSendList at done
  split at done
  · split at done <;> cases done
    exact ⟨rfl, rfl, fun usable => ⟨usable.1, usable.2.1, .inr (halvedWindow_ne_zero usable.1)⟩⟩
  · split at done <;> cases done
    · exact ⟨rfl, rfl, fun usable => ⟨usable.1, usable.2.1, .inl (ne_zero_of_lt (And.right ‹_›))⟩⟩
    · exact .refl _

theorem growWindow_tuned {packets : UInt16} (done : growWindow packets s = .ok t) :
    Tuned s.ctl t.ctl := by
  unfold growWindow at done
  dsimp only at done
  split at done
  · cases done
    exact .refl _
  · split at done
    · rename_i slow
      split at done <;> cases done
      · exact ⟨rfl, rfl, fun usable => ⟨usable.1, usable.2.1, .inr (ne_zero_of_lt slow)⟩⟩
      · exact .refl _
    · split at done <;> cases done
      refine ⟨rfl, rfl, fun usable => ⟨usable.1, usable.2.1, .inl ?_⟩⟩
      dsimp only
      split
      · exact ne_zero_of_lt ‹_›
      · assumption

theorem removeAcked_tuned (segment : Segment) (ackSeq : UInt32) (buf : TcpSendBuffer)
    (s : TcpStream) : Tuned s.ctl (removeAcked segment ackSeq buf s).ctl := by
  obtain ⟨_, _, form, -⟩ := removeAcked_form segment ackSeq buf s
  rw [form]
  exact ⟨rfl, rfl, id⟩

def Noted (segment : Segment) (ctl : SendControl) : Prop := ctl.peerWnd = scaledWindow segment ctl

theorem Noted.tuned {before after} (noted : Noted segment before)
    (tuned : Tuned before after) : Noted segment after := by
  unfold Noted scaledWindow at *
  rw [tuned.wscalePeer, tuned.peerWnd, noted]

theorem updateWindow_tuned (noted : Noted segment s.ctl) (ackSeq : UInt32) :
    Tuned s.ctl (updateWindow segment ackSeq s).ctl := by
  obtain ⟨_, _, _, _, form, rfl | rfl, -⟩ := updateWindow_form segment ackSeq s <;> rw [form]
  · exact .refl _
  · exact ⟨rfl, noted.symm, id⟩

theorem resend_tuned {ackSeq edge} (noted : Noted segment s.ctl)
    (done : fastRetransmit ackSeq
      (countDuplicate segment ackSeq edge (updateWindow segment ackSeq s)).2
      (countDuplicate segment ackSeq edge (updateWindow segment ackSeq s)).1 = .ok t)
    (buf : TcpSendBuffer) : Tuned s.ctl (recoverAfterLoss ackSeq buf t).ctl := by
  rw [recoverAfterLoss_spec]
  obtain ⟨_, _, _, form, -⟩ := countDuplicate_form segment ackSeq edge (updateWindow segment ackSeq s)
  rw [form] at done
  have fast := fastRetransmit_tuned done
  exact (updateWindow_tuned noted ackSeq).trans fast

theorem receiveACK_tuned (done : receiveACK curTs segment s = .ok t)
    (noted : Noted segment s.ctl) : Tuned s.ctl t.ctl := by
  unfold receiveACK at done
  split at done
  · cases done
    exact .refl _
  · rename_i buf held
    unfold processACK at done
    rw [held] at done
    dsimp only at done
    split at done
    · cases done
      exact .refl _
    · obtain ⟨resent, fast, acked⟩ := bind_ok done
      refine @acknowledge_preserves _ _ _ _ (fun u => Tuned s.ctl u.ctl) _ _
        (fun before measures => ?_) (fun before grows => ?_) (fun before => ?_)
        (fun before timer => ?_) (resend_tuned noted fast buf) acked
      · obtain ⟨rcv, rto, -, rfl⟩ := measureRTT_form measures
        exact before.trans ⟨rfl, rfl, id⟩
      · exact before.trans (growWindow_tuned grows)
      · exact before.trans (removeAcked_tuned _ _ _ _)
      · exact before.trans (timer_tuned timer)

theorem bind_error {α β : Type} {value : Except Fault α} {next : α → Except Fault β} {fault : Fault}
    (failed : value >>= next = .error fault) :
    value = .error fault ∨ ∃ produced, value = .ok produced ∧ next produced = .error fault := by
  cases value with
  | error other =>
    cases failed
    exact .inl rfl
  | ok produced => exact .inr ⟨produced, rfl, failed⟩

theorem processACK_divides (noted : Noted segment s.ctl) (usable : s.ctl.Usable) :
    processACK curTs segment s ≠ .error .divisionByZero := by
  intro failed
  unfold processACK at failed
  dsimp only at failed
  split at failed
  · cases failed
  · split at failed
    · cases failed
    · rcases bind_error failed with fast | ⟨resent, fast, acked⟩
      · unfold fastRetransmit addtoSendList at fast
        repeat' split at fast
        all_goals cases fast
      · rename_i buf _ _
        have ready := (resend_tuned noted fast buf).usable usable
        unfold acknowledge at acked
        split at acked
        · cases acked
        · rw [if_neg ready.2.1] at acked
          rcases bind_error acked with measure | ⟨measured, measure, rest⟩
          · unfold measureRTT at measure
            dsimp only at measure
            repeat' split at measure
            all_goals cases measure
          · obtain ⟨rcv, rto, -, rfl⟩ := measureRTT_form measure
            rcases bind_error rest with grow | ⟨grown, -, timer⟩
            · unfold growWindow at grow
              dsimp only at grow
              repeat' split at grow
              all_goals first | cases grow; done | skip
              rename_i open_ flat zero
              rw [zero] at flat
              rcases ready.2.2 with window | threshold
              · exact window zero
              · exact flat (UInt32.pos_iff_ne_zero.mpr threshold)
            · unfold updateRetransmissionTimer at timer
              dsimp only at timer
              repeat' split at timer
              all_goals cases timer

theorem destroy_ctl (done : destroyTCPStream s = .ok t) : t.ctl = s.ctl := by
  unfold destroyTCPStream at done
  split at done <;> cases done
  rfl

theorem Ended.ctl (ended : Ended s t) : t.ctl = s.ctl := by
  rcases ended with ⟨-, rfl⟩ | ⟨-, destroy⟩
  · rfl
  · exact destroy_ctl destroy

theorem finAcked_tuned (segment : Segment) (s : TcpStream) : Tuned s.ctl (finAcked segment s).ctl := by
  unfold finAcked
  split
  · exact ⟨rfl, rfl, id⟩
  · exact .refl _

theorem receivePayload_ctl (done : receivePayload config around segment s = .ok t) : t.ctl = s.ctl :=
  (receivePayload_spec done).1.ctl

theorem received_tuned (receive : receivePayload config around segment s = .ok u)
    (ack : segment.flags.ack = true ∧ receiveACK around.curTs segment u = .ok t ∨
      segment.flags.ack = false ∧ t = u) (noted : Noted segment s.ctl) : Tuned s.ctl t.ctl := by
  have same := receivePayload_ctl receive
  rw [← same] at noted ⊢
  rcases ack with ⟨-, ack⟩ | ⟨-, rfl⟩
  · exact receiveACK_tuned ack noted
  · exact .refl _

theorem Absorbed.tuned (absorbed : Absorbed config around segment s t) (noted : Noted segment s.ctl) :
    Tuned s.ctl t.ctl := by
  cases absorbed with
  | established _ receive ack => exact received_tuned receive ack noted
  | acked _ ack => exact receiveACK_tuned ack noted
  | finWait1 _ _ ack receive =>
    rw [receivePayload_ctl receive]
    exact (receiveACK_tuned ack noted).trans (finAcked_tuned _ _)
  | finWait2 _ _ ack receive =>
    rw [receivePayload_ctl receive]
    exact receiveACK_tuned ack noted

theorem Answered.tuned (answered : Answered config around segment s t) (noted : Noted segment s.ctl) :
    Tuned s.ctl t.ctl := by
  cases answered
  case absorbed absorbed | gap absorbed | unsettled absorbed => exact absorbed.tuned noted
  case closing absorbed _ | bothFins absorbed _ | finLate absorbed _ _ => exact absorbed.tuned noted
  case closeWait receive ack =>
    have tuned := received_tuned receive ack noted
    exact tuned
  case lastAcked ack _ timer destroy =>
    have timed := timer_tuned timer
    rw [destroy_ctl destroy]
    exact (receiveACK_tuned ack noted).trans timed
  case timeWait ack receive =>
    refine Tuned.trans (receiveACK_tuned ack noted) ?_
    exact receivePayload_ctl receive ▸ .refl _
  case closingAcked ack _ _ timer =>
    have timed := timer_tuned timer
    exact (receiveACK_tuned ack noted).trans timed
  case resetClosing destroy =>
    rw [destroy_ctl destroy]
    exact .refl _
  case waited =>
    unfold handleTimeWait
    split <;> exact .refl _
  all_goals exact .refl _

theorem writeTCPControlList_tuned {output}
    (done : writeTCPControlList output curTs s = .ok t) : Tuned s.ctl t.ctl := by
  refine @writeTCPControlList_preserves _ _ _ (fun u => Tuned s.ctl u.ctl) _ (fun _ _ => ?_)
    (fun before => ?_) (fun before destroy => ?_) done
  · exact .refl _
  · exact before.trans ⟨rfl, rfl, id⟩
  · exact destroy_ctl destroy ▸ before

theorem tuned_of_served {before after} (served : { after with
    tsLastackSent := before.tsLastackSent, tsRto := before.tsRto } = before) : Tuned before after := by
  rw [← served]
  exact ⟨rfl, rfl, id⟩

theorem stepStream_tuned {listener taken} (quiet : taken.isSegment = false)
    (done : stepStream config listener s taken = .ok t) : Tuned s.ctl t.ctl := by
  cases stepStream_stepped done
  case segment => cases quiet
  case rtoUnopened destroy | timewaitExpire destroy | closeqReset destroy | resetqReset destroy |
      destroyq destroy =>
    exact destroy_ctl destroy ▸ .refl _
  case rtoLost ended | connectionTimeout ended => exact ended.ctl ▸ .refl _
  case rtoFailed ended => exact ended.ctl ▸ backOff_tuned (removeFromRTOList s)
  case rtoReset destroy => exact destroy_ctl destroy ▸ backOff_tuned (removeFromRTOList s)
  case rtoData | rtoFinData | rtoFin | rtoSyn => exact backOff_tuned (removeFromRTOList s)
  case writeControl done => exact writeTCPControlList_tuned done
  case writeData done =>
    refine @writeTCPDataList_preserves _ _ _ (fun u => Tuned s.ctl u.ctl) _
      (fun _ before passed => ?_) (fun before => ?_) (.refl _) done
    · exact Tuned.trans before (tuned_of_served (flushPass_flushed passed).ctl)
    · exact before
  case writeAck => exact tuned_of_served (serveACKs_served _ _ s).ctl
  case recv done =>
    rcases mtcpRecv_cases done with rfl | ⟨rcv, -, rfl | rfl⟩ <;> exact .refl _
  all_goals exact ⟨rfl, rfl, id⟩

def SaneOptions (segment : Segment) : Prop :=
  (∃ mss, segment.mssOption = some mss ∧ 12 < mss) ∧
    ∀ shift, segment.wscaleOption = some shift → shift ≤ 14

def Opening.Sane : Opening → Prop
  | .active _ _ _ => True
  | .passive _ _ segment => SaneOptions segment

/-- A SYN that comes to `SYN_SENT` carries an acknowledgment, as only then its options are read. -/
def SaneSyn (host : Host) : Step → Prop
  | .segment _ _ _ segment => host.stream.state = .synSent → segment.flags.syn = true →
      segment.flags.ack = true ∧ SaneOptions segment
  | _ => True

def WasEstablished (s : TcpStream) : Prop :=
  ∃ sndUna sndNxt irs rcvNxt, .established sndUna sndNxt irs rcvNxt ∈ s.history

structure ParametersRight (s : TcpStream) : Prop where
  scale : s.ctl.wscalePeer ≤ 14
  lossless : ∀ segment, segment.flags.syn = false → (scaledWindow segment s.ctl).toNat =
    segment.window.toNat * 2 ^ s.ctl.wscalePeer.toNat
  mss : WasEstablished s → 12 < s.ctl.mss ∧ s.ctl.effMss ≠ 0
  divides : WasEstablished s → ∀ curTs segment u, u.ctl = (noteSegment curTs segment s).ctl →
    processACK curTs segment u ≠ .error .divisionByZero

def Unopened (s : TcpStream) : Prop :=
  s.state ≠ .listen ∧ s.state ≠ .synRcvd ∧ ¬WasEstablished s

def Chosen (s : TcpStream) : Prop := s.ctl.wscalePeer ≤ 14 ∧ (s.ctl.Usable ∨ Unopened s)

theorem Unopened.settles (unopened : Unopened s) (settles : Settles s t) : Unopened t := by
  have same := fun after => (settles.same after).symm
  refine ⟨fun state => unopened.1 ?_, fun state => unopened.2.1 ?_, ?_⟩
  · rw [← same (by rw [state]; rfl), state]
  · rw [← same (by rw [state]; rfl), state]
  · rintro ⟨sndUna, sndNxt, irs, rcvNxt, member⟩
    obtain ⟨added, history, plain⟩ := settles.history
    rw [history, List.mem_append] at member
    rcases member with new | old
    · exact plain _ new
    · exact unopened.2.2 ⟨_, _, _, _, old⟩

theorem Chosen.keep (chosen : Chosen s) (tuned : Tuned s.ctl t.ctl) (settles : Settles s t) :
    Chosen t := by
  refine ⟨tuned.wscalePeer ▸ chosen.1, ?_⟩
  rcases chosen.2 with usable | unopened
  · exact .inl (tuned.usable usable)
  · exact .inr (unopened.settles settles)

theorem Chosen.read (chosen : Chosen s) (state : s.state = .listen ∨ s.state = .synRcvd)
    (tuned : Tuned s.ctl t.ctl) : Chosen t := by
  refine ⟨tuned.wscalePeer ▸ chosen.1, .inl (tuned.usable ?_)⟩
  rcases chosen.2 with usable | unopened
  · exact usable
  · exact absurd state (not_or.mpr ⟨unopened.1, unopened.2.1⟩)

theorem Watched.ctl (watched : Watched s t) : t.ctl = s.ctl := by
  rcases watched with rfl | rfl <;> rfl

theorem parse_sane (sane : SaneOptions segment) (curTs : UInt32) (s : TcpStream) :
    12 < (parseTCPOptions curTs segment s).ctl.mss ∧ (parseTCPOptions curTs segment s).ctl.effMss ≠ 0 ∧
      (s.ctl.wscalePeer ≤ 14 → (parseTCPOptions curTs segment s).ctl.wscalePeer ≤ 14) := by
  obtain ⟨⟨mss, present, large⟩, scale⟩ := sane
  simp only [parseTCPOptions, present, Option.getD_some, Option.map_some]
  refine ⟨large, fun zero => ?_, fun before => ?_⟩
  · rw [← UInt16.sub_add_cancel mss 12, zero] at large
    exact absurd large (by decide)
  · cases option : segment.wscaleOption with
    | none => exact before
    | some shift => exact scale shift option

theorem completeActiveOpen_chosen (sane : SaneOptions segment) (chosen : Chosen s)
    (done : completeActiveOpen config around segment s = .ok t) : Chosen t := by
  obtain ⟨opened, opens, rest⟩ := bind_ok done
  have parsed := parse_sane sane around.curTs
  have timed := timer_tuned opens
  have ready : opened.ctl.wscalePeer ≤ 14 ∧ opened.ctl.Usable := by
    refine ⟨timed.wscalePeer ▸ (parsed _).2.2 chosen.1, timed.usable ⟨(parsed _).1, (parsed _).2.1, ?_⟩⟩
    exact .inl (initialCwnd_ne_zero (parsed _).1)
  have same : t.ctl = { opened.ctl with nrtx := 0 } := by
    dsimp only at rest
    split at rest
    · exact (watched_of_ok rest).ctl
    · exact destroy_ctl rest
  unfold Chosen
  rw [same]
  exact ⟨ready.1, .inl ready.2⟩

theorem completePassiveOpen_tuned (done : completePassiveOpen config around segment s = .ok t) :
    Tuned s.ctl t.ctl := by
  rcases completePassiveOpen_cases done with watched | watched <;>
    exact watched.ctl ▸
      ⟨rfl, rfl, fun usable => ⟨usable.1, usable.2.1, .inl (initialCwnd_ne_zero usable.1)⟩⟩

section

variable (before : Chosen s) (sane : s.state = .synSent → segment.flags.syn = true →
  segment.flags.ack = true ∧ SaneOptions segment)
include before sane

theorem Handled.chosen (handled : Handled config around segment s t)
    (noted : Noted segment s.ctl) : Chosen t := by
  cases handled
  case same => exact before
  case answered settled answered =>
    exact before.keep (answered.tuned noted) (answered.settles settled)
  case listen state =>
    unfold handleListen
    split
    · exact before.read (.inl state) (.refl _)
    · exact before
  case simultaneous state _ syn ack =>
    rw [(sane state syn).1] at ack
    cases ack
  case synAcked => exact before
  case synReset ended =>
    refine before.keep (ended.ctl ▸ .refl _) (ended.settles ?_)
    exact settles_of_settled rfl (.inr nofun) rfl rfl
  case active state _ _ syn complete =>
    refine completeActiveOpen_chosen (sane state syn).2 ?_ complete
    exact before
  case synAgain state _ _ | synResent state => exact before.read (.inr state) (.refl _)
  case passive state _ complete => exact before.read (.inr state) (completePassiveOpen_tuned complete)
  case passiveData state _ complete _ answered =>
    have tuned := completePassiveOpen_tuned complete
    exact before.read (.inr state) (tuned.trans (answered.tuned (noted.tuned tuned)))
  case resetOpening state _ _ destroy =>
    exact before.read (.inr state) (destroy_ctl destroy ▸ .refl _)

theorem processTCPPacket_chosen (done : processTCPPacket config around segment s = .ok t) : Chosen t := by
  cases opening : s.state.opening with
  | true =>
    refine Handled.chosen ?_ ?_ (processTCPPacket_opening opening done) rfl
    · exact before
    · exact sane
  | false =>
    obtain ⟨checked, validated, outcome⟩ := processTCPPacket_settled opening done
    have kept := before.keep (validated.ctl ▸ .refl _) validated.settles
    rcases outcome with rfl | ⟨-, answered⟩
    · exact kept
    · have settled : (noteSegment around.curTs segment checked).state.opening = false :=
        validated.state ▸ opening
      refine Chosen.keep ?_ (answered.tuned rfl) (answered.settles settled)
      exact kept

end

theorem step_chosen {host next taken} (chosen : Chosen host.stream)
    (sane : SaneSyn host taken) (done : step config host taken = .ok next) : Chosen next.stream := by
  obtain ⟨stream, stepped, finish⟩ := bind_ok done
  cases finish
  cases taken
  case segment =>
    dsimp only [stepStream] at stepped
    split at stepped
    · exact processTCPPacket_chosen chosen sane stepped
    · cases stepped
      exact chosen
  all_goals
    exact chosen.keep (stepStream_tuned rfl stepped) (stepStream_settles Bool.noConfusion stepped)

theorem start_chosen {opening host} (valid : opening.Valid) (sane : opening.Sane)
    (done : start config opening = .ok host) : Chosen host.stream := by
  cases opening with
  | active iss room listener =>
    cases done
    cases room <;> exact ⟨UInt8.zero_le, .inr ⟨nofun, nofun, nofun⟩⟩
  | passive iss curTs segment =>
    cases start_passive valid.1 done
    obtain ⟨mss, effMss, scale⟩ := parse_sane sane curTs _
    exact ⟨scale UInt8.zero_le, .inl ⟨mss, effMss, .inl (show (1 : UInt32) ≠ 0 by decide)⟩⟩

theorem Chosen.right (chosen : Chosen s) : ParametersRight s := by
  have usable : WasEstablished s → s.ctl.Usable := fun was =>
    chosen.2.resolve_right fun unopened => unopened.2.2 was
  refine ⟨chosen.1, fun segment noSyn => ?_, fun was => ⟨(usable was).1, (usable was).2.1⟩,
    fun was curTs segment u same => ?_⟩
  · have small := UInt8.le_iff_toNat_le.mp chosen.1
    have bound : segment.window.toNat * 2 ^ s.ctl.wscalePeer.toNat < 2 ^ 16 * 2 ^ 14 :=
      Nat.mul_lt_mul_of_lt_of_le segment.window.toNat_lt
        (Nat.pow_le_pow_right (by decide) small) (by decide)
    simp only [scaledWindow, noSyn, Bool.false_eq_true, if_false, UInt32.toNat_shiftLeft,
      UInt16.toNat_toUInt32, UInt8.toNat_toUInt32, Nat.shiftLeft_eq]
    rw [Nat.mod_eq_of_lt (b := 32) (Nat.lt_of_le_of_lt small (by decide))]
    exact Nat.mod_eq_of_lt (Nat.lt_trans bound (by decide))
  · refine processACK_divides ?_ ?_
    · rw [same]
      rfl
    · rw [same]
      exact usable was

theorem parameters_right {opening : Opening} {host after : Host} {steps : List Step}
    (valid : opening.Valid) (sane : opening.Sane) (started : start config opening = .ok host)
    (along : Along config SaneSyn host steps) (done : run config host steps = .ok after) :
    ParametersRight after.stream :=
  (run_preserves step_chosen (start_chosen valid sane started) along done).right

theorem parameters_right_passive : ∃ host after,
    start sampleConfig (.passive 100 0 (sampleSegment { syn := true })) = .ok host ∧
      run sampleConfig host [.segment 1 none true (sampleSegment { ack := true })] = .ok after ∧
      after.stream.state = .established ∧ ParametersRight after.stream := by
  refine ⟨_, _, rfl, rfl, rfl, ?_⟩
  exact @parameters_right sampleConfig (.passive 100 0 (sampleSegment { syn := true })) _ _
    [.segment 1 none true (sampleSegment { ack := true })] ⟨rfl, rfl⟩ ⟨⟨_, rfl, by decide⟩, nofun⟩
    rfl (.cons nofun rfl trivial) rfl

theorem parameters_unread : ∃ host after,
    start sampleConfig (.passive 100 0 { sampleSegment { syn := true } with mssOption := none }) =
        .ok host ∧
      run sampleConfig host [.segment 1 none true (sampleSegment { ack := true })] = .ok after ∧
      ¬ParametersRight after.stream := by
  refine ⟨_, _, rfl, rfl, fun right => ?_⟩
  exact (right.mss ⟨_, _, _, _, List.mem_cons_self⟩).2 rfl

theorem eq_of_not_tcpSeqLt {first second : UInt32} (notBelow : ¬tcpSeqLt first second)
    (notAbove : ¬tcpSeqLt second first) : first = second := by
  have := first.toNat_lt
  have := second.toNat_lt
  simp only [tcpSeqLt, SerialNumber.signed, UInt32.toNat_sub] at notBelow notAbove
  apply UInt32.toNat_inj.mp
  split at notBelow <;> split at notAbove <;> omega

structure WindowMark where
  seq : UInt32
  ackSeq : UInt32
  window : UInt32
  deriving Repr, DecidableEq

namespace WindowMark

def Older (first second : WindowMark) : Prop :=
  tcpSeqLt first.seq second.seq ∨ first.seq = second.seq ∧
    (tcpSeqLt first.ackSeq second.ackSeq ∨ first.ackSeq = second.ackSeq ∧ first.window < second.window)

instance (first second : WindowMark) : Decidable (Older first second) :=
  inferInstanceAs (Decidable (_ ∨ _ ∧ (_ ∨ _ ∧ _)))

def newest : List WindowMark → Option WindowMark :=
  List.foldl (fun best mark => match best with
    | none => some mark
    | some best => some (if best.Older mark then mark else best)) none

theorem newest_of_ordered {marks : List WindowMark}
    (ordered : marks.IsChain fun earlier later => ¬later.Older earlier) :
    newest marks = marks.getLast? := by
  induction marks using List.reverseRecOn with
  | nil => rfl
  | append_singleton earlier mark ih =>
    obtain ⟨before, -, joins⟩ := List.isChain_append.mp ordered
    rw [newest, List.foldl_append, ← newest, ih before, List.getLast?_concat]
    cases last : earlier.getLast? with
    | none => rfl
    | some best =>
      have younger := joins best last mark rfl
      refine congrArg some (ite_eq_left_iff.mpr fun older => ?_)
      simp only [Older, not_or, not_and] at older younger
      have seq := eq_of_not_tcpSeqLt older.1 younger.1
      have ackSeq := eq_of_not_tcpSeqLt (older.2 seq).1 (younger.2 seq.symm).1
      have window := UInt32.le_antisymm (UInt32.not_lt.mp ((younger.2 seq.symm).2 ackSeq.symm))
        (UInt32.not_lt.mp ((older.2 seq).2 ackSeq))
      cases best
      cases mark
      exact congr (congrArg₂ WindowMark.mk seq ackSeq) window

end WindowMark

def accepts (config : Config) (curTs : UInt32) (segment : Segment) (s : TcpStream) : Bool :=
  !decide (TcpState.synRcvd.number < s.state.number) || (validateSequence config curTs segment s).2

def marks (config : Config) (s : TcpStream) : Step → List WindowMark
  | .segment curTs _ _ segment =>
    if s.onHashTable && accepts config curTs segment s then
      [⟨segment.seq, segment.ackSeq, scaledWindow segment s.ctl⟩]
    else []
  | _ => []

def windowMarks (config : Config) : Host → List Step → List WindowMark
  | _, [] => []
  | host, taken :: rest => marks config host.stream taken ++
      match step config host taken with
      | .ok next => windowMarks config next rest
      | .error _ => []

theorem acceptSegment_window (settled : s.state.opening = false)
    (done : acceptSegment config around segment s = .ok t) :
    t.ctl.peerWnd = scaledWindow segment s.ctl := by
  have answered := (acceptSegment_handled done).settled settled
  exact (answered.tuned rfl).peerWnd

theorem processTCPPacket_window (settled : s.state.opening = false)
    (done : processTCPPacket config around segment s = .ok t) : t.ctl.peerWnd =
      if accepts config around.curTs segment s then scaledWindow segment s.ctl else s.ctl.peerWnd := by
  unfold processTCPPacket at done
  unfold accepts
  split at done
  · rename_i past
    have validated := (validateSequence_spec config around.curTs segment s).1
    rw [decide_eq_true past, Bool.not_true, Bool.false_or]
    dsimp only at done
    split at done
    · rename_i valid
      rw [if_pos valid, acceptSegment_window (validated.state ▸ settled) done, validated.ctl]
    · rename_i invalid
      cases done
      rw [if_neg invalid, validated.ctl]
  · rename_i early
    rw [decide_eq_false early, Bool.not_false, Bool.true_or, if_pos rfl]
    exact acceptSegment_window settled done

theorem step_window {host next taken}
    (settled : host.stream.state.opening = false) (done : step config host taken = .ok next) :
    next.stream.state.opening = false ∧ next.stream.ctl.peerWnd =
      ((marks config host.stream taken).getLast?.map WindowMark.window).getD
        host.stream.ctl.peerWnd := by
  obtain ⟨stream, stepped, finish⟩ := bind_ok done
  cases finish
  refine ⟨(stepStream_settles (fun _ => settled) stepped).settled settled, ?_⟩
  cases taken
  case segment curTs chunk acceptRoom segment =>
    dsimp only [stepStream, marks] at stepped ⊢
    cases held : host.stream.onHashTable <;> rw [held] at stepped
    · cases stepped
      rfl
    · rw [processTCPPacket_window settled stepped, Bool.true_and]
      split <;> rfl
  all_goals exact (stepStream_tuned rfl stepped).peerWnd

theorem run_window {steps} : ∀ {host after},
    host.stream.state.opening = false → run config host steps = .ok after →
    after.stream.ctl.peerWnd = ((windowMarks config host steps).getLast?.map WindowMark.window).getD
      host.stream.ctl.peerWnd := by
  induction steps with
  | nil =>
    intro host after _ done
    cases done
    rfl
  | cons taken rest ih =>
    intro host after settled done
    obtain ⟨next, stepped, done⟩ := bind_ok (show step config host taken >>= _ = _ from done)
    obtain ⟨nextSettled, window⟩ := step_window settled stepped
    rw [ih nextSettled done, window, windowMarks, stepped, List.getLast?_append]
    cases (windowMarks config next rest).getLast? <;> rfl

def OpensWindow (segment : Segment) (s : TcpStream) : Prop :=
  s.ctl.peerWnd < s.seqs.sndNxt - s.seqs.sndUna ∧
    s.seqs.sndNxt - s.seqs.sndUna ≤ scaledWindow segment s.ctl

def RaisesWrite (s t : TcpStream) : Prop :=
  ∃ added, t.history = added ++ s.history ∧ .raised .write ∈ added

def OpeningRaises (config : Config) (host : Host) : Step → Prop
  | .segment curTs chunk acceptRoom segment =>
    marks config host.stream (.segment curTs chunk acceptRoom segment) ≠ [] →
    OpensWindow segment host.stream → ∀ next,
      step config host (.segment curTs chunk acceptRoom segment) = .ok next →
      RaisesWrite host.stream next.stream
  | _ => True

structure FreesBuffer (segment : Segment) (s : TcpStream) : Prop where
  socket : s.socket = true
  full : s.ctl.sndWnd = 0
  held : ∃ buf, s.seqs.sndbuf = some buf ∧ ¬tcpSeqGeq buf.headSeq (dataAck segment s) ∧
    ¬tcpSeqGt (dataAck segment s) (buf.headSeq + buf.len)

def OpensFullBuffer (host : Host) : Step → Prop
  | .segment _ _ _ segment => OpensWindow segment host.stream →
    segment.flags.rst = false ∧ ReachesACK segment host.stream ∧ FreesBuffer segment host.stream
  | _ => True

theorem RaisesWrite.grows {u} {allowed : Action → Prop} (raised : RaisesWrite s u)
    (grows : Grows allowed u.history t.history) : RaisesWrite s t := by
  obtain ⟨added, history, member⟩ := raised
  obtain ⟨later, after, -⟩ := grows
  exact ⟨later ++ added, by rw [after, history, List.append_assoc], List.mem_append_right _ member⟩

theorem RaisesWrite.after {u} {allowed : Action → Prop} (grows : Grows allowed s.history u.history)
    (raised : RaisesWrite u t) : RaisesWrite s t := by
  obtain ⟨earlier, before, -⟩ := grows
  obtain ⟨added, history, member⟩ := raised
  exact ⟨added ++ earlier, by rw [history, before, List.append_assoc], List.mem_append_left _ member⟩

theorem processACK_raises {buf} (socket : s.socket = true) (full : s.ctl.sndWnd = 0)
    (held : s.seqs.sndbuf = some buf) (fresh : ¬tcpSeqGeq buf.headSeq (dataAck segment s))
    (inside : ¬tcpSeqGt (dataAck segment s) (buf.headSeq + buf.len))
    (done : processACK curTs segment s = .ok t) : RaisesWrite s t := by
  unfold processACK at done
  rw [held] at done
  dsimp only at done
  rw [if_neg inside] at done
  obtain ⟨resent, fast, acked⟩ := bind_ok done
  obtain ⟨steady, sndWnd, ⟨added, history, -⟩, -⟩ := resend_spec fast
  obtain ⟨ready, isReady⟩ : ∃ u, u = recoverAfterLoss (dataAck segment s) buf resent := ⟨_, rfl⟩
  rw [← isReady, acknowledge, if_neg fresh] at acked
  rw [recoverAfterLoss_spec] at isReady
  split at acked
  · cases acked
  · obtain ⟨measured, measure, rest⟩ := bind_ok acked
    obtain ⟨grown, grow, timed⟩ := bind_ok rest
    obtain ⟨rcv, rto, -, rfl⟩ := measureRTT_form measure
    obtain ⟨cwnd, rfl⟩ := growWindow_form grow
    obtain ⟨-, tsRto, rfl⟩ := updateRetransmissionTimer_form timed
    have empty : ready.ctl.sndWnd = 0 := by
      rw [isReady]
      exact sndWnd.trans full
    have owner : ready.socket = true := by
      rw [isReady]
      exact (congrArg Status.socket steady.status).trans socket
    obtain ⟨count, isCount⟩ : ∃ count, count =
      (sbRemove buf (dataAck segment s - buf.headSeq).toNat).1.removed - buf.removed := ⟨_, rfl⟩
    refine ⟨.raised .write :: .removed buf.removed count segment :: added, ?_, List.mem_cons_self⟩
    rw [removeAcked]
    dsimp only
    rw [if_pos empty, raise]
    dsimp only
    rw [if_pos owner, isReady, history, isCount]
    rfl

theorem receiveACK_raises (frees : FreesBuffer segment s)
    (done : receiveACK curTs segment s = .ok t) : RaisesWrite s t := by
  obtain ⟨buf, held, fresh, inside⟩ := frees.held
  rw [receiveACK, held] at done
  exact processACK_raises frees.socket frees.full held fresh inside done

theorem FreesBuffer.received {u} (frees : FreesBuffer segment s) (state : s.state = .established)
    (received : Received s u) : FreesBuffer segment u where
  socket := (congrArg Status.socket received.status).trans frees.socket
  full := received.ctl ▸ frees.full
  held := by
    have same : dataAck segment u = dataAck segment s := by
      rcases received.state with ⟨kept, -⟩ | ⟨closed, -⟩
      · rw [dataAck, dataAck, kept, received.seqs]
      · simp [dataAck, closed, state]
    rw [same, received.seqs]
    exact frees.held

section

variable (reaches : ReachesACK segment s) (frees : FreesBuffer segment s)
include reaches frees

theorem Absorbed.raises (absorbed : Absorbed config around segment s t) : RaisesWrite s t := by
  cases absorbed with
  | established state receive ack =>
    simp only [ReachesACK, state] at reaches
    obtain ⟨payload, -⟩ := receivePayload_spec receive
    rcases ack with ⟨-, ack⟩ | ⟨unflagged, -⟩
    · exact .after payload.history (receiveACK_raises (frees.received state payload) ack)
    · cases reaches.2.symm.trans unflagged
  | acked _ ack => exact receiveACK_raises frees ack
  | @finWait1 u _ _ _ ack receive =>
    have same : (finAcked segment u).history = u.history := by
      unfold finAcked
      split <;> rfl
    exact (receiveACK_raises frees ack).grows (same ▸ (receivePayload_spec receive).1.history)
  | finWait2 _ _ ack receive =>
    exact (receiveACK_raises frees ack).grows (receivePayload_spec receive).1.history

theorem Answered.raises (noReset : segment.flags.rst = false)
    (answered : Answered config around segment s t) : RaisesWrite s t := by
  cases answered
  case same unread => exact absurd reaches (unread.resolve_left (by simp [noReset]))
  case syn state isSyn => simp [ReachesACK, state, isSyn] at reaches
  case control unread => exact absurd reaches unread
  case absorbed absorbed | gap absorbed | unsettled absorbed | closing absorbed _ |
      bothFins absorbed _ | finLate absorbed _ _ =>
    have raised := absorbed.raises reaches frees
    exact raised
  case closeWait state receive ack =>
    have raised := (Absorbed.established state receive ack).raises reaches frees
    exact raised.grows (raise_grows .read _)
  case lastAcked ack _ timer destroy =>
    have raised := receiveACK_raises frees ack
    obtain ⟨-, _, rfl⟩ := updateRetransmissionTimer_form timer
    unfold destroyTCPStream at destroy
    split at destroy <;> cases destroy
    exact raised
  case timeWait state flagged ack receive =>
    have raised := (Absorbed.finWait2 state flagged ack receive).raises reaches frees
    exact raised
  case closingAcked ack _ _ timer =>
    have raised := receiveACK_raises frees ack
    obtain ⟨-, _, rfl⟩ := updateRetransmissionTimer_form timer
    exact raised
  case waited state => simp [ReachesACK, state] at reaches
  case resetClosing reset _ | reset reset => cases noReset.symm.trans reset

end

theorem ReachesACK.past (reaches : ReachesACK segment s) :
    TcpState.synRcvd.number < s.state.number ∧ s.state.opening = false := by
  cases state : s.state <;> simp only [ReachesACK, state] at reaches <;> decide

theorem opening_raises {host taken} (frees : OpensFullBuffer host taken) :
    OpeningRaises config host taken := by
  cases taken
  case segment curTs chunk acceptRoom segment =>
    intro taken opens next done
    obtain ⟨noReset, reaches, frees⟩ := frees opens
    obtain ⟨stream, stepped, finish⟩ := bind_ok done
    cases finish
    have past := reaches.past.1
    dsimp only [marks, stepStream] at taken stepped
    split at taken
    · rename_i accepted
      have checked := Bool.and_eq_true_iff.mp accepted
      have valid : (validateSequence config curTs segment host.stream).2 = true := by
        simpa [accepts, past] using checked.2
      have validated := (validateSequence_spec config curTs segment host.stream).1
      rw [if_pos checked.1, processTCPPacket, if_pos past] at stepped
      dsimp only at stepped
      rw [if_pos valid] at stepped
      generalize (validateSequence config curTs segment host.stream).1 = u at validated stepped
      have rcvNxt : u.rcv.rcvNxt = host.stream.rcv.rcvNxt := by
        simpa using congrArg RecvVars.rcvNxt validated.rcv
      have reached : ReachesACK segment (noteSegment curTs segment u) := by
        simpa only [ReachesACK, noteSegment, validated.state, rcvNxt] using reaches
      have noted : FreesBuffer segment (noteSegment curTs segment u) :=
        ⟨(congrArg Status.socket validated.status).trans frees.socket,
          (congrArg SendControl.sndWnd validated.ctl).trans frees.full,
          by simpa only [dataAck, noteSegment, validated.state, validated.seqs] using frees.held⟩
      have answered := (acceptSegment_handled stepped).settled reached.past.2
      obtain ⟨added, history, raised⟩ := answered.raises reached noted noReset
      exact ⟨added, history.trans (congrArg (added ++ ·) validated.history), raised⟩
    · exact absurd rfl taken
  all_goals trivial

def windowSegment (seq ackSeq : UInt32) (window : UInt16) : Step :=
  .segment 1 none true { flags := { ack := true }, seq, ackSeq, window }

/-- One byte is in flight, the send buffer is full and the peer's window is closed. -/
def blocked : Host where
  stream := { flushing 1460 with
    seqs := { (flushing 1460).seqs with sndNxt := 2 }
    ctl := { (flushing 1460).ctl with effMss := 1448, peerWnd := 0, sndWnd := 0 } }
  listener := true

end Mcc
