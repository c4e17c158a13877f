import Mcc.TcpFrame

/-!
What an accepted segment can do to a connection, one constructor for each outcome. Invariants of the
stream are proved by cases over these and do not unfold the handlers again.
-/

namespace Mcc

open SerialNumber

/-- The segment comes as far as `ProcessACK`. -/
def ReachesACK (segment : Segment) (s : TcpStream) : Prop :=
  match s.state with
  | .established => segment.flags.syn = false ∧ segment.flags.ack = true
  | .closeWait => ¬tcpSeqLt segment.seq s.rcv.rcvNxt
  | .lastAck | .finWait1 => ¬tcpSeqLt segment.seq s.rcv.rcvNxt ∧ segment.flags.ack = true
  | .finWait2 | .closing => segment.flags.ack = true
  | _ => False

variable (config : Config) (around : Surroundings) (segment : Segment) (s : TcpStream)

inductive Absorbed : TcpStream → Prop
  | established {u t} (state : s.state = .established)
      (receive : receivePayload config around segment s = .ok u)
      (ack : segment.flags.ack = true ∧ receiveACK around.curTs segment u = .ok t ∨
        segment.flags.ack = false ∧ t = u) : Absorbed t
  | acked {t} (state : s.state = .closeWait ∨
        segment.flags.ack = true ∧ (s.state = .lastAck ∨ s.state = .closing))
      (ack : receiveACK around.curTs segment s = .ok t) : Absorbed t
  | finWait1 {u t} (state : s.state = .finWait1) (flagged : segment.flags.ack = true)
      (ack : receiveACK around.curTs segment s = .ok u)
      (receive : receivePayload config around segment (finAcked segment u) = .ok t) : Absorbed t
  | finWait2 {u t} (state : s.state = .finWait2) (flagged : segment.flags.ack = true)
      (ack : receiveACK around.curTs segment s = .ok u)
      (receive : receivePayload config around segment u = .ok t) : Absorbed t

def finCounted (s : TcpStream) : TcpStream :=
  { s with rcv := { s.rcv with rcvNxt := s.rcv.rcvNxt + 1 } }

def oneAcked (s : TcpStream) : TcpStream :=
  { s with seqs := { s.seqs with sndUna := s.seqs.sndUna + 1 } }

def SynAcks : Prop :=
  segment.flags.ack = true ∧ ¬tcpSeqLeq segment.ackSeq s.seqs.iss ∧ ¬tcpSeqGt segment.ackSeq s.seqs.sndNxt

inductive Answered : TcpStream → Prop
  | same (unread : segment.flags.rst = true ∨ ¬ReachesACK segment s) : Answered s
  | syn (state : s.state = .established) (syn : segment.flags.syn = true) :
      Answered (addtoControlList { s with seqs := { s.seqs with sndNxt := segment.ackSeq } })
  | control (state : s.state = .closeWait ∨ s.state = .lastAck ∨ s.state = .finWait1)
      (unread : ¬ReachesACK segment s) : Answered (addtoControlList s)
  | absorbed {t} (absorbed : Absorbed config around segment s t) : Answered t
  | gap {u} (state : s.state = .established)
      (absorbed : Absorbed config around segment s u) : Answered (enqueueACK .now u)
  | unsettled {u} (state : s.state = .lastAck)
      (absorbed : Absorbed config around segment s u) : Answered (addtoControlList u)
  | closeWait {u v} (state : s.state = .established)
      (receive : receivePayload config around segment s = .ok u)
      (ack : segment.flags.ack = true ∧ receiveACK around.curTs segment u = .ok v ∨
        segment.flags.ack = false ∧ v = u) :
      Answered (raise .read (addtoControlList { finCounted v with state := .closeWait }))
  | lastAcked {u v t} (state : s.state = .lastAck) (flagged : segment.flags.ack = true)
      (ack : receiveACK around.curTs segment s = .ok u) (last : segment.ackSeq = u.seqs.fss + 1)
      (timer : updateRetransmissionTimer around.curTs (oneAcked u) = .ok v)
      (destroy : destroyTCPStream { v with state := .closed, closeReason := .passiveClose } = .ok t) :
      Answered t
  | closing {u} (state : s.state = .finWait1)
      (absorbed : Absorbed config around segment s u) (waiting : u.state = .finWait1) :
      Answered (addtoControlList { finCounted u with state := .closing })
  | bothFins {u} (state : s.state = .finWait1)
      (absorbed : Absorbed config around segment s u) (waiting : u.state = .finWait2) :
      Answered (addtoControlList
        (addtoTimewaitList config around.curTs { finCounted u with state := .timeWait }))
  | finLate {u} (state : s.state = .finWait1)
      (absorbed : Absorbed config around segment s u) (one : u.state ≠ .finWait1)
      (two : u.state ≠ .finWait2) : Answered (addtoControlList (finCounted u))
  | timeWait {u v} (state : s.state = .finWait2) (flagged : segment.flags.ack = true)
      (ack : receiveACK around.curTs segment s = .ok u)
      (receive : receivePayload config around segment u = .ok v) :
      Answered (addtoControlList
        (addtoTimewaitList config around.curTs { finCounted v with state := .timeWait }))
  | closingAcked {u v} (state : s.state = .closing) (flagged : segment.flags.ack = true)
      (ack : receiveACK around.curTs segment s = .ok u) (sent : u.seqs.isFinSent = true)
      (last : segment.ackSeq = u.seqs.fss + 1)
      (timer : updateRetransmissionTimer around.curTs { u with seqs := { u.seqs with
        sndUna := segment.ackSeq, sndNxt := segment.ackSeq } } = .ok v) :
      Answered (addtoTimewaitList config around.curTs { v with state := .timeWait })
  | waited (state : s.state = .timeWait) : Answered (handleTimeWait config around s)
  | resetClosing {t} (state : s.state = .finWait1 ∨ s.state = .finWait2 ∨
        s.state = .closing ∨ s.state = .lastAck ∨ s.state = .timeWait)
      (reset : segment.flags.rst = true)
      (destroy : destroyTCPStream { s with state := .closed, closeReason := .activeClose } = .ok t) :
      Answered t
  | reset (state : s.state = .established ∨ s.state = .closeWait) (reset : segment.flags.rst = true) :
      Answered (raise .close { s with state := .closeWait, closeReason := .reset })

inductive Handled : TcpStream → Prop
  | same (unread : segment.flags.rst = true ∨ ¬ReachesACK segment s) : Handled s
  | answered {t} (settled : s.state.opening = false)
      (answered : Answered config around segment s t) : Handled t
  | listen (state : s.state = .listen) : Handled (handleListen segment s)
  | simultaneous (state : s.state = .synSent) (reset : segment.flags.rst = false)
      (syn : segment.flags.syn = true) (ack : segment.flags.ack = false) :
      Handled (log (.syn segment.seq) (addtoControlList { s with
        state := .synRcvd
        seqs := { s.seqs with sndNxt := s.seqs.iss } }))
  | synAcked (state : s.state = .synSent) (acks : SynAcks segment s)
      (reset : segment.flags.rst = false) (syn : segment.flags.syn = false) : Handled (oneAcked s)
  | synReset {t} (state : s.state = .synSent) (acks : SynAcks segment s)
      (reset : segment.flags.rst = true)
      (ended : Ended { oneAcked s with state := .closeWait, closeReason := .reset } t) : Handled t
  | active {t} (state : s.state = .synSent) (acks : SynAcks segment s)
      (reset : segment.flags.rst = false) (syn : segment.flags.syn = true)
      (complete : completeActiveOpen config around segment (oneAcked s) = .ok t) : Handled t
  | synAgain (state : s.state = .synRcvd) (syn : segment.flags.syn = true)
      (first : segment.seq = s.rcv.irs) : Handled (log (.syn segment.seq) (addtoControlList s))
  | synResent (state : s.state = .synRcvd) :
      Handled (addtoControlList { s with seqs := { s.seqs with sndNxt := s.seqs.iss } })
  | passive {t} (state : s.state = .synRcvd) (acked : segment.ackSeq = s.seqs.iss + 1)
      (complete : completePassiveOpen config around segment s = .ok t) : Handled t
  | passiveData {u t} (state : s.state = .synRcvd) (acked : segment.ackSeq = s.seqs.iss + 1)
      (complete : completePassiveOpen config around segment s = .ok u)
      (established : u.state = .established) (answered : Answered config around segment u t) : Handled t
  | resetOpening {t} (state : s.state = .synRcvd) (reset : segment.flags.rst = true)
      (last : segment.ackSeq = s.seqs.sndNxt)
      (destroy : destroyTCPStream { s with state := .closed, closeReason := .reset } = .ok t) : Handled t

variable {config around segment s} {t : TcpStream}

theorem handleEstablished_answered (state : s.state = .established)
    (done : handleEstablished config around segment s = .ok t) : Answered config around segment s t := by
  unfold handleEstablished at done
  split at done
  · cases done
    exact .syn state ‹_›
  · obtain ⟨received, receive, rest⟩ := bind_ok done
    obtain ⟨acked, ack, rest⟩ := bind_ok rest
    have answered := receiveFlaggedACK_cases ack
    have absorbed := Absorbed.established state receive answered
    split at rest
    · split at rest <;> cases rest
      · exact .closeWait state receive answered
      · exact .gap state absorbed
    · cases rest
      exact .absorbed absorbed

theorem handleLastAck_answered (state : s.state = .lastAck)
    (done : handleLastAck around segment s = .ok t) : Answered config around segment s t := by
  unfold handleLastAck at done
  split at done
  · cases done
    exact .same (.inr (by simp_all [ReachesACK]))
  · split at done
    · rename_i flagged
      obtain ⟨acked, ack, rest⟩ := bind_ok done
      have absorbed : Absorbed config around segment s acked :=
        .acked (.inr ⟨flagged, .inl state⟩) ack
      split at rest
      · cases rest
        exact .absorbed absorbed
      · split at rest
        · obtain ⟨timed, timer, destroy⟩ := bind_ok rest
          exact .lastAcked state flagged ack ‹_› timer destroy
        · cases rest
          exact .unsettled state absorbed
    · cases done
      exact .control (.inr (.inl state)) (by simp_all [ReachesACK])

theorem handleFinWait1_answered (state : s.state = .finWait1)
    (done : handleFinWait1 config around segment s = .ok t) : Answered config around segment s t := by
  unfold handleFinWait1 at done
  split at done
  · cases done
    exact .control (.inr (.inr state)) (by simp_all [ReachesACK])
  · split at done
    · cases done
      exact .same (.inr (by simp_all [ReachesACK]))
    · rename_i flagged
      obtain ⟨acked, ack, rest⟩ := bind_ok done
      obtain ⟨received, receive, rest⟩ := bind_ok rest
      have absorbed := Absorbed.finWait1 state (Bool.eq_true_of_not_eq_false flagged) ack receive
      split at rest <;> cases rest
      · dsimp only
        split
        · exact .closing state absorbed ‹_›
        · split
          · exact .bothFins state absorbed ‹_›
          · exact .finLate state absorbed ‹_› ‹_›
      · exact .absorbed absorbed

theorem handleFinWait2_answered (state : s.state = .finWait2)
    (done : handleFinWait2 config around segment s = .ok t) : Answered config around segment s t := by
  unfold handleFinWait2 at done
  split at done
  · cases done
    exact .same (.inr (by simp_all [ReachesACK]))
  · rename_i flagged
    have isFlagged := Bool.eq_true_of_not_eq_false flagged
    obtain ⟨acked, ack, rest⟩ := bind_ok done
    obtain ⟨received, receive, rest⟩ := bind_ok rest
    split at rest <;> cases rest
    · exact .timeWait state isFlagged ack receive
    · exact .absorbed (.finWait2 state isFlagged ack receive)

theorem handleClosing_answered (state : s.state = .closing)
    (done : handleClosing config around segment s = .ok t) : Answered config around segment s t := by
  unfold handleClosing at done
  split at done
  · cases done
    exact .same (.inr (by simp_all [ReachesACK]))
  · rename_i flagged
    have isFlagged := Bool.eq_true_of_not_eq_false flagged
    obtain ⟨acked, ack, rest⟩ := bind_ok done
    split at rest
    · rename_i last
      obtain ⟨timed, timer, finish⟩ := bind_ok rest
      cases finish
      exact .closingAcked state isFlagged ack last.1 last.2 timer
    · cases rest
      exact .absorbed (.acked (.inr ⟨isFlagged, .inr state⟩) ack)

theorem handleSynSent_handled (state : s.state = .synSent)
    (done : handleSynSent config around segment s = .ok t) : Handled config around segment s t := by
  have unread : ¬ReachesACK segment s := by simp [ReachesACK, state]
  unfold handleSynSent at done
  split at done
  · cases done
    exact .same (.inr unread)
  · rename_i acceptable
    simp only [not_and, not_or] at acceptable
    cases ack : segment.flags.ack with
    | false =>
      simp only [ack, Bool.false_eq_true, if_false] at done
      split at done
      · cases done
        exact .same (.inr unread)
      · rename_i reset
        split at done <;> cases done
        · exact .simultaneous state (Bool.eq_false_iff.mpr reset) ‹_› ack
        · exact .same (.inr unread)
    | true =>
      have acks : SynAcks segment s := ⟨ack, acceptable ack⟩
      simp only [ack, if_true] at done
      split at done
      · exact .synReset state acks ‹_› (ended_of_ite done)
      · rename_i reset
        have kept := Bool.eq_false_iff.mpr reset
        split at done
        · exact .active state acks kept ‹_› done
        · rename_i syn
          cases done
          exact .synAcked state acks kept (Bool.eq_false_iff.mpr syn)

theorem handleSynRcvd_handled (state : s.state = .synRcvd)
    (done : handleState config around segment s = .ok t) : Handled config around segment s t := by
  simp only [handleState, state] at done
  split at done
  · rename_i again
    cases done
    have same : handleListen segment s = log (.syn segment.seq) (addtoControlList s) := by
      rw [handleListen, if_pos again.1, if_neg (by rw [state]; nofun), ← state]
    rw [same]
    exact .synAgain state again.1 again.2
  · obtain ⟨handled, handle, rest⟩ := bind_ok done
    unfold handleSynRcvd at handle
    split at handle
    · split at handle
      · rename_i acked
        split at rest
        · rename_i established
          exact .passiveData state acked handle established.2
            (handleEstablished_answered established.2 rest)
        · cases rest
          exact .passive state acked handle
      · cases handle
        simp only [state, reduceCtorEq, and_false, if_false] at rest
        cases rest
        exact .same (.inr (by simp [ReachesACK, state]))
    · cases handle
      have waits : s.state ≠ .established := by rw [state]; nofun
      rw [if_neg fun established => waits established.2] at rest
      cases rest
      exact .synResent state

theorem handleState_handled (done : handleState config around segment s = .ok t) :
    Handled config around segment s t := by
  cases state : s.state
  case synRcvd => exact handleSynRcvd_handled state done
  all_goals rw [handleState, state] at done
  case listen =>
    cases done
    exact .listen state
  case synSent => exact handleSynSent_handled state done
  all_goals refine .answered (by rw [state]; rfl) ?_
  case closed =>
    cases done
    exact .same (.inr (by simp [ReachesACK, state]))
  case established => exact handleEstablished_answered state done
  case closeWait =>
    dsimp only [handleCloseWait] at done
    split at done
    · cases done
      exact .control (.inl state) (by simp_all [ReachesACK])
    · exact .absorbed (.acked (.inl state) done)
  case lastAck => exact handleLastAck_answered state done
  case finWait1 => exact handleFinWait1_answered state done
  case finWait2 => exact handleFinWait2_answered state done
  case closing => exact handleClosing_answered state done
  case timeWait =>
    cases done
    exact .waited state

theorem processRST_handled {dealtWith : Bool} (reset : segment.flags.rst = true)
    (done : processRST segment s = .ok (t, dealtWith)) :
    t = s ∨ dealtWith = true ∧ Handled config around segment s t := by
  unfold processRST at done
  cases state : s.state <;> rw [state] at done <;> dsimp only at done
  case closed | listen | synSent =>
    cases done
    exact .inl rfl
  case synRcvd =>
    split at done
    · obtain ⟨destroyed, destroy, finish⟩ := bind_ok done
      cases finish
      exact .inr ⟨rfl, .resetOpening state reset ‹_› destroy⟩
    · cases done
      exact .inl rfl
  case finWait1 | finWait2 | lastAck | closing | timeWait =>
    obtain ⟨destroyed, destroy, finish⟩ := bind_ok done
    cases finish
    exact .inr ⟨rfl, .answered (by rw [state]; rfl) (.resetClosing (by simp [state]) reset destroy)⟩
  case established | closeWait =>
    split at done <;> cases done
    · exact .inl rfl
    · exact .inr ⟨rfl, .answered (by rw [state]; rfl) (.reset (by simp [state]) reset)⟩

theorem acceptSegment_handled (done : acceptSegment config around segment s = .ok t) :
    Handled config around segment (noteSegment around.curTs segment s) t := by
  unfold acceptSegment at done
  split at done
  · obtain ⟨⟨reset, dealtWith⟩, rst, rest⟩ := bind_ok done
    rcases processRST_handled ‹_› rst with rfl | ⟨rfl, handled⟩
    · cases dealtWith with
      | true =>
        cases rest
        exact .same (.inl ‹_›)
      | false => exact handleState_handled rest
    · cases rest
      exact handled
  · exact handleState_handled done

theorem TcpState.number_le_of_opening {state : TcpState} (opening : state.opening = true) :
    ¬TcpState.synRcvd.number < state.number := by
  cases state <;> first | cases opening; done | decide

theorem processTCPPacket_opening (opening : s.state.opening = true)
    (done : processTCPPacket config around segment s = .ok t) :
    Handled config around segment (noteSegment around.curTs segment s) t := by
  rw [processTCPPacket, if_neg (TcpState.number_le_of_opening opening)] at done
  exact acceptSegment_handled done

theorem Handled.settled (handled : Handled config around segment s t)
    (settled : s.state.opening = false) : Answered config around segment s t := by
  cases handled
  case same unread => exact .same unread
  case answered answered => exact answered
  all_goals simp_all [TcpState.opening]

theorem processTCPPacket_settled (settled : s.state.opening = false)
    (done : processTCPPacket config around segment s = .ok t) :
    ∃ checked, Validated s checked ∧
      (t = checked ∨ checked.lists = s.lists ∧
        Answered config around segment (noteSegment around.curTs segment checked) t) := by
  unfold processTCPPacket at done
  split at done
  · obtain ⟨validated, valid⟩ := validateSequence_spec config around.curTs segment s
    refine ⟨_, validated, ?_⟩
    dsimp only at done
    split at done
    · refine .inr ⟨valid ‹_›, (acceptSegment_handled done).settled ?_⟩
      rw [show (noteSegment _ _ _).state = _ from validated.state]
      exact settled
    · exact .inl (Except.ok.inj done).symm
  · exact ⟨s, .refl s, .inr ⟨rfl, (acceptSegment_handled done).settled settled⟩⟩

end Mcc
