import Mcc.Lockstep
import Mcc.TcpFrame

/-!
Streams that differ only in what received segments do not depend on: the flag that a reset has
come, or the acknowledgments that are scheduled and the TIME_WAIT deadline. Such streams stay alike.
-/

namespace Mcc

open SerialNumber RingBuffer Lockstep

inductive Mask where
  | reset
  | acks
  deriving Repr, DecidableEq

def blur : Mask → TcpStream → TcpStream
  | .reset, s => { s with haveReset := true }
  | .acks, s =>
    { s with
      lists := { s.lists with
        onControlList := false
        onAckList := false
        onRtoList := false
        onTimewaitList := false
        ackCnt := 0 }
      rcv := { s.rcv with tsTwExpire := 0 } }

variable {m : Mask}

section

variable (s : TcpStream)

@[simp] theorem blur_state : (blur m s).state = s.state := by cases m <;> rfl

@[simp] theorem blur_seqs : (blur m s).seqs = s.seqs := by cases m <;> rfl

@[simp] theorem blur_ctl : (blur m s).ctl = s.ctl := by cases m <;> rfl

@[simp] theorem blur_rcvNxt : (blur m s).rcv.rcvNxt = s.rcv.rcvNxt := by
  cases m <;> rfl

@[simp] theorem blur_rcvWnd : (blur m s).rcv.rcvWnd = s.rcv.rcvWnd := by
  cases m <;> rfl

@[simp] theorem blur_sndWl2 : (blur m s).rcv.sndWl2 = s.rcv.sndWl2 := by
  cases m <;> rfl

@[simp] theorem blur_rcvbuf : (blur m s).rcv.rcvbuf = s.rcv.rcvbuf := by
  cases m <;> rfl

@[simp] theorem blur_irs : (blur m s).rcv.irs = s.rcv.irs := by cases m <;> rfl

@[simp] theorem blur_blur : blur m (blur m s) = blur m s := by cases m <;> rfl

theorem alike_blur : Alike (blur m) (blur m s) s := blur_blur s

end

theorem addtoSendList_blind : Blind (blur m) addtoSendList := by
  refine blind_of_mask fun s => ?_
  unfold addtoSendList
  rw [blur_seqs]
  split
  · exact .error _
  · cases m <;> exact .ok rfl

theorem destroyTCPStream_blind : Blind (blur m) destroyTCPStream :=
  blind_of_mask fun _ => by cases m <;> exact .ite (.ok rfl) (.error _)

theorem addtoTimeoutList_blind : Blind (blur m) addtoTimeoutList :=
  blind_of_mask fun _ => by cases m <;> exact .ite (.error _) (.ok rfl)

theorem updateRetransmissionTimer_blind (curTs : UInt32) :
    Blind (blur m) (updateRetransmissionTimer curTs) :=
  blind_of_mask fun _ => by cases m <;> exact .ite (.error _) (.ite (.ok rfl) (.ok rfl))

theorem fastRetransmit_blind (ackSeq : UInt32) (dup : Bool) : Blind (blur m) (fastRetransmit ackSeq dup) :=
  blind_of_mask fun _ => by
    cases m <;> exact .ite (addtoSendList_blind _ _ rfl) (.ite (.ok rfl) (.ok rfl))

theorem growWindow_blind (packets : UInt16) : Blind (blur m) (growWindow packets) :=
  blind_of_mask fun _ => by
    cases m <;> exact .ite (.ok rfl) (.ite (.ite (.ok rfl) (.ok rfl)) (.ite (.error _) (.ok rfl)))

theorem estimate_tsTwExpire (mrtt expire : UInt32) (seqs : SendSeq) (rcv : RecvVars) :
    estimate mrtt seqs { rcv with tsTwExpire := expire } =
      { estimate mrtt seqs rcv with tsTwExpire := expire } := by
  unfold estimate
  dsimp only
  by_cases first : rcv.srtt = 0
  · rw [if_pos first, if_pos first]
  · rw [if_neg first, if_neg first]
    by_cases later : tcpSeqGt seqs.sndUna rcv.rttSeq
    · rw [if_pos later, if_pos later]
    · rw [if_neg later, if_neg later]

theorem estimateRTT_blur (mrtt : UInt32) (s : TcpStream) :
    estimateRTT mrtt (blur m s) = blur m (estimateRTT mrtt s) := by
  cases m with
  | reset => rfl
  | acks =>
    simp only [estimateRTT, blur, estimate_tsTwExpire]

theorem measureRTT_blind (curTs : UInt32) : Blind (blur m) (measureRTT curTs) := by
  refine blind_of_mask fun s => ?_
  unfold measureRTT
  rw [estimateRTT_blur]
  cases m <;> exact .ite (.ite (.error _) (.ok rfl)) (.ok rfl)

theorem acknowledge_blind (curTs : UInt32) (segment : Segment) (ackSeq : UInt32)
    (buf : TcpSendBuffer) : Blind (blur m) (acknowledge curTs segment ackSeq buf) := by
  refine blind_of_mask fun s => ?_
  unfold acknowledge
  rw [blur_ctl]
  refine .ite (.ok (alike_blur s)) (.ite (.error _) ?_)
  refine .bind (measureRTT_blind curTs _ _ (alike_blur s)) fun measured measured' alike => ?_
  refine .bind (growWindow_blind _ _ _ alike) (blind_of_mask fun grown => ?_)
  exact updateRetransmissionTimer_blind curTs _ _ (by cases m <;> exact .ite rfl rfl)

theorem updateWindow_alike (segment : Segment) (ackSeq : UInt32) (s : TcpStream) :
    Alike (blur m) (updateWindow segment ackSeq (blur m s)) (updateWindow segment ackSeq s) := by
  cases m <;> exact .ite (.ite rfl rfl) rfl

theorem countDuplicate_alike (segment : Segment) (ackSeq edge : UInt32) {s t}
    (alike : Alike (blur m) s t) :
    AlikeWith (blur m) (countDuplicate segment ackSeq edge s) (countDuplicate segment ackSeq edge t) :=
  alikeWith_of_mask (fun _ => by cases m <;> exact .ite ⟨rfl, rfl⟩ ⟨rfl, rfl⟩) alike

theorem dataAck_blur (segment : Segment) (s : TcpStream) :
    dataAck segment (blur m s) = dataAck segment s := by
  cases m <;> rfl

theorem processACK_blind (curTs : UInt32) (segment : Segment) :
    Blind (blur m) (processACK curTs segment) := by
  refine blind_of_mask fun s => ?_
  unfold processACK
  rw [blur_seqs, dataAck_blur, blur_ctl, blur_sndWl2]
  split
  · exact .error _
  · rename_i buf _
    refine .ite (.ok (alike_blur s)) ?_
    have counted := countDuplicate_alike segment (dataAck segment s) (s.ctl.peerWnd + s.rcv.sndWl2)
      (updateWindow_alike (m := m) segment (dataAck segment s) s)
    revert counted
    generalize countDuplicate segment _ _ (updateWindow segment _ (blur m s)) = first
    generalize countDuplicate segment _ _ (updateWindow segment _ s) = second
    rintro ⟨alike, dup⟩
    obtain ⟨counted, dup⟩ := first
    cases dup
    refine .bind (fastRetransmit_blind _ _ _ _ alike) fun resent resent' alike => ?_
    exact acknowledge_blind curTs segment _ buf _ _
      (alike_of_mask (fun _ => by cases m <;> exact .ite (.ite rfl rfl) rfl) alike)

theorem storePayload_blind (segment : Segment) (buff : TcpRingBuffer) :
    BlindWith (blur m) (storePayload segment buff) := by
  refine blindWith_of_mask fun s => ?_
  unfold storePayload
  rw [blur_state, blur_rcvNxt]
  refine .bind (.same _) ?_
  rintro ⟨stored, ret⟩ _ rfl
  refine .bind (.same _) ?_
  rintro kept _ rfl
  refine .ite (.ok ⟨by cases m <;> rfl, rfl⟩) (.ok ⟨.ite ?_ ?_, rfl⟩)
  · cases m <;> rfl
  · cases m <;> rfl

section

variable (config : Config)

section

variable (around : Surroundings)

theorem processTCPPayload_blind (segment : Segment) :
    BlindWith (blur m) (processTCPPayload config around segment) := by
  refine blindWith_of_mask fun s => ?_
  unfold processTCPPayload
  rw [blur_rcvNxt, blur_rcvWnd, blur_rcvbuf, blur_irs]
  refine .ite (.ok ⟨alike_blur s, rfl⟩) (.ite (.ok ⟨alike_blur s, rfl⟩) ?_)
  split
  · exact storePayload_blind segment _ _ _ (alike_blur s)
  · split
    · exact .ok ⟨by cases m <;> rfl, rfl⟩
    · exact storePayload_blind segment _ _ _ (alike_blur s)

theorem addtoControlList_alike {s t} (alike : Alike (blur m) s t) :
    Alike (blur m) (addtoControlList s) (addtoControlList t) :=
  alike_of_mask (fun _ => by cases m <;> rfl) alike

theorem receivePayload_blind (segment : Segment) :
    Blind (blur m) (receivePayload config around segment) := by
  intro s t alike
  unfold receivePayload
  refine .ite (.ok alike) (.bind (processTCPPayload_blind config around segment s t alike) ?_)
  rintro ⟨stored, inOrder⟩ ⟨stored', _⟩ ⟨alike, rfl⟩
  exact .ok (alike_of_mask (fun _ => by cases m <;> rfl) alike)

section

variable (curTs : UInt32)

theorem receiveACK_blind (segment : Segment) : Blind (blur m) (receiveACK curTs segment) := by
  refine blind_of_mask fun s => ?_
  unfold receiveACK
  rw [blur_seqs]
  split
  · exact .ok (alike_blur s)
  · exact processACK_blind curTs segment _ _ (alike_blur s)

theorem receiveFlaggedACK_blind (segment : Segment) :
    Blind (blur m) (receiveFlaggedACK curTs segment) := fun s t alike =>
  .ite (receiveACK_blind curTs segment s t alike) (.ok alike)

theorem handleListen_alike (segment : Segment) (s : TcpStream) :
    Alike (blur m) (handleListen segment (blur m s)) (handleListen segment s) := by
  cases m <;> exact .ite rfl rfl

theorem handleActiveOpen_blind (segment : Segment) : Blind (blur m) (handleActiveOpen curTs segment):=
  blind_of_mask fun _ => by cases m <;> exact updateRetransmissionTimer_blind curTs _ _ rfl

section

variable (segment : Segment)
include segment

theorem completeActiveOpen_blind : Blind (blur m) (completeActiveOpen config around segment) := by
  refine blind_of_mask fun s => ?_
  unfold completeActiveOpen
  refine .bind (handleActiveOpen_blind around.curTs segment _ _ (by cases m <;> rfl))
    (blind_of_mask fun opened => ?_)
  cases m <;> exact .ite (.ite (addtoTimeoutList_blind _ _ rfl) (.ok rfl))
    (destroyTCPStream_blind _ _ rfl)

theorem handleSynSent_blind : Blind (blur m) (handleSynSent config around segment) := by
  refine blind_of_mask fun s => ?_
  unfold handleSynSent
  by_cases ack : segment.flags.ack = true
  · simp only [if_pos ack]
    cases m <;> exact .ite (.ok rfl) (.ite (.ite (.ok rfl) (destroyTCPStream_blind _ _ rfl))
      (.ite (completeActiveOpen_blind config around segment _ _ rfl) (.ok rfl)))
  · simp only [if_neg ack]
    cases m <;> exact .ite (.ok rfl) (.ite (.ok rfl) (.ite (.ok rfl) (.ok rfl)))

theorem completePassiveOpen_blind : Blind (blur m) (completePassiveOpen config around segment) :=
  blind_of_mask fun s => by
    cases m <;> exact .ite (.error _) (.ite (addtoTimeoutList_blind _ _ (.ite rfl rfl))
      (.ok (.ite rfl rfl)))

theorem handleSynRcvd_blind : Blind (blur m) (handleSynRcvd config around segment) :=
  blind_of_mask fun s => by
    cases m <;> exact .ite (.ite (completePassiveOpen_blind config around segment _ _ rfl) (.ok rfl))
      (.ok rfl)

theorem handleEstablished_blind : Blind (blur m) (handleEstablished config around segment) := by
  intro s t alike
  unfold handleEstablished
  refine .ite (.ok ?_) (.bind (receivePayload_blind config around segment s t alike) ?_)
  · exact alike_of_mask (f := fun s => addtoControlList
      { s with seqs := { s.seqs with sndNxt := segment.ackSeq } }) (fun _ => by cases m <;> rfl) alike
  · intro received received' alike
    refine .bind (receiveFlaggedACK_blind around.curTs segment _ _ alike) (blind_of_mask fun acked => ?_)
    cases m <;> exact .ite (.ite (.ok rfl) (.ok rfl)) (.ok rfl)

theorem handleCloseWait_blind : Blind (blur m) (handleCloseWait around segment):=
  blind_of_mask fun _ => by
    cases m <;> exact .ite (.ok rfl) (receiveACK_blind around.curTs segment _ _ rfl)

theorem handleLastAck_blind : Blind (blur m) (handleLastAck around segment) := by
  refine blind_of_mask fun s => ?_
  unfold handleLastAck
  rw [blur_rcvNxt]
  refine .ite (.ok (alike_blur s)) (.ite ?_ (.ok (addtoControlList_alike (alike_blur s))))
  refine .bind (receiveACK_blind around.curTs segment _ _ (alike_blur s)) (blind_of_mask fun acked => ?_)
  rw [blur_seqs]
  refine .ite (.ok (alike_blur acked)) (.ite ?_ (.ok (addtoControlList_alike (alike_blur acked))))
  refine .bind (updateRetransmissionTimer_blind around.curTs _ _ (by cases m <;> rfl))
    (blind_of_mask fun timed => ?_)
  exact destroyTCPStream_blind _ _ (by cases m <;> rfl)

theorem handleFinWait1_blind : Blind (blur m) (handleFinWait1 config around segment) := by
  refine blind_of_mask fun s => ?_
  unfold handleFinWait1
  rw [blur_rcvNxt]
  refine .ite (.ok (addtoControlList_alike (alike_blur s))) (.ite (.ok (alike_blur s)) ?_)
  refine .bind (receiveACK_blind around.curTs segment _ _ (alike_blur s)) fun acked acked' alike => ?_
  refine .bind (receivePayload_blind config around segment _ _
    (alike_of_mask (fun _ => by cases m <;> exact .ite rfl rfl) alike))
    (blind_of_mask fun received => ?_)
  cases m <;> exact .ite (.ok (addtoControlList_alike (.ite rfl (.ite rfl rfl)))) (.ok rfl)

theorem handleFinWait2_blind : Blind (blur m) (handleFinWait2 config around segment) := by
  intro s t alike
  unfold handleFinWait2
  refine .ite (.ok alike) (.bind (receiveACK_blind around.curTs segment s t alike) ?_)
  intro acked acked' alike
  refine .bind (receivePayload_blind config around segment _ _ alike) (blind_of_mask fun received => ?_)
  cases m <;> exact .ite (.ok rfl) (.ok rfl)

theorem handleClosing_blind : Blind (blur m) (handleClosing config around segment) := by
  intro s t alike
  unfold handleClosing
  refine .ite (.ok alike) (.bind (receiveACK_blind around.curTs segment s t alike)
    (blind_of_mask fun acked => ?_))
  rw [blur_seqs]
  refine .ite (.bind (updateRetransmissionTimer_blind around.curTs _ _ (by cases m <;> rfl))
    (blind_of_mask fun timed => ?_)) (.ok (alike_blur acked))
  cases m <;> exact .ok rfl

end

theorem handleTimeWait_alike (s : TcpStream) :
    Alike (blur m) (handleTimeWait config around (blur m s)) (handleTimeWait config around s) := by
  refine addtoControlList_alike ?_
  cases m with
  | reset => exact .ite rfl rfl
  | acks =>
    rw [if_neg (by simp [blur])]
    split
    · rfl
    · rfl

section

variable (segment : Segment)
include segment

theorem handleState_blind : Blind (blur m) (handleState config around segment) := by
  refine blind_of_mask fun s => ?_
  unfold handleState
  rw [blur_state, blur_irs]
  split
  · exact .ok (handleListen_alike segment s)
  · exact handleSynSent_blind config around segment _ _ (alike_blur s)
  · refine .ite (.ok (handleListen_alike segment s)) ?_
    refine .bind (handleSynRcvd_blind config around segment _ _ (alike_blur s))
      (blind_of_mask fun handled => ?_)
    rw [blur_state]
    exact .ite (handleEstablished_blind config around segment _ _ (alike_blur handled))
      (.ok (alike_blur handled))
  · exact handleEstablished_blind config around segment _ _ (alike_blur s)
  · exact handleCloseWait_blind around segment _ _ (alike_blur s)
  · exact handleLastAck_blind around segment _ _ (alike_blur s)
  · exact handleFinWait1_blind config around segment _ _ (alike_blur s)
  · exact handleFinWait2_blind config around segment _ _ (alike_blur s)
  · exact handleClosing_blind config around segment _ _ (alike_blur s)
  · exact .ok (handleTimeWait_alike config around s)
  · exact .ok (alike_blur s)

theorem processRST_blind : BlindWith (blur m) (processRST segment) := by
  refine blindWith_of_mask fun s => ?_
  unfold processRST
  rw [blur_state]
  have destroyed : ∀ closeReason, Both (AlikeWith (blur m))
      (do return (← destroyTCPStream { blur m s with state := .closed, closeReason }, true))
      (do return (← destroyTCPStream { s with state := .closed, closeReason }, true)) :=
    fun closeReason => .bind (destroyTCPStream_blind _ _ (by cases m <;> rfl))
      fun _ _ alike => .ok ⟨alike, rfl⟩
  split
  · exact .ok ⟨alike_blur s, rfl⟩
  · exact .ok ⟨alike_blur s, rfl⟩
  · exact .ok ⟨alike_blur s, rfl⟩
  · cases m <;> exact .ite (destroyed .reset) (.ok ⟨rfl, rfl⟩)
  · exact destroyed .activeClose
  · exact destroyed .activeClose
  · exact destroyed .activeClose
  · exact destroyed .activeClose
  · exact destroyed .activeClose
  · cases m <;> exact .ite (.ok ⟨rfl, rfl⟩) (.ok ⟨rfl, rfl⟩)
  · cases m <;> exact .ite (.ok ⟨rfl, rfl⟩) (.ok ⟨rfl, rfl⟩)

theorem acceptSegment_of_noted {s t}
    (noted : Alike (blur m) (noteSegment around.curTs segment s) (noteSegment around.curTs segment t)) :
    Both (Alike (blur m)) (acceptSegment config around segment s)
      (acceptSegment config around segment t) := by
  unfold acceptSegment
  refine .ite (.bind (processRST_blind segment _ _ noted) ?_)
    (handleState_blind config around segment _ _ noted)
  rintro ⟨reset, dealtWith⟩ ⟨reset', _⟩ ⟨alike, rfl⟩
  exact .ite (.ok alike) (handleState_blind config around segment _ _ alike)

theorem acceptSegment_blind : Blind (blur m) (acceptSegment config around segment) := fun _ _ alike =>
  acceptSegment_of_noted config around segment (alike_of_mask (fun _ => by cases m <;> rfl) alike)

theorem validateWindow_alike {s t} (alike : Alike (blur m) s t) :
    AlikeWith (blur m) (validateWindow config curTs segment s) (validateWindow config curTs segment t) := by
  refine alikeWith_of_mask (fun s => ?_) alike
  cases m <;> exact .ite ⟨rfl, rfl⟩ (.ite ⟨rfl, rfl⟩ (.ite (.ite ⟨rfl, rfl⟩ ⟨rfl, rfl⟩)
    (.ite ⟨rfl, rfl⟩ ⟨rfl, rfl⟩)))

theorem validateSequence_alike {s t} (alike : Alike (blur m) s t) :
    AlikeWith (blur m) (validateSequence config curTs segment s)
      (validateSequence config curTs segment t) := by
  refine alikeWith_of_mask (fun s => ?_) alike
  unfold validateSequence
  cases segment.timestamp with
  | none =>
    cases m <;> exact .ite ⟨rfl, rfl⟩ (validateWindow_alike config curTs segment rfl)
  | some timestamp =>
    cases m <;> exact .ite (.ite ⟨rfl, rfl⟩ (validateWindow_alike config curTs segment rfl))
      (validateWindow_alike config curTs segment rfl)

end

end

theorem processTCPPacket_blind (segment : Segment) :
    Blind (blur m) (processTCPPacket config around segment) := by
  refine blind_of_mask fun s => ?_
  unfold processTCPPacket
  rw [blur_state]
  refine .ite ?_ (acceptSegment_blind config around segment _ _ (alike_blur s))
  obtain ⟨alike, same⟩ := validateSequence_alike config around.curTs segment (alike_blur (m := m) s)
  dsimp only
  rw [same]
  exact .ite (acceptSegment_blind config around segment _ _ alike) (.ok alike)

end

theorem checkConnectionTimeout_blind (curTs : UInt32) :
    Blind (blur m) (checkConnectionTimeout config curTs) :=
  blind_of_mask fun _ => by
    cases m <;> exact .ite (.ite (.ok rfl) (destroyTCPStream_blind _ _ rfl)) (.ok rfl)

theorem handleSendq_blind : Blind (blur m) handleSendq :=
  blind_of_mask fun _ => by cases m <;> exact .ite (.ok rfl) (addtoSendList_blind _ _ rfl)

theorem handleDestroyq_blind : Blind (blur m) handleDestroyq :=
  blind_of_mask fun _ => by cases m <;> exact .ite (.ok rfl) (destroyTCPStream_blind _ _ rfl)

theorem putData_blind (data : List UInt8) (sndlen : Nat) (buf : TcpSendBuffer) :
    Blind (blur m) (putData data sndlen buf) := by
  refine blind_of_mask fun s => ?_
  unfold putData
  refine .bind (.same _) ?_
  rintro ⟨after, ret⟩ _ rfl
  cases m <;> exact .ite (.error _) (.ok rfl)

theorem copyFromUser_blind (chunk : Option (List UInt8)) (data : List UInt8) :
    BlindWith (blur m) (copyFromUser config chunk data) := by
  refine blindWith_of_mask fun s => ?_
  unfold copyFromUser
  rw [blur_ctl, blur_seqs]
  refine .ite (.ok ⟨alike_blur s, rfl⟩) ?_
  split
  · exact .bind (putData_blind data _ _ _ _ (alike_blur s)) fun _ _ alike => .ok ⟨alike, rfl⟩
  · split
    · exact .ok ⟨by cases m <;> rfl, rfl⟩
    · exact .bind (putData_blind data _ _ _ _ (alike_blur s)) fun _ _ alike => .ok ⟨alike, rfl⟩

theorem mtcpWrite_blind (chunk : Option (List UInt8)) (data : List UInt8) :
    Blind (blur m) (mtcpWrite config chunk data) := by
  refine blind_of_mask fun s => ?_
  unfold mtcpWrite
  rw [blur_state]
  refine .ite (.bind (copyFromUser_blind config chunk data _ _ (alike_blur s)) ?_) (.ok (alike_blur s))
  rintro ⟨copied, moved⟩ ⟨copied', _⟩ ⟨alike, rfl⟩
  refine blind_of_mask (f := fun copied =>
    if moved && !(copied.queues.onSendq || copied.lists.onSendList) then
      return { copied with queues := { copied.queues with
        onSendq := true
        sendq := copied.queues.sendq + 1 } }
    else return copied) (fun copied => ?_) copied copied' alike
  cases m <;> exact .ite (.ok rfl) (.ok rfl)

theorem mtcpRecv_blind (len : Nat) : Blind (blur m) (mtcpRecv len) := by
  refine blind_of_mask fun s => ?_
  unfold mtcpRecv
  rw [blur_rcvbuf, blur_state]
  split
  · exact .ok (alike_blur s)
  · refine .ite (.bind (.same _) ?_) (.ok (alike_blur s))
    rintro ⟨after, ret⟩ _ rfl
    cases m <;> exact .ite (.ok rfl) (.ok rfl)

theorem mtcpClose_alike (room : Bool) (s : TcpStream) :
    Alike (blur m) (mtcpClose room (blur m s)) (mtcpClose room s) := by
  unfold mtcpClose
  rw [blur_state]
  cases m with
  | reset | acks => exact .ite rfl (by split <;> rfl)

theorem mtcpAbort_alike (room : Bool) (s : TcpStream) :
    Alike (blur m) (mtcpAbort room (blur m s)) (mtcpAbort room s) := by
  unfold mtcpAbort
  rw [blur_state]
  cases m <;> dsimp only <;> split <;> first | rfl | exact .ite rfl rfl

/-- The steps that do not look at what is scheduled for output, at the TIME_WAIT deadline or at the
flag of a reset. -/
def Step.Quiet : Step → Prop
  | .rto | .timewaitExpire _ | .writeControl _ _ | .writeData _ _ | .writeAck _ _ | .closeq
  | .closeqInt | .resetq | .resetqInt => False
  | _ => True

theorem stepStream_blind (listener : Bool) {taken} (quiet : taken.Quiet) :
    Blind (blur m) fun s => stepStream config listener s taken := by
  refine blind_of_mask fun s => ?_
  cases taken with
  | rto | timewaitExpire | writeControl | writeData | writeAck | closeq | closeqInt | resetq
  | resetqInt => exact quiet.elim
  | segment curTs chunk acceptRoom segment =>
    cases m <;> exact .ite (processTCPPacket_blind config _ segment _ _ rfl) (.ok rfl)
  | connectionTimeout curTs => exact checkConnectionTimeout_blind config curTs _ _ (alike_blur s)
  | connectq | ackq | accept => cases m <;> exact .ok (.ite rfl rfl)
  | sendq => exact handleSendq_blind _ _ (alike_blur s)
  | destroyq => exact handleDestroyq_blind _ _ (alike_blur s)
  | write chunk data => cases m <;> exact .ite (mtcpWrite_blind config chunk data _ _ rfl) (.ok rfl)
  | recv len => cases m <;> exact .ite (mtcpRecv_blind len _ _ rfl) (.ok rfl)
  | close room => cases m <;> exact .ok (.ite (mtcpClose_alike room s) rfl)
  | abort room => cases m <;> exact .ok (.ite (mtcpAbort_alike room s) rfl)
  | listen => exact .ok (alike_blur s)
  | closeListener => cases m <;> exact .ok rfl

def AlikeHosts (b : TcpStream → TcpStream) (first second : Host) : Prop :=
  Alike b first.stream second.stream ∧ first.listener = second.listener

theorem step_blind {first second} (alike : AlikeHosts (blur m) first second)
    {taken} (quiet : taken.Quiet) :
    Both (AlikeHosts (blur m)) (step config first taken) (step config second taken) := by
  obtain ⟨streams, listeners⟩ := alike
  unfold step
  rw [listeners]
  exact .bind (stepStream_blind config second.listener quiet _ _ streams)
    fun _ _ alike => .ok ⟨alike, rfl⟩

theorem run_blind {first second} (alike : AlikeHosts (blur m) first second)
    {steps} (quiet : ∀ taken ∈ steps, taken.Quiet) :
    Both (AlikeHosts (blur m)) (run config first steps) (run config second steps) :=
  .foldlM alike fun _ _ alike taken member => step_blind config alike (quiet taken member)

end

end Mcc
