import Mcc.Handshake
import Mcc.TcpBlur
import Mcc.TcpStatus

/-!
A reset that the stack does not act on. It still sets `have_reset`, which the queues of closed and
aborted connections and the timer of `SYN_RCVD` look at much later. As long as nothing looks at the
flag, the run with the reset goes on as the run without it.
-/

namespace Mcc

open SerialNumber Lockstep

/-- The stream without what a reset leaves behind: the flag, and until the next segment also the
window and the time that every segment brings. -/
def unreset (flag window : Bool) (s : TcpStream) : TcpStream :=
  { s with
    haveReset := flag || s.haveReset
    ctl := { s.ctl with peerWnd := bif window then 0 else s.ctl.peerWnd }
    rcv := { s.rcv with lastActiveTs := bif window then 0 else s.rcv.lastActiveTs } }

variable {f w : Bool}

@[simp] theorem unreset_seqs (s : TcpStream) : (unreset f w s).seqs = s.seqs := rfl

theorem alike_unreset (s : TcpStream) : Alike (unreset f w) (unreset f w s) s := by
  cases f <;> cases w <;> rfl

variable {s t : TcpStream}

theorem eq_of_alike (alike : Alike (unreset false false) s t) : s = t := alike

theorem addtoSendList_unreset : Blind (unreset f w) addtoSendList := by
  refine blind_of_mask fun s => ?_
  unfold addtoSendList
  rw [unreset_seqs]
  split
  · exact .error _
  · cases f <;> cases w <;> exact .ok rfl

theorem destroyTCPStream_unreset : Blind (unreset f w) destroyTCPStream :=
  blind_of_mask fun _ => by cases f <;> cases w <;> exact .ite (.ok rfl) (.error _)

theorem sendTCPPacket_unreset (output : Bool) (curTs : UInt32) (flags : Flags) (wack : Bool)
    (payload : List UInt8) (payloadlen : UInt16) (alike : Alike (unreset f w) s t) :
    AlikeWith (unreset f w) (sendTCPPacket output curTs flags wack payload payloadlen s)
      (sendTCPPacket output curTs flags wack payload payloadlen t) := by
  refine alikeWith_of_mask (fun s => ?_) alike
  cases f <;> cases w <;> exact .ite ⟨rfl, rfl⟩ (.ite ⟨rfl, rfl⟩ ⟨rfl, rfl⟩)

theorem controlBase_unreset (alike : Alike (unreset f w) s t) :
    Alike (unreset f w) (controlBase s) (controlBase t) :=
  alike_of_mask (fun _ => by cases f <;> cases w <;> exact .ite rfl rfl) alike

theorem sendControlPacket_unreset (output : Bool) (curTs : UInt32) :
    BlindWith (unreset f w) (sendControlPacket output curTs) := by
  refine blindWith_of_mask fun s => ?_
  have state : (unreset f w s).state = s.state := rfl
  have flags : controlFlags (unreset f w s) = controlFlags s := rfl
  have deferred : controlDeferred (unreset f w s) = controlDeferred s := rfl
  unfold sendControlPacket
  rw [state, flags, deferred]
  refine .ite (.ok ⟨alike_unreset s, rfl⟩) (.ite (.ok ⟨alike_unreset s, rfl⟩) ?_)
  obtain ⟨alike, same⟩ := sendTCPPacket_unreset output curTs (controlFlags s) false [] 0
    (controlBase_unreset (alike_unreset (f := f) (w := w) s))
  unfold sendBare
  dsimp only
  rw [same]
  exact .ite (.bind (destroyTCPStream_unreset _ _ alike) fun _ _ alike => .ok ⟨alike, rfl⟩)
    (.ok ⟨alike, rfl⟩)

theorem writeTCPControlList_unreset (output : Bool) (curTs : UInt32) :
    Blind (unreset f w) (writeTCPControlList output curTs) := by
  refine blind_of_mask fun s => ?_
  unfold writeTCPControlList
  have taken : Alike (unreset f w) (removeFromControlList (unreset f w s)) (removeFromControlList s) := by
    cases f <;> cases w <;> rfl
  refine .bind (sendControlPacket_unreset output curTs _ _ taken) ?_
  rintro ⟨after, ret⟩ ⟨after', _⟩ ⟨alike, rfl⟩
  exact .ok (.ite (alike_of_mask (fun _ => by cases f <;> cases w <;> rfl) alike) alike)

theorem flushPass_unreset (output : Bool) (curTs : UInt32) :
    BlindWith (unreset f false) (flushPass output curTs) := by
  refine blindWith_of_mask fun s => ?_
  have full : WindowFull (unreset f false s) = WindowFull s := rfl
  have blocked : Alike (unreset f false) (enqueueACK .wack (unreset f false s)) (enqueueACK .wack s) := by
    cases f <;> rfl
  have next : ∀ len, nextPayloadlen len (unreset f false s) = nextPayloadlen len s := fun _ => rfl
  unfold flushPass
  rw [unreset_seqs]
  split
  · exact .error _
  · rename_i buf held
    refine .ite (.error _) (.ite (.error _) (.ite (.error _) (.ite (.ok ⟨alike_unreset s, rfl⟩) ?_)))
    simp only [full, next]
    refine .ite (.ite (.ok ⟨blocked, rfl⟩) (.ok ⟨alike_unreset s, rfl⟩)) ?_
    obtain ⟨alike, same⟩ := sendTCPPacket_unreset output curTs { ack := true } false
      (buf.data.drop (buf.head + (s.seqs.sndNxt - buf.headSeq).toNat))
      (nextPayloadlen (buf.len - (s.seqs.sndNxt - buf.headSeq)) s) (alike_unreset (f := f) (w := false) s)
    rw [same]
    exact .ite (.ok ⟨alike, rfl⟩) (.ite (.error _) (.ok ⟨alike, rfl⟩))

theorem flushLoop_unreset (curTs : UInt32) (buffers : Nat) : ∀ packets,
    BlindWith (unreset f false) fun s => flushLoop curTs buffers s packets := by
  induction buffers with
  | zero =>
    intro packets s t alike
    refine .bind (flushPass_unreset false curTs s t alike) ?_
    rintro ⟨after, pass⟩ ⟨after', _⟩ ⟨alike, rfl⟩
    exact .ok ⟨alike, rfl⟩
  | succ buffers ih =>
    intro packets s t alike
    refine .bind (flushPass_unreset true curTs s t alike) ?_
    rintro ⟨after, pass⟩ ⟨after', _⟩ ⟨alike, rfl⟩
    cases pass with
    | drained | blocked => exact .ok ⟨alike, rfl⟩
    | sent => exact ih (packets + 1) after after' alike

theorem flushTCPSendingBuffer_unreset (buffers : Nat) (curTs : UInt32) :
    BlindWith (unreset f false) (flushTCPSendingBuffer buffers curTs) := by
  refine blindWith_of_mask fun s => ?_
  unfold flushTCPSendingBuffer
  rw [unreset_seqs]
  split
  · exact .error _
  · exact .ite (.ok ⟨alike_unreset s, rfl⟩) (flushLoop_unreset curTs buffers 0 _ _ (alike_unreset s))

structure Dormant (s : TcpStream) : Prop where
  state : s.state = .closed ∨ s.state = .synSent ∨ s.state = .synRcvd
  cwnd : s.ctl.cwnd ≤ 1 ∨ s.ctl.cwnd = s.ctl.mss.toUInt32
  unwatched : s.lists.onTimeoutList = false

section

variable (dormant : Dormant s)
include dormant

theorem Dormant.number : ¬TcpState.synRcvd.number < s.state.number := by
  rcases dormant.state with state | state | state <;> rw [state] <;> decide

theorem Dormant.not_established : ¬(s.state = .established ∨ s.state = .closeWait) := by
  rcases dormant.state with state | state | state <;> simp [state]

theorem Dormant.serveData (buffers : Nat) (curTs : UInt32) : serveData buffers curTs s = .ok (s, 0) := by
  rcases dormant.state with state | state | state <;> simp only [Mcc.serveData, state]

theorem Dormant.toAck : toAck s = false := by
  rcases dormant.state with state | state | state <;> simp only [Mcc.toAck, state]

theorem Dormant.halvedWindow (peerWnd : UInt32) :
    halvedWindow { s.ctl with peerWnd } = 2 * s.ctl.mss.toUInt32 := by
  unfold Mcc.halvedWindow
  dsimp only
  split
  · rfl
  · rename_i large
    have small := toNat_min s.ctl.cwnd peerWnd
    have double : (2 * s.ctl.mss.toUInt32).toNat = 2 * s.ctl.mss.toNat := by
      have := s.ctl.mss.toNat_lt
      simp only [UInt32.toNat_mul, UInt16.toNat_toUInt32]
      exact Nat.mod_eq_of_lt (by simp; omega)
    have mss : s.ctl.mss.toUInt32.toNat = s.ctl.mss.toNat := UInt16.toNat_toUInt32 _
    have half : (min s.ctl.cwnd peerWnd / 2).toNat = (min s.ctl.cwnd peerWnd).toNat / 2 := rfl
    rw [UInt32.lt_iff_toNat_lt, double, half, small] at large
    apply UInt32.toNat_inj.mp
    rw [double, half, small]
    rcases dormant.cwnd with one | same
    · have one : s.ctl.cwnd.toNat ≤ 1 := UInt32.le_iff_toNat_le.mp one
      omega
    · have same : s.ctl.cwnd.toNat = s.ctl.mss.toNat := by rw [same, mss]
      omega

end

theorem Dormant.of_alike (alike : Alike (unreset f w) s t) (dormant : Dormant t) : Dormant s  where
  state := by
    rw [alike.field (f := (·.state)) fun _ => rfl]
    exact dormant.state
  cwnd := by
    rw [alike.field (f := (·.ctl.cwnd)) fun _ => rfl, alike.field (f := (·.ctl.mss)) fun _ => rfl]
    exact dormant.cwnd
  unwatched := (alike.field (f := (·.lists.onTimeoutList)) fun _ => rfl).trans dormant.unwatched

theorem serveData_unreset (buffers : Nat) (curTs : UInt32) :
    BlindWith (unreset f false) (serveData buffers curTs) := by
  refine blindWith_of_mask fun s => ?_
  have state : (unreset f false s).state = s.state := rfl
  unfold serveData
  rw [state]
  split
  · exact .ite (.ok ⟨alike_unreset s, rfl⟩) (flushTCPSendingBuffer_unreset buffers curTs _ _ (alike_unreset s))
  all_goals first
    | exact flushTCPSendingBuffer_unreset buffers curTs _ _ (alike_unreset s)
    | exact .ok ⟨alike_unreset s, rfl⟩

theorem writeTCPDataList_unreset (buffers : Nat) (curTs : UInt32) (alike : Alike (unreset f w) s t)
    (dormant : w = true → Dormant t) :
    Both (Alike (unreset f w)) (writeTCPDataList buffers curTs s) (writeTCPDataList buffers curTs t) := by
  have served : Both (AlikeWith (unreset f w)) (serveData buffers curTs s) (serveData buffers curTs t) := by
    cases w with
    | false => exact serveData_unreset buffers curTs s t alike
    | true =>
      rw [(dormant rfl).serveData, ((dormant rfl).of_alike alike).serveData]
      exact .ok ⟨alike, rfl⟩
  refine .bind served ?_
  rintro ⟨after, ret⟩ ⟨after', _⟩ ⟨alike, rfl⟩
  exact .ok (.ite alike (alike_of_mask (fun _ => by cases f <;> cases w <;> rfl) alike))

theorem ackLoop_unreset (curTs : UInt32) (count : Nat) : ∀ (buffers : Nat) {s t},
    Alike (unreset f w) s t →
      AlikeWith (unreset f w) (ackLoop curTs count buffers s) (ackLoop curTs count buffers t) := by
  induction count with
  | zero => exact fun buffers s t alike => ⟨alike, rfl⟩
  | succ count ih =>
    intro buffers s t alike
    obtain ⟨sent, same⟩ := sendTCPPacket_unreset (0 < buffers) curTs { ack := true } false [] 0 alike
    unfold ackLoop sendBare
    dsimp only
    rw [same]
    refine .ite ⟨sent, rfl⟩ (ih (buffers - 1) ?_)
    exact alike_of_mask (f := fun s => { s with lists := { s.lists with
      ackCnt := s.lists.ackCnt - 1 } }) (fun _ => by cases f <;> cases w <;> rfl) sent

section

variable (buffers : Nat) (curTs : UInt32) (alike : Alike (unreset f w) s t)
include buffers curTs alike

theorem sendWack_unreset :
    Alike (unreset f w) (sendWack buffers curTs s) (sendWack buffers curTs t) := by
  obtain ⟨sent, same⟩ := sendTCPPacket_unreset (0 < buffers) curTs { ack := true } true [] 0 alike
  unfold sendWack
  dsimp only
  rw [same, alike.field (f := (·.lists.isWack)) fun _ => rfl]
  refine .ite ?_ alike
  generalize (sendTCPPacket (0 < buffers) curTs { ack := true } true [] 0 t).2 = ret
  exact alike_of_mask (f := fun s => { s with lists := { s.lists with isWack := ret < 0 } })
    (fun _ => by cases f <;> cases w <;> rfl) sent

theorem serveACKs_unreset :
    Alike (unreset f w) (serveACKs buffers curTs s) (serveACKs buffers curTs t) := by
  have count : s.lists.ackCnt = t.lists.ackCnt := alike.field (f := (·.lists.ackCnt)) fun _ => rfl
  obtain ⟨acked, left⟩ := ackLoop_unreset curTs t.lists.ackCnt.toNat buffers alike
  unfold serveACKs
  dsimp only
  rw [count, left, alike.field (f := toAck) fun _ => rfl]
  refine .ite ?_ (alike_of_mask (f := fun s => { s with lists := { s.lists with
    onAckList := false, ackCnt := 0, isWack := false } }) (fun _ => by cases f <;> cases w <;> rfl) alike)
  exact alike_of_mask (f := fun s => { s with lists := { s.lists with
    onAckList := s.lists.ackCnt ≠ 0 || s.lists.isWack } }) (fun _ => by cases f <;> cases w <;> rfl)
    (sendWack_unreset _ curTs acked)

theorem writeTCPACKList_unreset :
    Alike (unreset f w) (writeTCPACKList buffers curTs s) (writeTCPACKList buffers curTs t) :=
  alike_of_mask (f := fun served : TcpStream =>
    { served with lists := { served.lists with
      controlListWaiting := served.lists.controlListWaiting &&
        !(served.lists.controlListWaiting && !served.lists.onSendList)
      onControlList := served.lists.onControlList ||
        (served.lists.controlListWaiting && !served.lists.onSendList) } })
    (fun _ => by cases f <;> cases w <;> rfl) (serveACKs_unreset buffers curTs alike)

end

section

variable (alike : Alike (unreset f w) s t)
include alike

theorem backOff_unreset (dormant : w = true → Dormant t) :
    Alike (unreset f w) (backOff s) (backOff t) := by
  cases w with
  | false => exact alike_of_mask (fun _ => by cases f <;> rfl) alike
  | true =>
    have masked : ∀ s, Dormant s → Alike (unreset f true) (backOff (unreset f true s)) (backOff s) := by
      intro s dormant
      have window : halvedWindow { s.ctl with peerWnd := 0 } = halvedWindow s.ctl :=
        (dormant.halvedWindow 0).trans (dormant.halvedWindow s.ctl.peerWnd).symm
      unfold Alike unreset backOff
      dsimp only [cond_true]
      rw [window]
      cases f <;> rfl
    have back := (masked s ((dormant rfl).of_alike alike)).symm
    rw [show unreset f true s = unreset f true t from alike] at back
    exact back.trans (masked t (dormant rfl))

theorem retransmit_unreset (unconsulted : f = true → t.state ≠ .synRcvd) :
    Both (Alike (unreset f w)) (retransmit s) (retransmit t) := by
  have masked : ∀ s : TcpStream, (f = true → s.state ≠ .synRcvd) →
      Both (Alike (unreset f w)) (retransmit (unreset f w s)) (retransmit s) := by
    intro s unconsulted
    unfold retransmit
    rw [show (unreset f w s).state = s.state from rfl]
    split
    case h_1 | h_2 => exact addtoSendList_unreset _ _ (by cases f <;> cases w <;> rfl)
    case h_3 | h_4 | h_5 =>
      exact .ite (addtoSendList_unreset _ _ (by cases f <;> cases w <;> rfl))
        (.ok (by cases f <;> cases w <;> rfl))
    case h_6 => exact .ok (by cases f <;> cases w <;> rfl)
    case h_7 state =>
      cases f with
      | true => exact absurd state (unconsulted rfl)
      | false => cases w <;> exact .ite (destroyTCPStream_unreset _ _ rfl) (.ok rfl)
    all_goals exact .error _
  have state : s.state = t.state := alike.field (f := (·.state)) fun _ => rfl
  exact both_of_mask alike (masked s (state ▸ unconsulted)) (masked t unconsulted)

theorem handleRTO_unreset (dormant : w = true → Dormant t) (unconsulted : f = true → t.state ≠ .synRcvd) :
    Both (Alike (unreset f w)) (handleRTO s) (handleRTO t) := by
  have state : s.state = t.state := alike.field (f := (·.state)) fun _ => rfl
  have rto : s.ctl.rto = t.ctl.rto := alike.field (f := (·.ctl.rto)) fun _ => rfl
  have nrtx : s.ctl.nrtx = t.ctl.nrtx := alike.field (f := (·.ctl.nrtx)) fun _ => rfl
  have reason : s.closeReason = t.closeReason := alike.field (f := (·.closeReason)) fun _ => rfl
  have backed := backOff_unreset alike dormant
  have count : (backOff s).ctl.nrtx = (backOff t).ctl.nrtx := congrArg (· + 1) nrtx
  have failed : Both (Alike (unreset f w))
      (if (backOff s).socket then
        .ok (raise .error { backOff s with state := .closed, closeReason := .connFail })
      else destroyTCPStream { backOff s with state := .closed, closeReason := .connFail })
      (if (backOff t).socket then
        .ok (raise .error { backOff t with state := .closed, closeReason := .connFail })
      else destroyTCPStream { backOff t with state := .closed, closeReason := .connFail }) :=
    blind_of_mask (f := fun s : TcpStream => if s.socket then
        .ok (raise .error { s with state := .closed, closeReason := .connFail })
      else destroyTCPStream { s with state := .closed, closeReason := .connFail })
      (fun _ => by
        cases f <;> cases w <;> exact .ite (.ok rfl) (destroyTCPStream_unreset _ _ rfl)) _ _ backed
  have given : Both (Alike (unreset f w)) (giveUp s) (giveUp t) :=
    blind_of_mask (fun _ => by
      cases f <;> cases w <;> exact .ite (destroyTCPStream_unreset _ _ rfl)
        (.ite (.ok rfl) (destroyTCPStream_unreset _ _ rfl))) s t alike
  have states : (backOff s).state = (backOff t).state := state
  unfold handleRTO
  dsimp only
  rw [rto, reason, nrtx, count, states]
  exact .ite (.error _) (.ite (.ok alike) (.ite given (.ite failed (retransmit_unreset backed unconsulted))))

theorem checkRtmTimeout_unreset (dormant : w = true → Dormant t)
    (unconsulted : f = true → t.lists.onRtoList = true → t.state ≠ .synRcvd) :
    Both (Alike (unreset f w)) (checkRtmTimeout s) (checkRtmTimeout t) := by
  have timed : s.lists.onRtoList = t.lists.onRtoList :=
    alike.field (f := (·.lists.onRtoList)) fun _ => rfl
  unfold checkRtmTimeout
  rw [timed]
  split
  · rename_i running
    refine handleRTO_unreset ?_ (fun hidden => ?_) (fun hidden => unconsulted hidden running)
    · exact alike_of_mask (fun _ => by cases f <;> cases w <;> rfl) alike
    · exact { dormant hidden with }
  · exact .ok alike

end

theorem destroyReset_unreset : Blind (unreset f w) destroyReset :=
  blind_of_mask fun _ => by
    cases f <;> cases w <;> exact .ite (.ok rfl) (destroyTCPStream_unreset _ _ rfl)

section

variable (closed : s.state = .closed)
include closed

theorem destroyReset_closed : destroyReset s = .ok s :=
  if_pos closed

theorem resetNow_closed : resetNow s = s := if_pos closed

theorem handleCloseq_idle (idle : busy s.lists = false) :
    handleCloseq s = if s.queues.closeq = 0 then .ok s else
      .ok (removeFromTimeoutList { s with
        seqs := { s.seqs with fss := finalSequence s.seqs }
        queues := { s.queues with closeq := s.queues.closeq - 1, onCloseq := false } }) := by
  simp only [busy, Bool.or_eq_false_iff] at idle
  obtain ⟨⟨control, send⟩, ack⟩ := idle
  unfold handleCloseq
  split
  · rfl
  · dsimp only
    split
    · exact destroyReset_closed closed
    · simp [control, send, ack, closed]

theorem handleResetq_idle (idle : busy s.lists = false) :
    handleResetq s = if s.queues.resetq = 0 then .ok s else
      .ok (removeFromTimeoutList { s with queues := { s.queues with
        resetq := s.queues.resetq - 1
        onResetq := false } }) := by
  unfold handleResetq
  split
  · rfl
  · dsimp only
    split
    · exact destroyReset_closed closed
    · rw [if_neg (by simp [idle])]
      exact congrArg _ (resetNow_closed closed)

end

def Consults (s : TcpStream) : Step → Prop
  | .rto => s.lists.onRtoList = true ∧ s.state = .synRcvd
  | .closeq => 0 < s.queues.closeq ∧ (s.state = .closed → busy s.lists = true)
  | .resetq => 0 < s.queues.resetq ∧ (s.state = .closed → busy s.lists = true)
  | _ => False

theorem same_fields (alike : Alike (unreset f w) s t) :
    s.state = t.state ∧ s.lists = t.lists ∧ s.queues = t.queues :=
  ⟨alike.field (f := (·.state)) fun _ => rfl, alike.field (f := (·.lists)) fun _ => rfl,
    alike.field (f := (·.queues)) fun _ => rfl⟩

theorem handleCloseq_unreset (alike : Alike (unreset f w) s t)
    (unconsulted : f = true → ¬Consults t .closeq) :
    Both (Alike (unreset f w)) (handleCloseq s) (handleCloseq t) := by
  cases f with
  | false =>
    refine blind_of_mask (fun s => ?_) s t alike
    cases w <;> exact .ite (.ok rfl) (.ite (destroyReset_unreset _ _ rfl)
      (.ite (.ok rfl) (.ite (.ok rfl) (.ite (.ok rfl) (.ok rfl)))))
  | true =>
    obtain ⟨state, lists, queues⟩ := same_fields alike
    by_cases empty : t.queues.closeq = 0
    · rw [handleCloseq, handleCloseq, queues, if_pos empty, if_pos empty]
      exact .ok alike
    · have harmless := unconsulted rfl
      simp only [Consults, not_and, Classical.not_imp, Bool.not_eq_true] at harmless
      obtain ⟨closed, idle⟩ := harmless (Nat.pos_of_ne_zero empty)
      rw [handleCloseq_idle closed idle, handleCloseq_idle (state.trans closed) (lists ▸ idle), queues,
        if_neg empty, if_neg empty]
      refine .ok (alike_of_mask (f := fun s => removeFromTimeoutList { s with
        seqs := { s.seqs with fss := finalSequence s.seqs }
        queues := { t.queues with closeq := t.queues.closeq - 1, onCloseq := false } })
        (fun _ => by cases w <;> rfl) alike)

theorem handleResetq_unreset (alike : Alike (unreset f w) s t)
    (unconsulted : f = true → ¬Consults t .resetq) :
    Both (Alike (unreset f w)) (handleResetq s) (handleResetq t) := by
  cases f with
  | false =>
    refine blind_of_mask (fun s => ?_) s t alike
    cases w <;> exact .ite (.ok rfl) (.ite (destroyReset_unreset _ _ rfl)
      (.ite (.ok rfl) (.ok (.ite rfl rfl))))
  | true =>
    obtain ⟨state, lists, queues⟩ := same_fields alike
    by_cases empty : t.queues.resetq = 0
    · rw [handleResetq, handleResetq, queues, if_pos empty, if_pos empty]
      exact .ok alike
    · have harmless := unconsulted rfl
      simp only [Consults, not_and, Classical.not_imp, Bool.not_eq_true] at harmless
      obtain ⟨closed, idle⟩ := harmless (Nat.pos_of_ne_zero empty)
      rw [handleResetq_idle closed idle, handleResetq_idle (state.trans closed) (lists ▸ idle), queues,
        if_neg empty, if_neg empty]
      exact .ok (alike_of_mask (f := fun s => removeFromTimeoutList { s with
        queues := { t.queues with resetq := t.queues.resetq - 1, onResetq := false } })
        (fun _ => by cases w <;> rfl) alike)

theorem checkConnectionTimeout_unreset (config : Config) (curTs : UInt32)
    (alike : Alike (unreset f w) s t) (dormant : w = true → Dormant t) :
    Both (Alike (unreset f w)) (checkConnectionTimeout config curTs s)
      (checkConnectionTimeout config curTs t) := by
  cases w with
  | false =>
    refine blind_of_mask (fun s => ?_) s t alike
    cases f <;> exact .ite (.ite (.ok rfl) (destroyTCPStream_unreset _ _ rfl)) (.ok rfl)
  | true =>
    have same := ((dormant rfl).of_alike alike).unwatched
    rw [checkConnectionTimeout, checkConnectionTimeout, if_neg (by simp [same]),
      if_neg (by simp [(dormant rfl).unwatched])]
    exact .ok alike

theorem checkTimewaitExpire_unreset (curTs : UInt32) : Blind (unreset f w) (checkTimewaitExpire curTs) :=
  blind_of_mask fun _ => by
    cases f <;> cases w <;> exact .ite (destroyTCPStream_unreset _ _ rfl) (.ok rfl)

theorem Dormant.mtcpWrite (dormant : Dormant s) (config : Config) (chunk : Option (List UInt8))
    (data : List UInt8) : mtcpWrite config chunk data s = .ok s := by
  rw [Mcc.mtcpWrite, if_neg dormant.not_established]

theorem Dormant.mtcpRecv (dormant : Dormant s) (len : Nat) : mtcpRecv len s = .ok s := by
  unfold Mcc.mtcpRecv
  split
  · rfl
  · rw [if_neg fun read => dormant.number read.1]

theorem mtcpClose_unreset (room : Bool) (alike : Alike (unreset f w) s t) :
    Alike (unreset f w) (mtcpClose room s) (mtcpClose room t) := by
  refine alike_of_mask (fun s => ?_) alike
  unfold mtcpClose
  rw [show (unreset f w s).state = s.state from rfl]
  refine .ite (by cases f <;> cases w <;> rfl) ?_
  dsimp only
  split <;> cases f <;> cases w <;> rfl

theorem mtcpAbort_unreset (room : Bool) (alike : Alike (unreset f w) s t) :
    Alike (unreset f w) (mtcpAbort room s) (mtcpAbort room t) := by
  refine alike_of_mask (fun s => ?_) alike
  unfold mtcpAbort
  rw [show (unreset f w s).state = s.state from rfl]
  cases f <;> cases w <;> dsimp only <;> split <;> first | rfl | exact .ite rfl rfl

variable {taken : Step}

theorem stepStream_flag (config : Config) (listener : Bool) (quiet : taken.Quiet) :
    Blind (unreset f false) fun s => stepStream config listener s taken := by
  intro s t alike
  cases f with
  | false => exact eq_of_alike alike ▸ (Both.same _).mono fun _ _ same => same ▸ .refl _
  | true => exact stepStream_blind (m := .reset) config listener quiet s t alike

theorem stepStream_unreset (config : Config) (listener : Bool) (alike : Alike (unreset f w) s t)
    (dormant : w = true → Dormant t) (unconsulted : f = true → ¬Consults t taken)
    (between : taken.isSegment = false) :
    Both (Alike (unreset f w)) (stepStream config listener s taken)
      (stepStream config listener t taken) := by
  have lists : s.lists = t.lists := alike.field (f := (·.lists)) fun _ => rfl
  have socket : s.socket = t.socket := alike.field (f := (·.socket)) fun _ => rfl
  cases taken <;> dsimp only [stepStream]
  case segment => cases between
  case rto =>
    exact checkRtmTimeout_unreset alike dormant fun hidden running state =>
      unconsulted hidden ⟨running, state⟩
  case timewaitExpire curTs => exact checkTimewaitExpire_unreset curTs s t alike
  case connectionTimeout curTs => exact checkConnectionTimeout_unreset config curTs alike dormant
  case writeControl output curTs =>
    rw [lists]
    exact .ite (writeTCPControlList_unreset output curTs s t alike) (.ok alike)
  case writeData buffers curTs =>
    rw [lists]
    exact .ite (writeTCPDataList_unreset buffers curTs alike dormant) (.ok alike)
  case writeAck buffers curTs =>
    rw [lists]
    exact .ok (.ite (writeTCPACKList_unreset buffers curTs alike) alike)
  case connectq | ackq | accept =>
    exact .ok (alike_of_mask (fun _ => by cases f <;> cases w <;> exact .ite rfl rfl) alike)
  case sendq =>
    exact blind_of_mask (fun _ => by
      cases f <;> cases w <;> exact .ite (.ok rfl) (addtoSendList_unreset _ _ rfl)) s t alike
  case closeq => exact handleCloseq_unreset alike unconsulted
  case closeqInt | resetqInt =>
    exact .ok (alike_of_mask (fun _ => by
      cases f <;> cases w <;> exact .ite rfl (.ite rfl rfl)) alike)
  case resetq => exact handleResetq_unreset alike unconsulted
  case destroyq =>
    exact blind_of_mask (fun _ => by
      cases f <;> cases w <;> exact .ite (.ok rfl) (destroyTCPStream_unreset _ _ rfl)) s t alike
  case write chunk data =>
    cases w with
    | false =>
      have quiet : (Step.write chunk data).Quiet := trivial
      exact stepStream_flag config listener quiet s t alike
    | true =>
      rw [socket, (dormant rfl).mtcpWrite, ((dormant rfl).of_alike alike).mtcpWrite]
      exact .ite (.ok alike) (.ok alike)
  case recv len =>
    cases w with
    | false =>
      have quiet : (Step.recv len).Quiet := trivial
      exact stepStream_flag config listener quiet s t alike
    | true =>
      rw [socket, (dormant rfl).mtcpRecv, ((dormant rfl).of_alike alike).mtcpRecv]
      exact .ite (.ok alike) (.ok alike)
  case close room =>
    rw [socket]
    exact .ok (.ite (mtcpClose_unreset room alike) alike)
  case abort room =>
    rw [socket]
    exact .ok (.ite (mtcpAbort_unreset room alike) alike)
  case listen => exact .ok alike
  case closeListener =>
    exact .ok (alike_of_mask (f := fun s => { s with queues := { s.queues with acceptq := 0 } })
      (fun _ => by cases f <;> cases w <;> rfl) alike)

theorem destroy_dormant (done : destroyTCPStream s = .ok t) (dormant : Dormant s) : Dormant t := by
  unfold destroyTCPStream at done
  split at done <;> cases done
  exact ⟨dormant.state, dormant.cwnd, rfl⟩

theorem Ended.dormant (ended : Ended s t) (dormant : Dormant s) : Dormant t := by
  rcases ended with ⟨-, rfl⟩ | ⟨-, destroy⟩
  · exact { dormant with }
  · exact destroy_dormant destroy dormant

theorem writeTCPControlList_dormant {output curTs}
    (done : writeTCPControlList output curTs s = .ok t) (dormant : Dormant s) : Dormant t := by
  refine @writeTCPControlList_preserves _ _ _ Dormant _ (fun _ _ => ?_) (fun before => ?_)
    (fun before destroy => ?_) done
  · exact { dormant with }
  · refine ⟨before.state, before.cwnd, ?_⟩
    unfold handOver
    dsimp only
    split <;> exact before.unwatched
  · exact destroy_dormant destroy before

theorem Dormant.closingState (dormant : Dormant s) : closingState s.state = s.state := by
  rcases dormant.state with state | state | state <;> rw [state] <;> rfl

variable {config : Config}

theorem stepStream_dormant {listener} (between : taken.isSegment = false)
    (done : stepStream config listener s taken = .ok t) (dormant : Dormant s) : Dormant t := by
  have ⟨state, cwnd, unwatched⟩ := dormant
  cases stepStream_stepped done
  case segment => cases between
  case rtoUnopened destroy | timewaitExpire destroy =>
    exact destroy_dormant destroy ⟨.inl rfl, cwnd, unwatched⟩
  case closeqReset destroy | resetqReset destroy =>
    exact destroy_dormant destroy ⟨.inl rfl, cwnd, rfl⟩
  case destroyq destroy => exact destroy_dormant destroy ⟨state, cwnd, unwatched⟩
  case rtoReset destroy => exact destroy_dormant destroy ⟨state, .inr rfl, unwatched⟩
  case rtoLost ended => exact ended.dormant ⟨.inl rfl, cwnd, unwatched⟩
  case rtoFailed ended => exact ended.dormant ⟨.inl rfl, .inr rfl, unwatched⟩
  case connectionTimeout listed _ => exact Bool.noConfusion (listed.symm.trans unwatched)
  case rtoData | rtoFinData | rtoFin | rtoSyn => exact ⟨state, .inr rfl, unwatched⟩
  case writeControl done => exact writeTCPControlList_dormant done dormant
  case writeData done =>
    rw [writeTCPDataList, dormant.serveData] at done
    cases done
    exact ⟨state, cwnd, unwatched⟩
  case writeAck =>
    rw [writeTCPACKList, serveACKs, dormant.toAck, if_neg (by decide)]
    exact ⟨state, cwnd, unwatched⟩
  case closeqWaiting | closeqControl =>
    rw [dormant.closingState]
    exact ⟨state, cwnd, rfl⟩
  case closeqIntControl =>
    rw [dormant.closingState]
    exact ⟨state, cwnd, unwatched⟩
  case resetqControl => exact ⟨.inl rfl, cwnd, rfl⟩
  case resetqIntControl | abortDestroy => exact ⟨.inl rfl, cwnd, unwatched⟩
  case recv len done =>
    rw [dormant.mtcpRecv] at done
    exact Except.ok.inj done ▸ dormant
  case closeqTaken | closeqDeferred | resetqTaken | resetqDeferred => exact ⟨state, cwnd, rfl⟩
  all_goals exact ⟨state, cwnd, unwatched⟩

def Fledgling (s : TcpStream) : Prop := s.state.opening = true → Dormant s

theorem fledgling_of_settled (settles : Settles s t) (settled : s.state.opening = false) :
    Fledgling t := by
  intro opening
  rw [settles.settled settled] at opening
  cases opening

variable {around : Surroundings} {segment : Segment}

theorem completeActiveOpen_fledgling (done : completeActiveOpen config around segment s = .ok t) :
    Fledgling t := by
  obtain ⟨opened, opens, finish⟩ := completeActiveOpen_cases done
  have settled : opened.state.opening = false := by rw [opens.state]; rfl
  rcases finish with ⟨-, watched⟩ | ⟨-, destroy⟩
  · have waiting : Settles opened (addtoControlList (raise .write opened)) :=
      { raise_settles .write (.refl opened) with }
    exact fledgling_of_settled (watched.settles waiting) settled
  · exact fledgling_of_settled (destroy_settles destroy { Settles.refl opened with }) settled

theorem completePassiveOpen_settled (done : completePassiveOpen config around segment s = .ok t) :
    t.state.opening = false := by
  rcases completePassiveOpen_cases done with (rfl | rfl) | (rfl | rfl) <;> rfl

theorem Handled.fledgling (handled : Handled config around segment s t) (dormant : Dormant s) :
    Fledgling t := by
  have ⟨state, cwnd, unwatched⟩ := dormant
  cases handled
  case same => exact fun _ => dormant
  case answered settled answered => exact fledgling_of_settled (answered.settles settled) settled
  case listen now => simp [now] at state
  case simultaneous => exact fun _ => ⟨.inr (.inr rfl), cwnd, unwatched⟩
  case synAcked | synAgain | synResent => exact fun _ => ⟨state, cwnd, unwatched⟩
  case synReset ended =>
    intro opening
    rw [ended.state] at opening
    cases opening
  case active complete => exact completeActiveOpen_fledgling complete
  case passive complete =>
    exact fledgling_of_settled (.refl _) (completePassiveOpen_settled complete)
  case passiveData complete _ answered =>
    have settled := completePassiveOpen_settled complete
    exact fledgling_of_settled (answered.settles settled) settled
  case resetOpening destroy =>
    intro opening
    rw [destroy_state destroy] at opening
    cases opening

theorem processTCPPacket_fledgling (fledgling : Fledgling s)
    (done : processTCPPacket config around segment s = .ok t) : Fledgling t := by
  cases opening : s.state.opening with
  | false => exact fledgling_of_settled (processTCPPacket_settles opening done) opening
  | true =>
    exact (processTCPPacket_opening opening done).fledgling { fledgling opening with }

theorem step_fledgling {host next} (fledgling : Fledgling host.stream)
    (done : step config host taken = .ok next) : Fledgling next.stream := by
  obtain ⟨stream, stepped, finish⟩ := bind_ok done
  cases finish
  rcases taken.segment_or with ⟨curTs, chunk, acceptRoom, segment, rfl⟩ | between
  · dsimp only [stepStream] at stepped
    split at stepped
    · exact processTCPPacket_fledgling fledgling stepped
    · exact Except.ok.inj stepped ▸ fledgling
  · have settles := stepStream_settles (by simp [between]) stepped
    exact fun opening => stepStream_dormant between stepped (fledgling (settles.opening opening))

theorem start_fledgling {opening host} (valid : opening.Valid)
    (done : start config opening = .ok host) : Fledgling host.stream := by
  cases opening with
  | active iss room listener =>
    cases done
    cases room <;> exact fun _ => ⟨.inr (.inl rfl), .inl (UInt32.le_refl 1), rfl⟩
  | passive iss curTs segment =>
    cases start_passive valid.1 done
    exact fun _ => ⟨.inr (.inr rfl), .inl (UInt32.le_refl 1), rfl⟩

theorem run_fledgling {opening initial host steps}
    (valid : opening.Valid) (started : start config opening = .ok initial)
    (ran : run config initial steps = .ok host) : Fledgling host.stream := by
  have along : Along config (fun _ _ => True) initial steps := .of_forall (fun _ _ _ => trivial) initial
  exact run_preserves (fun fledgling _ => step_fledgling fledgling) (start_fledgling valid started)
    along ran

def Related (s t : TcpStream) : Prop :=
  ∃ f w, Alike (unreset f w) s t ∧ (f = true → s.haveReset = true) ∧ (w = true → Dormant t)

theorem Related.flagged (related : Related s t) (reset : t.haveReset = true) :
    ∃ w, Alike (unreset false w) s t ∧ (w = true → Dormant t) := by
  obtain ⟨f, w, alike, flag, dormant⟩ := related
  cases f with
  | false => exact ⟨w, alike, dormant⟩
  | true =>
    refine ⟨w, ?_, dormant⟩
    have rest : unreset true w s = unreset true w t := alike
    have first : unreset false w s = unreset true w s := by
      simp [unreset, flag rfl]
    have second : unreset false w t = unreset true w t := by
      simp [unreset, reset]
    exact first.trans (rest.trans second.symm)

theorem noteSegment_unreset (curTs : UInt32) (segment : Segment) (alike : Alike (unreset f w) s t) :
    Alike (unreset f false) (noteSegment curTs segment s) (noteSegment curTs segment t) := by
  have overwritten : ∀ s, unreset f false (noteSegment curTs segment s) =
      unreset f false (noteSegment curTs segment (unreset f w s)) := by
    intro s
    cases f <;> cases w <;> rfl
  unfold Alike
  rw [overwritten s, overwritten t, show unreset f w s = unreset f w t from alike]

theorem acceptSegment_unreset (config : Config) (around : Surroundings) (segment : Segment)
    (alike : Alike (unreset f w) s t) :
    Both (Alike (unreset f false)) (acceptSegment config around segment s)
      (acceptSegment config around segment t) := by
  have noted := noteSegment_unreset around.curTs segment alike
  cases f with
  | true => exact acceptSegment_of_noted (m := .reset) config around segment noted
  | false =>
    unfold acceptSegment
    rw [eq_of_alike noted]
    exact (Both.same _).mono fun _ _ same => same ▸ .refl _

theorem segment_unreset (config : Config) (listener : Bool) (curTs : UInt32)
    (chunk : Option (List UInt8)) (acceptRoom : Bool) (segment : Segment)
    (alike : Alike (unreset f w) s t) (dormant : w = true → Dormant t) (found : t.onHashTable = true) :
    Both (Alike (unreset f false))
      (stepStream config listener s (.segment curTs chunk acceptRoom segment))
      (stepStream config listener t (.segment curTs chunk acceptRoom segment)) := by
  have quiet : (Step.segment curTs chunk acceptRoom segment).Quiet := trivial
  cases w with
  | false => exact stepStream_flag config listener quiet s t alike
  | true =>
    have same : s.onHashTable = t.onHashTable := alike.field (f := (·.onHashTable)) fun _ => rfl
    dsimp only [stepStream]
    rw [same, if_pos found, if_pos found, processTCPPacket, processTCPPacket,
      if_neg (dormant rfl).number, if_neg ((dormant rfl).of_alike alike).number]
    exact acceptSegment_unreset config _ segment alike

theorem stepStream_related (config : Config) (listener : Bool) (related : Related s t)
    (unconsulted : Consults t taken → t.haveReset = true) :
    Both Related (stepStream config listener s taken) (stepStream config listener t taken) := by
  rcases taken.segment_or with ⟨curTs, chunk, acceptRoom, segment, rfl⟩ | between
  · obtain ⟨f, w, alike, flag, dormant⟩ := related
    by_cases found : t.onHashTable = true
    · refine (segment_unreset config listener curTs chunk acceptRoom segment alike dormant found).imp ?_
      intro a b first _ alike
      exact ⟨f, false, alike, fun hidden => stepStream_haveReset first (flag hidden), nofun⟩
    · have same : s.onHashTable = t.onHashTable := alike.field (f := (·.onHashTable)) fun _ => rfl
      dsimp only [stepStream]
      rw [same, if_neg found, if_neg found]
      exact .ok ⟨f, w, alike, flag, dormant⟩
  · by_cases consults : Consults t taken
    · obtain ⟨w, alike, dormant⟩ := related.flagged (unconsulted consults)
      refine (stepStream_unreset config listener alike dormant nofun between).imp ?_
      intro a b _ second alike
      exact ⟨false, w, alike, nofun, fun hidden => stepStream_dormant between second (dormant hidden)⟩
    · obtain ⟨f, w, alike, flag, dormant⟩ := related
      refine (stepStream_unreset config listener alike dormant (fun _ => consults) between).imp ?_
      intro a b first second alike
      exact ⟨f, w, alike, fun hidden => stepStream_haveReset first (flag hidden),
        fun hidden => stepStream_dormant between second (dormant hidden)⟩

/-- The two runs differ only in the flag and, until the next segment, in the peer's window and the
time of the last segment. -/
structure Unnoticed (reset undisturbed : Host) : Prop where
  listener : reset.listener = undisturbed.listener
  stream : reset.stream = { undisturbed.stream with
    haveReset := reset.stream.haveReset
    ctl := { undisturbed.stream.ctl with peerWnd := reset.stream.ctl.peerWnd }
    rcv := { undisturbed.stream.rcv with lastActiveTs := reset.stream.rcv.lastActiveTs } }

theorem Related.unnoticed (related : Related s t) (listener : Bool) :
    Unnoticed ⟨s, listener⟩ ⟨t, listener⟩ := by
  obtain ⟨f, w, alike, -, -⟩ := related
  refine ⟨rfl, ?_⟩
  have whole : unreset true true s = unreset true true t := by
    have once : ∀ s, unreset true true s = unreset true true (unreset f w s) := by
      intro s
      cases f <;> cases w <;> rfl
    rw [once s, once t, show unreset f w s = unreset f w t from alike]
  let restored (u : TcpStream) : TcpStream :=
    { u with
      haveReset := s.haveReset
      ctl := { u.ctl with peerWnd := s.ctl.peerWnd }
      rcv := { u.rcv with lastActiveTs := s.rcv.lastActiveTs } }
  calc s = restored (unreset true true s) := rfl
    _ = restored (unreset true true t) := by rw [whole]
    _ = restored t := rfl

def Unconsulted (host : Host) (taken : Step) : Prop :=
  Consults host.stream taken → host.stream.haveReset = true

theorem run_related (config : Config) {later} : ∀ {s t} {listener},
    Related s t → Along config Unconsulted ⟨t, listener⟩ later →
      Both Unnoticed (run config ⟨s, listener⟩ later) (run config ⟨t, listener⟩ later) := by
  induction later with
  | nil => exact fun related _ => .ok (related.unnoticed _)
  | cons taken rest ih =>
    intro s t listener related unconsulted
    have stepped : Both (fun first second : Host =>
        Related first.stream second.stream ∧ first.listener = second.listener)
        (step config ⟨s, listener⟩ taken) (step config ⟨t, listener⟩ taken) :=
      .bind (stepStream_related config listener related unconsulted.1)
        fun _ _ related => .ok ⟨related, rfl⟩
    have followed := stepped.imp fun _ second _ done both => And.intro both (unconsulted.2 second done)
    refine .bind followed ?_
    rintro ⟨s, listener⟩ ⟨t, _⟩ ⟨⟨related, rfl⟩, unconsulted⟩
    exact ih related unconsulted

/-- A reset that is not acted on: in `SYN_SENT` without an acceptable acknowledgment of our SYN, in
`SYN_RCVD` with an acknowledgment number other than `snd_nxt`. -/
def IgnoredReset (segment : Segment) (s : TcpStream) : Prop :=
  segment.flags.rst = true ∧
    (s.state = .synSent ∧ ¬(segment.flags.ack = true ∧ tcpSeqGt segment.ackSeq s.seqs.iss ∧
        tcpSeqLeq segment.ackSeq s.seqs.sndNxt) ∨
      s.state = .synRcvd ∧ segment.ackSeq ≠ s.seqs.sndNxt)

instance (segment : Segment) (s : TcpStream) : Decidable (IgnoredReset segment s) :=
  inferInstanceAs (Decidable (_ ∧ _))

theorem handleSynSent_ignored (rst : segment.flags.rst = true)
    (unacceptable : ¬(segment.flags.ack = true ∧ tcpSeqGt segment.ackSeq s.seqs.iss ∧
      tcpSeqLeq segment.ackSeq s.seqs.sndNxt)) : handleSynSent config around segment s = .ok s := by
  unfold handleSynSent
  cases ack : segment.flags.ack with
  | true =>
    have outside : tcpSeqLeq segment.ackSeq s.seqs.iss ∨ tcpSeqGt segment.ackSeq s.seqs.sndNxt := by
      simp only [ack, tcpSeqGt, tcpSeqLeq, true_and] at unacceptable ⊢
      omega
    rw [if_pos ⟨rfl, outside⟩]
  | false => simp [rst]

theorem processTCPPacket_ignored (ignored : IgnoredReset segment s) :
    processTCPPacket config around segment s = .ok (noteSegment around.curTs segment s) := by
  obtain ⟨rst, ⟨state, unacceptable⟩ | ⟨state, other⟩⟩ := ignored
  · have early : ¬TcpState.synRcvd.number < s.state.number := by rw [state]; decide
    have noted : (noteSegment around.curTs segment s).state = .synSent := state
    rw [processTCPPacket, if_neg early, acceptSegment, if_pos rst, processRST, noted]
    refine Eq.trans (show _ = handleState config around segment _ from rfl) ?_
    rw [handleState, noted]
    exact handleSynSent_ignored rst unacceptable
  · have early : ¬TcpState.synRcvd.number < s.state.number := by rw [state]; decide
    have noted : (noteSegment around.curTs segment s).state = .synRcvd := state
    have different : segment.ackSeq ≠ (noteSegment around.curTs segment s).seqs.sndNxt := other
    rw [processTCPPacket, if_neg early, acceptSegment, if_pos rst, processRST, noted]
    dsimp only
    rw [if_neg different]
    rfl

theorem IgnoredReset.related (ignored : IgnoredReset segment s) (fledgling : Fledgling s)
    (curTs : UInt32) : Related (noteSegment curTs segment s) s := by
  have dormant : Dormant s := by
    rcases ignored.2 with ⟨state, -⟩ | ⟨state, -⟩ <;> exact fledgling (by rw [state]; rfl)
  refine ⟨true, true, rfl, fun _ => ?_, fun _ => dormant⟩
  simp [noteSegment, ignored.1]

/-- After a reset that is not acted on all is as if it had not come, as long as no step looks at its
flag. -/
theorem ignored_reset_unnoticed {config : Config} {opening : Opening} {initial host : Host}
    {earlier later : List Step} {curTs : UInt32} {chunk : Option (List UInt8)} {acceptRoom : Bool}
    {segment : Segment} (valid : opening.Valid) (started : start config opening = .ok initial)
    (ran : run config initial earlier = .ok host) (ignored : IgnoredReset segment host.stream)
    (unconsulted : Along config Unconsulted host later) :
    Both Unnoticed (run config host (.segment curTs chunk acceptRoom segment :: later))
      (run config host later) := by
  have fledgling := run_fledgling valid started ran
  obtain ⟨stream, listener⟩ := host
  cases found : stream.onHashTable with
  | true =>
    have noted : run config ⟨stream, listener⟩ (.segment curTs chunk acceptRoom segment :: later) =
        run config ⟨noteSegment curTs segment stream, listener⟩ later := by
      rw [run, List.foldlM_cons, step, stepStream, if_pos found, processTCPPacket_ignored ignored]
      rfl
    rw [noted]
    exact run_related config (ignored.related fledgling curTs) unconsulted
  | false =>
    have dropped : run config ⟨stream, listener⟩ (.segment curTs chunk acceptRoom segment :: later) =
        run config ⟨stream, listener⟩ later := by
      rw [run, List.foldlM_cons, step, stepStream, if_neg (by simp [found])]
      rfl
    rw [dropped]
    exact run_related config ⟨false, false, rfl, nofun, nofun⟩ unconsulted

def wrongReset : Segment := { sampleSegment { rst := true } with ackSeq := 7 }

def acceptAndWrite : List Step :=
  [.segment 2 none true (sampleSegment { ack := true }), .accept true,
    .write (some (List.replicate 64 0)) (List.replicate 10 7), .sendq]

theorem wrong_reset_unnoticed : ∃ initial host,
    start sampleConfig (.passive 100 0 (sampleSegment { syn := true })) = .ok initial ∧
      run sampleConfig initial [.writeControl true 0] = .ok host ∧
      IgnoredReset wrongReset host.stream ∧
      Both Unnoticed
        (run sampleConfig host (.segment 1 none true wrongReset :: acceptAndWrite ++ [.writeData 1 3]))
        (run sampleConfig host (acceptAndWrite ++ [.writeData 1 3])) := by
  obtain ⟨initial, host, started, ran, ignored⟩ : ∃ initial host,
      start sampleConfig (.passive 100 0 (sampleSegment { syn := true })) = .ok initial ∧
        run sampleConfig initial [.writeControl true 0] = .ok host ∧
        IgnoredReset wrongReset host.stream := ⟨_, _, rfl, rfl, by decide⟩
  have unconsulted : Along sampleConfig Unconsulted host (acceptAndWrite ++ [.writeData 1 3]) := by
    refine .of_forall (fun taken member host => ?_) host
    simp only [acceptAndWrite, List.cons_append, List.nil_append, List.mem_cons, List.not_mem_nil,
      or_false] at member
    rcases member with rfl | rfl | rfl | rfl | rfl <;> exact False.elim
  have valid : (Opening.passive 100 0 (sampleSegment { syn := true })).Valid := ⟨rfl, rfl⟩
  exact ⟨initial, host, started, ran, ignored,
    ignored_reset_unnoticed valid started ran ignored unconsulted⟩

def sentData (history : List Action) : Bool :=
  history.any fun action => match action with
    | .sent packet => packet.payload ≠ []
    | _ => false

def sentFin (history : List Action) : Bool :=
  history.any fun action => match action with
    | .sent packet => packet.flags.fin
    | _ => false

theorem ignored_reset_destroys : ∃ initial host reset undisturbed,
    start sampleConfig (.passive 100 0 (sampleSegment { syn := true })) = .ok initial ∧
      run sampleConfig initial [.writeControl true 0] = .ok host ∧
      IgnoredReset wrongReset host.stream ∧
      run sampleConfig host (.segment 1 none true wrongReset ::
        (acceptAndWrite ++ [.close true, .closeq, .writeControl true 3, .writeData 1 3,
          .writeControl true 4])) = .ok reset ∧
      run sampleConfig host (acceptAndWrite ++ [.close true, .closeq, .writeControl true 3,
        .writeData 1 3, .writeControl true 4]) = .ok undisturbed ∧
      reset.stream.destroyed = 1 ∧ sentData reset.stream.history = false ∧
      sentFin reset.stream.history = false ∧
      undisturbed.stream.destroyed = 0 ∧ sentData undisturbed.stream.history = true ∧
      sentFin undisturbed.stream.history = true := by
  refine ⟨_, _, _, _, rfl, rfl, ?_, rfl, rfl, rfl, ?_, ?_, rfl, ?_, ?_⟩ <;> decide

end Mcc
