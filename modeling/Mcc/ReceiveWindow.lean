import Mcc.ReceiveBuffer
import Mcc.Stepped

/-!
The receive window of a connection: what the stack has told the peer it has room for, and what its
receive buffer has room for.
-/

namespace Mcc

open SerialNumber RingBuffer Grows

def TcpState.receiving : TcpState → Bool
  | .established | .finWait1 | .finWait2 => true
  | _ => false

structure RecvView where
  rcvNxt : UInt32
  rcvWnd : UInt32
  irs : UInt32
  rcvbuf : Option TcpRingBuffer
  needWndAdv : Bool
  wscaleMine : UInt8
  effMss : UInt16
  mss : UInt16

@[simp] def TcpStream.recvView (s : TcpStream) : RecvView where
  rcvNxt := s.rcv.rcvNxt
  rcvWnd := s.rcv.rcvWnd
  irs := s.rcv.irs
  rcvbuf := s.rcv.rcvbuf
  needWndAdv := s.rcv.needWndAdv
  wscaleMine := s.ctl.wscaleMine
  effMss := s.ctl.effMss
  mss := s.ctl.mss

section View

variable {s t : TcpStream} {curTs : UInt32} {segment : Segment}

theorem updateWindow_recvView (ackSeq : UInt32) :
    (updateWindow segment ackSeq s).recvView = s.recvView := by
  obtain ⟨_, _, _, _, form, -⟩ := updateWindow_form segment ackSeq s
  rw [form]
  rfl

theorem countDuplicate_recvView (ackSeq edge : UInt32) :
    (countDuplicate segment ackSeq edge s).1.recvView = s.recvView := by
  unfold countDuplicate
  split <;> rfl

theorem fastRetransmit_recvView {ackSeq dup}
    (done : fastRetransmit ackSeq dup s = .ok t) : t.recvView = s.recvView := by
  obtain ⟨_, _, _, _, _, rfl, -⟩ := fastRetransmit_form done
  rfl

theorem estimateRTT_recvView (mrtt : UInt32) : (estimateRTT mrtt s).recvView = s.recvView := by
  by_cases first : s.rcv.srtt = 0
  · have same : estimate mrtt s.seqs s.rcv = _ := if_pos first
    rw [estimateRTT, same]
    rfl
  · have same : estimate mrtt s.seqs s.rcv = _ := if_neg first
    rw [estimateRTT, same]
    by_cases above : tcpSeqGt s.seqs.sndUna s.rcv.rttSeq
    · rw [if_pos above]
      rfl
    · rw [if_neg above]
      rfl

theorem measureRTT_recvView (done : measureRTT curTs s = .ok t) : t.recvView = s.recvView := by
  obtain ⟨rcv, rto, rfl | ⟨mrtt, rfl⟩, rfl⟩ := measureRTT_form done
  · rfl
  · exact estimateRTT_recvView mrtt

theorem acknowledge_recvView {ackSeq buf}
    (done : acknowledge curTs segment ackSeq buf s = .ok t) : t.recvView = s.recvView := by
  unfold acknowledge at done
  split at done
  · cases done
    rfl
  · split at done
    · cases done
    · obtain ⟨measured, measure, rest⟩ := bind_ok done
      obtain ⟨grown, grow, timed⟩ := bind_ok rest
      obtain ⟨sndWnd, history, removed, -⟩ := removeAcked_form segment ackSeq buf grown
      rw [removed] at timed
      obtain ⟨-, tsRto, rfl⟩ := updateRetransmissionTimer_form timed
      obtain ⟨cwnd, rfl⟩ := growWindow_form grow
      have view := measureRTT_recvView measure
      exact view

theorem receiveACK_recvView (done : receiveACK curTs segment s = .ok t) : t.recvView = s.recvView := by
  unfold receiveACK at done
  split at done
  · cases done
    rfl
  · unfold processACK at done
    split at done
    · cases done
    · dsimp only at done
      split at done
      · cases done
        rfl
      · obtain ⟨resent, resend, acked⟩ := bind_ok done
        rw [recoverAfterLoss_spec] at acked
        refine (acknowledge_recvView acked).trans ?_
        refine (fastRetransmit_recvView resend).trans ?_
        exact (countDuplicate_recvView _ _).trans (updateWindow_recvView _)

end View

section Invariant

def Fitted (config : Config) (s : TcpStream) : Prop :=
  match s.rcv.rcvbuf with
  | none => s.rcv.rcvNxt = s.rcv.irs + 1 ∧ s.rcv.rcvWnd = 14600
  | some buff => Sound config.rbm buff ∧ s.rcv.rcvNxt = plus buff.headSeq buff.mergedLen ∧
      s.rcv.rcvWnd = UInt32.ofNat (config.rbm.chunkSize - buff.mergedLen)

def space (config : Config) (s : TcpStream) : Nat :=
  match s.rcv.rcvbuf with
  | none => 14600
  | some buff => config.rbm.chunkSize - buff.mergedLen

def TcpState.active (state : TcpState) : Bool := state.opening || state.receiving

structure WindowInv (config : Config) (left : Nat) (s : TcpStream) : Prop where
  scale : s.ctl.wscaleMine = 7
  opening : s.state.opening = true → s.rcv.rcvbuf = none ∧ s.rcv.rcvWnd = 14600
  receiving : s.state.receiving = true → Fitted config s
  room : 14600 ≤ config.rbm.chunkSize → s.state.active = true → left ≤ space config s

def Honours (config : Config) (left : Nat) (s : TcpStream) : Prop :=
  s.onHashTable = true → WindowInv config left s

def received (s : TcpStream) : UInt32 :=
  if s.state.opening then 0 else s.rcv.rcvNxt - (s.rcv.irs + 1)

structure Quiet (s t : TcpStream) : Prop where
  live : t.onHashTable = true → s.onHashTable = true
  view : t.onHashTable = true → t.recvView = s.recvView
  opening : t.state.opening = true → s.state.opening = true
  receiving : t.state.receiving = true → s.state.receiving = true
  history : Grows (fun action => ¬action.IsSent) s.history t.history

structure AckView where
  onAckList : Bool
  ackCnt : UInt8
  ackq : Nat
  onAckq : Bool

@[simp] def TcpStream.ackView (s : TcpStream) : AckView where
  onAckList := s.lists.onAckList
  ackCnt := s.lists.ackCnt
  ackq := s.queues.ackq
  onAckq := s.queues.onAckq

structure Still (s t : TcpStream) : Prop extends Quiet s t where
  acks : t.onHashTable = true → t.ackView = s.ackView

structure Absorbs (config : Config) (s t : TcpStream) : Prop where
  live : t.onHashTable = true → s.onHashTable = true
  active : t.onHashTable = true → t.state.active = true → s.state.active = true
  kept : ∀ left, Honours config left s → Honours config (left - (received t - received s).toNat) t
  history : Grows (fun action => ¬action.IsSent) s.history t.history

variable {config : Config} {s t u : TcpStream} {left : Nat}

theorem Quiet.refl (s : TcpStream) : Quiet s s := ⟨id, fun _ => rfl, id, id, Grows.refl _ _⟩

theorem Quiet.trans (first : Quiet s t) (second : Quiet t u) : Quiet s u where
  live := first.live ∘ second.live
  view live := (second.view live).trans (first.view (second.live live))
  opening := first.opening ∘ second.opening
  receiving := first.receiving ∘ second.receiving
  history := first.history.trans second.history

theorem Quiet.of_steady (steady : Steady s t) (view : t.recvView = s.recvView)
    (history : Grows (fun action => ¬action.IsSent) s.history t.history) : Quiet s t where
  live live := by
    have status := steady.status
    replace status := Status.mk.inj status
    rwa [← status.2.2.2.1]
  view _ := view
  opening opening := by rwa [← steady.state]
  receiving receiving := by rwa [← steady.state]
  history := history

theorem Quiet.of_past (live : t.onHashTable = true → s.onHashTable = true)
    (view : t.onHashTable = true → t.recvView = s.recvView) (past : t.state.active = false)
    (history : Grows (fun action => ¬action.IsSent) s.history t.history) : Quiet s t where
  live := live
  view := view
  opening opening := by simp [TcpState.active, opening] at past
  receiving receiving := by simp [TcpState.active, receiving] at past
  history := history

theorem Still.trans (first : Still s t) (second : Still t u) : Still s u :=
  ⟨first.toQuiet.trans second.toQuiet,
    fun live => (second.acks live).trans (first.acks (second.live live))⟩

variable {state : TcpState}

theorem active_cases (active : state.active = true) : state.opening = true ∨ state.receiving = true := by
  simpa [TcpState.active] using active

theorem opening_not_receiving (opening : state.opening = true) : state.receiving = false := by
  cases state <;> first | rfl | cases opening

theorem Quiet.active (quiet : Quiet s t) (active : t.state.active = true) : s.state.active = true := by
  rcases active_cases active with opening | receiving
  · simp [TcpState.active, quiet.opening opening]
  · simp [TcpState.active, quiet.receiving receiving]

theorem Quiet.received (quiet : Quiet s t) (live : t.onHashTable = true)
    (active : t.state.active = true) : received t = received s := by
  have view := quiet.view live
  simp only [TcpStream.recvView, RecvView.mk.injEq] at view
  rcases active_cases active with opening | receiving
  · simp [Mcc.received, opening, quiet.opening opening]
  · have notOpening : ∀ {state : TcpState}, state.receiving = true → state.opening = false := by
      intro state receiving
      cases state <;> first | rfl | cases receiving
    simp [Mcc.received, notOpening receiving, notOpening (quiet.receiving receiving), view.1, view.2.2.1]

theorem WindowInv.mono {less} (inv : WindowInv config left s) (le : less ≤ left) :
    WindowInv config less s :=
  { inv with room := fun large active => Nat.le_trans le (inv.room large active) }

theorem Fitted.congr (fitted : Fitted config s) (view : t.recvView = s.recvView) : Fitted config t := by
  simp only [TcpStream.recvView, RecvView.mk.injEq] at view
  obtain ⟨rcvNxt, rcvWnd, irs, rcvbuf, -⟩ := view
  simpa only [Fitted, rcvNxt, rcvWnd, irs, rcvbuf] using fitted

theorem Quiet.kept (quiet : Quiet s t) (kept : Honours config left s) : Honours config left t := by
  intro live
  have inv := kept (quiet.live live)
  have view := quiet.view live
  have fields := view
  simp only [TcpStream.recvView, RecvView.mk.injEq] at fields
  obtain ⟨-, rcvWnd, -, rcvbuf, -, scale, -⟩ := fields
  refine ⟨scale.trans inv.scale, fun opening => ?_, fun receiving => ?_, fun large active => ?_⟩
  · rw [rcvbuf, rcvWnd]
    exact inv.opening (quiet.opening opening)
  · exact (inv.receiving (quiet.receiving receiving)).congr view
  · have same : space config t = space config s := by simp only [space, rcvbuf]
    rw [same]
    exact inv.room large (quiet.active active)

theorem Quiet.absorbs (quiet : Quiet s t) : Absorbs config s t where
  __ := quiet
  active _ := quiet.active
  kept _ kept live := (quiet.kept kept live).mono (Nat.sub_le _ _)

theorem WindowInv.of_past (scale : s.ctl.wscaleMine = 7) (past : s.state.active = false) :
    WindowInv config left s where
  scale := scale
  opening opening := by simp [TcpState.active, opening] at past
  receiving receiving := by simp [TcpState.active, receiving] at past
  room _ active := by simp [active] at past

theorem Absorbs.after (quiet : Quiet s t) (absorbs : Absorbs config t u) : Absorbs config s u where
  live := quiet.live ∘ absorbs.live
  active live active := quiet.active (absorbs.active live active)
  kept left kept live := by
    have inv := absorbs.kept left (quiet.kept kept) live
    cases active : u.state.active with
    | false => exact WindowInv.of_past inv.scale active
    | true =>
      rw [← quiet.received (absorbs.live live) (absorbs.active live active)]
      exact inv
  history := quiet.history.trans absorbs.history

theorem Absorbs.before (absorbs : Absorbs config s t) (quiet : Quiet t u) : Absorbs config s u where
  live := absorbs.live ∘ quiet.live
  active live active := absorbs.active (quiet.live live) (quiet.active active)
  kept left kept live := by
    have inv := quiet.kept (absorbs.kept left kept) live
    cases active : u.state.active with
    | false => exact WindowInv.of_past inv.scale active
    | true =>
      rw [quiet.received live active]
      exact inv
  history := absorbs.history.trans quiet.history

theorem Absorbs.trans (first : Absorbs config s t) (same : received t = received s)
    (second : Absorbs config t u) : Absorbs config s u where
  live := first.live ∘ second.live
  active live active := first.active (second.live live) (second.active live active)
  kept left kept := by
    have between := first.kept left kept
    rw [same, UInt32.sub_self] at between
    rw [← same]
    exact second.kept left between
  history := first.history.trans second.history

theorem Absorbs.past (absorbs : Absorbs config s t) (live : u.onHashTable = true → t.onHashTable = true)
    (scale : u.ctl.wscaleMine = t.ctl.wscaleMine) (past : u.state.active = false)
    (history : Grows (fun action => ¬action.IsSent) t.history u.history) : Absorbs config s u where
  live := absorbs.live ∘ live
  active _ active := by simp [active] at past
  kept left kept on :=
    WindowInv.of_past (scale.trans (absorbs.kept left kept (live on)).scale) past
  history := absorbs.history.trans history

end Invariant

open Mcc.Absorbs

open Quiet

section Payload

variable {config : Config} {s t : TcpStream} {segment : Segment} {around : Surroundings}

theorem raised_not_sent {older newer} (grows : Grows Action.IsRaised older newer) :
    Grows (fun action => ¬action.IsSent) older newer :=
  grows.mono fun action raised sent => by
    cases action <;> first | exact sent | exact raised

theorem window_end {start stop window} (small : window.toNat < 2 ^ 31)
    (notBefore : ¬tcpSeqLt stop start) (notAfter : ¬tcpSeqGt stop (start + window)) :
    (stop - start).toNat ≤ window.toNat := by
  have regroup : stop - (start + window) = stop - start - window := by
    grind
  simp only [tcpSeqLt, tcpSeqGt, regroup, signed, UInt32.toNat_sub (stop - start)] at *
  have word := (stop - start).toNat_lt
  split at notBefore <;> split at notAfter <;> omega

def PutInto (config : Config) (s : TcpStream) (buff : TcpRingBuffer) : Prop :=
  s.rcv.rcvbuf = some buff ∨ s.rcv.rcvbuf = none ∧
    ∃ chunk : List UInt8, chunk.length = config.rbm.chunkSize ∧
      buff = rbInit config.rbm chunk (s.rcv.irs + 1)

variable {buff : TcpRingBuffer}

theorem Fitted.putInto (fitted : Fitted config s) (putInto : PutInto config s buff) :
    Sound config.rbm buff ∧ s.rcv.rcvNxt = plus buff.headSeq buff.mergedLen ∧
      s.rcv.rcvWnd.toNat + buff.mergedLen ≤ max 14600 config.rbm.chunkSize ∧
      (14600 ≤ config.rbm.chunkSize → space config s ≤ config.rbm.chunkSize - buff.mergedLen) := by
  have bounded := config.rbm.bounded
  rcases putInto with held | ⟨absent, chunk, fits, rfl⟩
  · simp only [Fitted, held] at fitted
    obtain ⟨sound, rcvNxt, rcvWnd⟩ := fitted
    have merged := sound.mergedLen_le
    refine ⟨sound, rcvNxt, ?_, fun _ => by simp [space, held]⟩
    rw [rcvWnd, UInt32.toNat_ofNat']
    omega
  · simp only [Fitted, absent] at fitted
    obtain ⟨rcvNxt, rcvWnd⟩ := fitted
    refine ⟨sound_init fits _, ?_, ?_, fun large => ?_⟩
    · rw [rcvNxt]
      exact (UInt32.add_zero _).symm
    · rw [rcvWnd]
      exact Nat.le_max_left _ _
    · simpa [space, absent, rbInit] using large

variable {state : TcpState}

theorem discardPayload_spec {stored kept} (sound : Sound config.rbm stored)
    (done : discardPayload state stored = .ok kept) :
    Sound config.rbm kept ∧ kept.mergedLen ≤ stored.mergedLen ∧
      plus kept.headSeq kept.mergedLen = plus stored.headSeq stored.mergedLen := by
  unfold discardPayload at done
  split at done
  · cases removed : rbRemove stored stored.mergedLen with
    | error fault =>
      rw [removed] at done
      cases done
    | ok result =>
      rw [removed] at done
      cases done
      obtain ⟨after, headSeq, count, mergedLen⟩ := sound.remove removed
      rw [Nat.min_self] at count
      refine ⟨after, by omega, ?_⟩
      rw [headSeq, mergedLen, count, plus_plus, Nat.sub_self, Nat.add_zero]
  · cases done
    exact ⟨sound, Nat.le_refl _, rfl⟩

variable {result : TcpStream × Bool}

theorem window_of_sound (sound : Sound config.rbm buff) :
    UInt32.ofInt (buff.size - buff.mergedLen) = UInt32.ofNat (config.rbm.chunkSize - buff.mergedLen) := by
  rw [sound.size, ← Int.natCast_sub sound.mergedLen_le]
  apply UInt32.toNat_inj.mp
  simp only [UInt32.ofInt, UInt32.toNat_ofNat']
  omega

theorem receiving_not_opening (receiving : state.receiving = true) : state.opening = false := by
  cases state <;> first | rfl | cases receiving

theorem put_stored {stored ret} (fitted : Fitted config s) (putInto : PutInto config s buff)
    (notBefore : ¬tcpSeqLt (segment.seq + segment.payloadlen) s.rcv.rcvNxt)
    (notAfter : ¬tcpSeqGt (segment.seq + segment.payloadlen) (s.rcv.rcvNxt + s.rcv.rcvWnd))
    (put : rbPut buff segment.payload segment.payloadlen segment.seq = .ok (stored, ret)) :
    Sound config.rbm stored ∧ stored.headSeq = buff.headSeq ∧ buff.mergedLen ≤ stored.mergedLen := by
  obtain ⟨sound, next, window, -⟩ := fitted.putInto putInto
  have bounded := config.rbm.bounded
  have inside := window_end (by omega) notBefore notAfter
  have ends : (segment.seq - buff.headSeq + segment.payloadlen).toNat < 2 ^ 31 := by
    have regroup : segment.seq - buff.headSeq + segment.payloadlen =
        plus (segment.seq + segment.payloadlen - s.rcv.rcvNxt) buff.mergedLen := by
      rw [next, plus, plus]
      grind
    rw [regroup, toNat_plus]
    omega
  have supply : segment.payloadlen.toNat ≤ segment.payload.length := by
    rw [Segment.payloadlen, UInt32.toNat_ofNat']
    exact Nat.mod_le _ _
  exact sound.put supply ends put

def Surroundings.Fits (config : Config) (around : Surroundings) : Prop :=
  ∀ chunk, around.chunk = some chunk → chunk.length = config.rbm.chunkSize

section

variable (receiving : s.state.receiving = true)
include receiving

theorem storePayload_absorbs (putInto : PutInto config s buff)
    (notBefore : ¬tcpSeqLt (segment.seq + segment.payloadlen) s.rcv.rcvNxt)
    (notAfter : ¬tcpSeqGt (segment.seq + segment.payloadlen) (s.rcv.rcvNxt + s.rcv.rcvWnd))
    (done : storePayload segment buff s = .ok result) : Absorbs config s result.1 := by
  obtain ⟨after, moved⟩ := result
  obtain ⟨stored, ret, kept, history, put, discard, rfl, grows⟩ := storePayload_form done
  refine ⟨id, fun _ active => active, fun left before on => ?_, raised_not_sent grows⟩
  have inv := before on
  obtain ⟨-, next, -, room⟩ := (inv.receiving receiving).putInto putInto
  obtain ⟨storedSound, headSeq, grown⟩ :=
    put_stored (inv.receiving receiving) putInto notBefore notAfter put
  obtain ⟨keptSound, fewer, same⟩ := discardPayload_spec storedSound discard
  have storedLe := storedSound.mergedLen_le
  have bounded := config.rbm.bounded
  refine ⟨inv.scale, fun opening => ?_, fun _ => ?_, fun large _ => ?_⟩
  · cases (receiving_not_opening receiving).symm.trans opening
  · exact ⟨keptSound, rfl, window_of_sound keptSound⟩
  · have roomLeft := Nat.le_trans (inv.room large (by simp [TcpState.active, receiving])) (room large)
    have moved := toNat_plus_sub_plus buff.headSeq grown (by omega)
    have cancel (a b c : UInt32) : a - c - (b - c) = a - b := by grind
    simp only [received, receiving_not_opening receiving, Bool.false_eq_true, if_false, next, same,
      headSeq, space, cancel]
    omega

theorem receivePayload_absorbs (fits : around.Fits config)
    (done : receivePayload config around segment s = .ok t) : Absorbs config s t := by
  rcases receivePayload_cases done with ⟨-, rfl⟩ | ⟨-, stored, inOrder, rfl, outcome⟩
  · exact (Quiet.refl _).absorbs
  · have absorbs : Absorbs config s stored := by
      rcases outcome with rfl | ⟨buff, held, notBefore, notAfter, store⟩ | ⟨-, -, rfl⟩
      · exact (Quiet.refl _).absorbs
      · refine storePayload_absorbs receiving (held.imp_right ?_) notBefore notAfter store
        rintro ⟨absent, chunk, given, isBuff⟩
        exact ⟨absent, chunk, fits chunk given, isBuff⟩
      · refine Quiet.absorbs (of_past id (fun _ => rfl) rfl ?_)
        exact raised_not_sent (raise_grows .error _)
    exact absorbs.before ⟨id, fun _ => rfl, id, id, .refl _ _⟩

end

end Payload

section Handlers

variable {config : Config} {s t : TcpStream} {segment : Segment} {around : Surroundings} {curTs : UInt32}

theorem receiveACK_quiet (done : receiveACK curTs segment s = .ok t) : Quiet s t := by
  have view := receiveACK_recvView done
  rcases receiveACK_cases done with rfl | ⟨buf, fast, -, -, acked⟩
  · exact .refl t
  · refine of_steady acked.steady view (acked.history.mono fun action kind sent => ?_)
    rcases kind with raised | rfl
    · cases action <;> first | exact sent | exact raised
    · exact sent

theorem receiveACK_state (done : receiveACK curTs segment s = .ok t) : t.state = s.state := by
  rcases receiveACK_cases done with rfl | ⟨buf, fast, -, -, acked⟩
  · rfl
  · exact acked.steady.state

theorem updateRetransmissionTimer_quiet (done : updateRetransmissionTimer curTs s = .ok t) :
    Quiet s t := by
  obtain ⟨-, tsRto, rfl⟩ := updateRetransmissionTimer_form done
  exact of_steady ⟨rfl, rfl, rfl, rfl⟩ rfl (.refl _ _)

theorem destroyTCPStream_still {closing} (done : destroyTCPStream closing = .ok t)
    (past : closing.state.active = false) (history : closing.history = s.history) : Still s t := by
  unfold destroyTCPStream at done
  split at done <;> cases done
  refine ⟨of_past nofun nofun past ?_, nofun⟩
  exact history ▸ .refl _ _

theorem ended_still {closing} (ended : Ended closing t)
    (past : closing.state.active = false) (live : closing.onHashTable = s.onHashTable)
    (view : closing.recvView = s.recvView) (acks : closing.ackView = s.ackView)
    (history : closing.history = s.history) : Still s t := by
  rcases ended with ⟨-, rfl⟩ | ⟨-, destroyed⟩
  · refine ⟨of_past (fun on => live ▸ on) (fun _ => view) past ?_, fun _ => acks⟩
    exact history ▸ raised_not_sent (raise_grows .error closing)
  · exact destroyTCPStream_still destroyed past history

theorem Validated.recvView (validated : Validated s t) : t.recvView = s.recvView := by
  rw [TcpStream.recvView, TcpStream.recvView, validated.ctl, ← validated.rcv]

theorem Validated.quiet (validated : Validated s t) : Quiet s t := by
  refine of_steady validated.toSteady validated.recvView ?_
  rw [validated.history]
  exact .refl _ _

theorem Absorbs.of_opening (opening : s.state.opening = true)
    (live : t.onHashTable = true → s.onHashTable = true)
    (window : t.rcv.rcvWnd = s.rcv.rcvWnd) (rcvbuf : t.rcv.rcvbuf = s.rcv.rcvbuf)
    (scale : t.ctl.wscaleMine = s.ctl.wscaleMine)
    (first : t.state.receiving = true → t.rcv.rcvNxt = t.rcv.irs + 1)
    (history : Grows (fun action => ¬action.IsSent) s.history t.history) : Absorbs config s t where
  live := live
  active _ _ := by simp [TcpState.active, opening]
  kept left kept on := by
    have inv := kept (live on)
    obtain ⟨absent, initial⟩ := inv.opening opening
    refine WindowInv.mono ⟨scale.trans inv.scale, fun _ => ?_, fun receiving => ?_, ?_⟩ (Nat.sub_le _ _)
    · rw [rcvbuf, window]
      exact ⟨absent, initial⟩
    · simp only [Fitted, rcvbuf, absent, window]
      exact ⟨first receiving, initial⟩
    · intro large active
      have room := inv.room large (by simp [TcpState.active, opening])
      simpa only [space, rcvbuf, absent] using room
  history := history

theorem finAcked_quiet (state : s.state = .finWait1) : Quiet s (finAcked segment s) := by
  unfold finAcked
  split
  · exact ⟨id, fun _ => rfl, nofun, fun _ => by rw [state]; rfl, .refl _ _⟩
  · exact .refl s

theorem finAcked_state (state : s.state = .finWait1) :
    (finAcked segment s).state = .finWait1 ∨ (finAcked segment s).state = .finWait2 := by
  unfold finAcked
  split
  · exact .inr rfl
  · exact .inl state

theorem Absorbed.absorbs (fits : around.Fits config)
    (absorbed : Absorbed config around segment s t) : Absorbs config s t := by
  cases absorbed
  case established state receive ack =>
    have payload := receivePayload_absorbs (by rw [state]; rfl) fits receive
    rcases ack with ⟨-, ack⟩ | ⟨-, rfl⟩
    · exact payload.before (receiveACK_quiet ack)
    · exact payload
  case acked ack => exact (receiveACK_quiet ack).absorbs
  case finWait1 acked state _ ack receive =>
    have same : acked.state = .finWait1 := (receiveACK_state ack).trans state
    have quiet := (receiveACK_quiet ack).trans (@finAcked_quiet acked segment same)
    refine (receivePayload_absorbs ?_ fits receive).after quiet
    rcases @finAcked_state acked segment same with one | two
    · rw [one]; rfl
    · rw [two]; rfl
  case finWait2 acked state _ ack receive =>
    have same : acked.state = .finWait2 := (receiveACK_state ack).trans state
    exact (receivePayload_absorbs (by rw [same]; rfl) fits receive).after (receiveACK_quiet ack)

theorem Absorbed.closed (absorbed : Absorbed config around segment s t)
    (state : s.state = .finWait1) (one : t.state ≠ .finWait1) (two : t.state ≠ .finWait2) :
    t.state = .closed := by
  cases absorbed
  case finWait1 acked _ _ ack receive =>
    rcases (receivePayload_spec receive).1.state with ⟨kept, -⟩ | ⟨closed, -⟩
    · rcases @finAcked_state acked segment ((receiveACK_state ack).trans state) with first | second
      · exact absurd (kept.trans first) one
      · exact absurd (kept.trans second) two
    · exact closed
  all_goals simp_all

theorem Answered.absorbs (fits : around.Fits config)
    (answered : Answered config around segment s t) : Absorbs config s t := by
  cases answered
  case same => exact (Quiet.refl s).absorbs
  case syn | control => exact Quiet.absorbs ⟨id, fun _ => rfl, id, id, Grows.refl _ _⟩
  case absorbed absorbed => exact absorbed.absorbs fits
  case gap absorbed | unsettled absorbed =>
    exact (absorbed.absorbs fits).before ⟨id, fun _ => rfl, id, id, .refl _ _⟩
  case closing absorbed _ | bothFins absorbed _ =>
    exact (absorbed.absorbs fits).past id rfl rfl (.refl _ _)
  case finLate state absorbed one two =>
    have closed := absorbed.closed state one two
    exact (absorbed.absorbs fits).past id rfl (closed ▸ rfl) (.refl _ _)
  case closeWait state receive ack =>
    exact ((Absorbed.established state receive ack).absorbs fits).past id rfl rfl
      (raised_not_sent (raise_grows .read _))
  case lastAcked timed _ _ ack _ timer destroy =>
    have quiet := updateRetransmissionTimer_quiet timer
    have gone : Still timed t := destroyTCPStream_still destroy rfl rfl
    refine ((receiveACK_quiet ack).trans (Quiet.trans ?_ gone.toQuiet)).absorbs
    exact { quiet with }
  case timeWait state flagged ack receive =>
    exact ((Absorbed.finWait2 state flagged ack receive).absorbs fits).past id rfl rfl (.refl _ _)
  case closingAcked ack _ _ timer =>
    have quiet := updateRetransmissionTimer_quiet timer
    refine Quiet.absorbs ((receiveACK_quiet ack).trans ?_)
    exact of_past quiet.live quiet.view rfl quiet.history
  case waited =>
    unfold handleTimeWait
    split <;> exact Quiet.absorbs ⟨id, fun _ => rfl, id, id, .refl _ _⟩
  case resetClosing destroy =>
    have gone : Still s t := destroyTCPStream_still destroy rfl rfl
    exact gone.toQuiet.absorbs
  case reset =>
    refine Quiet.absorbs (of_past id (fun _ => rfl) rfl ?_)
    exact raised_not_sent (raise_grows .close _)

theorem watched_quiet (watched : Watched s t) : Quiet s t := by
  rcases watched with rfl | rfl
  · exact .refl _
  · exact ⟨id, fun _ => rfl, id, id, .refl _ _⟩

theorem completeActiveOpen_absorbs (opening : s.state.opening = true)
    (done : completeActiveOpen config around segment s = .ok t) : Absorbs config s t := by
  unfold completeActiveOpen at done
  obtain ⟨opened, opens, rest⟩ := bind_ok done
  have quiet := updateRetransmissionTimer_quiet opens
  have established : Absorbs config s (traceEstablished (removeFromRTOList { opened with
      state := .established
      ctl := { opened.ctl with nrtx := 0 }
      rcv := { opened.rcv with rcvNxt := opened.rcv.irs + 1 } })) := by
    obtain ⟨-, tsRto, rfl⟩ := updateRetransmissionTimer_form opens
    refine of_opening opening quiet.live rfl rfl rfl (fun _ => rfl) ?_
    exact (cons id s.history).trans (quiet.history.trans (cons id _))
  dsimp only at rest
  split at rest
  · refine established.before (Quiet.trans ?_ (watched_quiet (watched_of_ok rest)))
    exact ⟨id, fun _ => rfl, id, id, raised_not_sent (raise_grows .write _)⟩
  · unfold destroyTCPStream at rest
    split at rest <;> cases rest
    exact ⟨nofun, nofun, fun _ _ => nofun, established.history⟩

theorem completePassiveOpen_absorbs (opening : s.state.opening = true)
    (done : completePassiveOpen config around segment s = .ok t) :
    Absorbs config s t ∧ received t = received s := by
  have opened : Absorbs config s (passiveOpened segment s) :=
    of_opening opening id rfl rfl rfl (fun _ => rfl) (cons id _)
  have first : s.rcv.irs + 1 - (s.rcv.irs + 1) = received s := by
    simp [received, opening]
  rcases completePassiveOpen_cases done with queued | refused
  · refine ⟨opened.before (Quiet.trans ?_ (watched_quiet queued)), ?_⟩
    · exact ⟨id, fun _ => rfl, id, id, .refl _ _⟩
    · rcases queued with rfl | rfl <;> exact first
  · have closed : Absorbs config s (addtoControlList { passiveOpened segment s with
        state := .closed, closeReason := .notAccepted }) :=
      opened.past id rfl rfl (.refl _ _)
    refine ⟨closed.before (watched_quiet refused), ?_⟩
    rcases refused with rfl | rfl <;> exact first

theorem Handled.absorbs (handled : Handled config around segment s t)
    (opening : s.state.opening = true) (fits : around.Fits config) : Absorbs config s t := by
  cases handled
  case same => exact (Quiet.refl s).absorbs
  case answered answered => exact answered.absorbs fits
  case listen =>
    unfold handleListen
    split
    · exact of_opening opening id rfl rfl rfl nofun (cons id _)
    · exact (Quiet.refl s).absorbs
  case simultaneous => exact of_opening opening id rfl rfl rfl nofun (cons id _)
  case synAcked | synResent => exact Quiet.absorbs ⟨id, fun _ => rfl, id, id, Grows.refl _ _⟩
  case synReset ended =>
    have still : Still s t := ended_still ended rfl rfl rfl rfl rfl
    exact still.absorbs
  case active complete =>
    refine after ?_ (completeActiveOpen_absorbs ?_ complete)
    · exact ⟨id, fun _ => rfl, id, id, .refl _ _⟩
    · exact opening
  case synAgain => exact Quiet.absorbs ⟨id, fun _ => rfl, id, id, cons id _⟩
  case passive complete => exact (completePassiveOpen_absorbs opening complete).1
  case passiveData complete _ answered =>
    obtain ⟨first, same⟩ := completePassiveOpen_absorbs opening complete
    exact first.trans same (answered.absorbs fits)
  case resetOpening destroy =>
    have gone : Still s t := destroyTCPStream_still destroy rfl rfl
    exact gone.toQuiet.absorbs

theorem processTCPPacket_absorbs (fits : around.Fits config)
    (done : processTCPPacket config around segment s = .ok t) : Absorbs config s t := by
  have noted : ∀ u, Quiet u (noteSegment around.curTs segment u) :=
    fun _ => ⟨id, fun _ => rfl, id, id, .refl _ _⟩
  cases opening : s.state.opening with
  | true =>
    have handled := processTCPPacket_opening opening done
    exact (handled.absorbs opening fits).after (noted s)
  | false =>
    obtain ⟨checked, validated, rfl | ⟨-, answered⟩⟩ := processTCPPacket_settled opening done
    · exact validated.quiet.absorbs
    · exact (answered.absorbs fits).after (validated.quiet.trans (noted checked))

end Handlers

section Calls

variable {config : Config} {s t : TcpStream}

theorem mtcpRecv_absorbs {len} (done : mtcpRecv len s = .ok t) : Absorbs config s t := by
  unfold mtcpRecv at done
  split at done
  · cases done
    exact (Quiet.refl _).absorbs
  rename_i buff held
  split at done
  · rename_i readable
    obtain ⟨⟨after, count⟩, remove, rest⟩ := bind_ok done
    have read : t.state = s.state ∧ t.onHashTable = s.onHashTable ∧ t.history = s.history ∧
        t.ctl = s.ctl ∧ t.rcv.irs = s.rcv.irs ∧ t.rcv.rcvNxt = s.rcv.rcvNxt ∧
        t.rcv.rcvbuf = some after ∧
        t.rcv.rcvWnd = UInt32.ofInt (after.size - after.mergedLen) := by
      dsimp only at rest
      split at rest <;> cases rest <;> exact ⟨rfl, rfl, rfl, rfl, rfl, rfl, rfl, rfl⟩
    obtain ⟨state, live, history, ctl, irs, rcvNxt, rcvbuf, rcvWnd⟩ := read
    refine ⟨fun on => live ▸ on, fun _ active => state ▸ active, fun left kept on => ?_,
      history ▸ .refl _ _⟩
    have inv := kept (live ▸ on)
    refine WindowInv.mono ⟨by rw [ctl]; exact inv.scale, fun opening => ?_, fun receiving => ?_,
      fun large active => ?_⟩ (Nat.sub_le _ _)
    · rw [state] at opening
      rw [(inv.opening opening).1] at held
      cases held
    · have fitted := inv.receiving (state ▸ receiving)
      simp only [Fitted, held] at fitted
      obtain ⟨sound, next, -⟩ := fitted
      obtain ⟨afterSound, headSeq, countIs, mergedLen⟩ := sound.remove remove
      simp only [Fitted, rcvbuf]
      refine ⟨afterSound, ?_, rcvWnd.trans (window_of_sound afterSound)⟩
      rw [rcvNxt, next, headSeq, mergedLen, plus_plus]
      congr 1
      omega
    · have mergedLen := (@rbRemove_withData _ _ [] _ _ remove).1.2
      have room := inv.room large (state ▸ active)
      simp only [space, held] at room
      simp only [space, rcvbuf]
      omega
  · cases done
    exact (Quiet.refl _).absorbs

theorem destroyed_still (done : destroyTCPStream s = .ok t) : Still s t := by
  unfold destroyTCPStream at done
  split at done <;> cases done
  exact ⟨⟨nofun, nofun, id, id, .refl _ _⟩, nofun⟩

theorem closingState_opening (state : TcpState) : (closingState state).opening = state.opening := by
  cases state <;> rfl

variable {state : TcpState}

theorem closingState_receiving (receiving : (closingState state).receiving = true) :
    state.receiving = true := by
  cases state <;> first | rfl | cases receiving

section

variable (config : Config) (listener : Bool) (s : TcpStream)

/-- The steps that receive or send; every other one keeps the receiving side as it is. -/
inductive Turned : Step → TcpStream → Prop
  | still {taken t} (still : Still s t) : Turned taken t
  | segment {curTs chunk acceptRoom segment t} (process : processTCPPacket config
      { curTs, chunk, listener, acceptRoom } segment s = .ok t) :
      Turned (.segment curTs chunk acceptRoom segment) t
  | writeControl {output curTs t} (control : writeTCPControlList output curTs s = .ok t) :
      Turned (.writeControl output curTs) t
  | writeData {buffers curTs t} (data : writeTCPDataList buffers curTs s = .ok t) :
      Turned (.writeData buffers curTs) t
  | writeAck {buffers curTs} : Turned (.writeAck buffers curTs) (writeTCPACKList buffers curTs s)
  | ackq : Turned .ackq (handleAckq s)
  | recv {len t} (read : mtcpRecv len s = .ok t) : Turned (.recv len) t

end

theorem stepStream_turned {listener taken} (done : stepStream config listener s taken = .ok t) :
    Turned config listener s taken t := by
  cases stepStream_stepped done
  case segment done => exact .segment done
  case writeControl done => exact .writeControl done
  case writeData done => exact .writeData done
  case writeAck => exact .writeAck
  case ackq queued =>
    have taken : handleAckq s = _ := if_neg queued
    exact taken ▸ .ackq
  case recv done => exact .recv done
  all_goals refine .still ?_
  case rtoUnopened destroy | timewaitExpire destroy | closeqReset destroy | resetqReset destroy =>
    exact destroyTCPStream_still destroy rfl rfl
  case rtoReset destroy | destroyq destroy =>
    refine Still.trans ?_ (destroyed_still destroy)
    exact { Quiet.refl s with acks := fun _ => rfl }
  case rtoLost ended | rtoFailed ended | connectionTimeout ended =>
    exact ended_still ended rfl rfl rfl rfl rfl
  case closeqWaiting | closeqControl | closeqIntControl =>
    exact { Quiet.refl s with
      opening := (closingState_opening s.state).symm.trans
      receiving := closingState_receiving
      acks := fun _ => rfl }
  case resetqControl | resetqIntControl | abortDestroy =>
    exact ⟨of_past id (fun _ => rfl) rfl (.refl _ _), fun _ => rfl⟩
  case written moved => rcases moved with rfl | rfl <;> exact { Quiet.refl s with acks := fun _ => rfl }
  all_goals exact { Quiet.refl s with acks := fun _ => rfl }

end Calls

end Mcc
