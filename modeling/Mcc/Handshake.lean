import Mcc.Stepped

/-!
The three-way handshake over whole runs: which values the sequence variables have at the moment
a connection enters `ESTABLISHED`.
-/

namespace Mcc

open SerialNumber

def Action.Plain : Action → Prop
  | .syn _ => False
  | .established _ _ _ _ => False
  | _ => True

theorem Action.IsRaised.plain {action : Action} (raised : action.IsRaised) : action.Plain := by
  cases action <;> trivial

theorem Action.IsSent.plain {action : Action} (sent : action.IsSent) : action.Plain := by
  cases action <;> trivial

def peerSyn : List Action → Option UInt32
  | [] => none
  | .syn seq :: _ => some seq
  | _ :: rest => peerSyn rest

def HandshakesRight (iss : UInt32) : List Action → Prop
  | [] => True
  | .established sndUna sndNxt irs rcvNxt :: rest =>
    (sndUna = iss + 1 ∧ sndNxt = iss + 1 ∧ peerSyn rest = some irs ∧ rcvNxt = irs + 1) ∧
      HandshakesRight iss rest
  | _ :: rest => HandshakesRight iss rest

theorem peerSyn_grows {older newer} (grows : Grows Action.Plain older newer) :
    peerSyn newer = peerSyn older := by
  refine grows.preserves (P := (peerSyn · = peerSyn older)) (fun action rest plain others => ?_) rfl
  cases action <;> first | exact others | exact plain.elim

variable {iss : UInt32}

theorem handshakesRight_grows {older newer} (grows : Grows Action.Plain older newer)
    (right : HandshakesRight iss older) : HandshakesRight iss newer := by
  refine grows.preserves (fun action rest plain others => ?_) right
  cases action <;> first | exact others | exact plain.elim

theorem handshakesRight_split {later earlier sndUna sndNxt irs rcvNxt}
    (right : HandshakesRight iss (later ++ .established sndUna sndNxt irs rcvNxt :: earlier)) :
    sndUna = iss + 1 ∧ sndNxt = iss + 1 ∧ peerSyn earlier = some irs ∧ rcvNxt = irs + 1 := by
  induction later with
  | nil => exact right.1
  | cons action rest ih =>
    apply ih
    cases action <;> first | exact right | exact right.2

structure Settles (s t : TcpStream) : Prop where
  state : t.state = s.state ∨ t.state.opening = false ∧ t.state ≠ .established
  una : t.state.opening = true → t.seqs.sndUna = s.seqs.sndUna
  irs : t.state.opening = true → t.rcv.irs = s.rcv.irs
  iss : t.seqs.iss = s.seqs.iss
  history : Grows Action.Plain s.history t.history

theorem Settles.refl (s : TcpStream) : Settles s s :=
  ⟨.inl rfl, fun _ => rfl, fun _ => rfl, rfl, .refl _ _⟩

variable {s t : TcpStream}

theorem Settles.same (settles : Settles s t) (after : t.state.opening = true) : s.state = t.state := by
  rcases settles.state with same | ⟨settled, -⟩
  · exact same.symm
  · rw [settled] at after
    cases after

theorem Settles.opening (settles : Settles s t) (after : t.state.opening = true) :
    s.state.opening = true := by
  rw [settles.same after]
  exact after

theorem Settles.settled (settles : Settles s t) (before : s.state.opening = false) :
    t.state.opening = false := by
  cases after : t.state.opening with
  | false => rfl
  | true => exact absurd (settles.opening after) (by simp [before])

variable {u : TcpStream}

theorem Settles.trans (first : Settles s t) (second : Settles t u) : Settles s u  where
  state := by
    rcases second.state with same | settled
    · rw [same]
      exact first.state
    · exact .inr settled
  una after := (second.una after).trans (first.una (second.opening after))
  irs after := (second.irs after).trans (first.irs (second.opening after))
  iss := second.iss.trans first.iss
  history := first.history.trans second.history

theorem settles_of_settled (settled : t.state.opening = false)
    (state : t.state = s.state ∨ t.state ≠ .established) (iss : t.seqs.iss = s.seqs.iss)
    (history : t.history = s.history) : Settles s t where
  state := state.imp_right (And.intro settled)
  una after := by rw [settled] at after; cases after
  irs after := by rw [settled] at after; cases after
  iss := iss
  history := history ▸ .refl _ _

theorem raise_settles (kind : EventKind) (before : Settles s t) : Settles s (raise kind t) :=
  before.trans ⟨.inl rfl, fun _ => rfl, fun _ => rfl, rfl,
    (raise_grows kind t).mono fun _ => Action.IsRaised.plain⟩

theorem destroy_settles (done : destroyTCPStream t = .ok u) (before : Settles s t) : Settles s u := by
  unfold destroyTCPStream at done
  split at done <;> cases done
  exact { before with }

theorem Validated.settles (validated : Validated s t) : Settles s t :=
  ⟨.inl validated.state, fun _ => by rw [validated.seqs], fun _ => validated.irs,
    by rw [validated.seqs], validated.history ▸ .refl _ _⟩

theorem Received.settles (received : Received s t) : Settles s t where
  state := by
    rcases received.state with ⟨same, -⟩ | ⟨closed, -⟩
    · exact .inl same
    · exact .inr (by rw [closed]; exact ⟨rfl, nofun⟩)
  una _ := by rw [received.seqs]
  irs _ := by simpa using congrArg RecvVars.irs received.rcv
  iss := by rw [received.seqs]
  history := received.history.mono fun _ => Action.IsRaised.plain

theorem Flushed.settles (flushed : Flushed s t) : Settles s t where
  state := .inl flushed.steady.state
  una _ := by rw [flushed.seqs]
  irs _ := flushed.irs
  iss := by rw [flushed.seqs]
  history := flushed.history.mono fun _ => Action.IsSent.plain

theorem AckServed.settles (served : AckServed s t) : Settles s t where
  state := .inl served.state
  una _ := by rw [served.seqs]
  irs _ := served.irs
  iss := by rw [served.seqs]
  history := served.history.mono fun _ bare => bare.isSent.plain

variable {curTs : UInt32} {segment : Segment}

theorem receiveACK_settles (settled : s.state.opening = false)
    (done : receiveACK curTs segment s = .ok t) : Settles s t := by
  rcases receiveACK_cases done with rfl | ⟨buf, fast, -, -, acked⟩
  · exact .refl _
  · have after : t.state.opening = false := acked.steady.state ▸ settled
    refine ⟨.inl acked.steady.state, by simp [after], by simp [after], by rw [acked.seqs], ?_⟩
    refine acked.history.mono fun action added => ?_
    rcases added with raised | rfl
    · exact raised.plain
    · trivial

theorem timer_settles (done : updateRetransmissionTimer curTs s = .ok t) : Settles s t := by
  obtain ⟨-, tsRto, rfl⟩ := updateRetransmissionTimer_form done
  exact { Settles.refl s with }

variable {config : Config} {around : Surroundings}

theorem finAcked_settles (segment : Segment) (s : TcpStream) : Settles s (finAcked segment s) := by
  unfold finAcked
  split
  · exact settles_of_settled rfl (.inr nofun) rfl rfl
  · exact .refl s

section

variable (settled : s.state.opening = false)
include settled

theorem Absorbed.settles (absorbed : Absorbed config around segment s t) : Settles s t := by
  cases absorbed
  case established receive ack =>
    have received := (receivePayload_spec receive).1.settles
    rcases ack with ⟨-, ack⟩ | ⟨-, rfl⟩
    · exact received.trans (receiveACK_settles (received.settled settled) ack)
    · exact received
  case acked ack => exact receiveACK_settles settled ack
  case finWait1 acked _ _ ack receive =>
    have answered := (receiveACK_settles settled ack).trans (finAcked_settles segment acked)
    exact answered.trans (receivePayload_spec receive).1.settles
  case finWait2 ack receive =>
    exact (receiveACK_settles settled ack).trans (receivePayload_spec receive).1.settles

theorem Answered.settles (answered : Answered config around segment s t) : Settles s t := by
  cases answered
  case same => exact .refl s
  case syn | control => exact { Settles.refl s with }
  case absorbed absorbed => exact absorbed.settles settled
  case gap absorbed | unsettled absorbed | finLate absorbed _ _ =>
    exact { absorbed.settles settled with }
  case closing absorbed _ | bothFins absorbed _ =>
    exact (absorbed.settles settled).trans (settles_of_settled rfl (.inr nofun) rfl rfl)
  case closeWait state receive ack =>
    refine ((Absorbed.established state receive ack).settles settled).trans ?_
    exact raise_settles .read (settles_of_settled rfl (.inr nofun) rfl rfl)
  case lastAcked ack _ timer destroy =>
    have acked := receiveACK_settles settled ack
    refine acked.trans (destroy_settles destroy (Settles.trans ?_ ((timer_settles timer).trans ?_)))
    · exact settles_of_settled (acked.settled settled) (.inl rfl) rfl rfl
    · exact settles_of_settled rfl (.inr nofun) rfl rfl
  case timeWait state flagged ack receive =>
    refine ((Absorbed.finWait2 state flagged ack receive).settles settled).trans ?_
    exact settles_of_settled rfl (.inr nofun) rfl rfl
  case closingAcked ack _ _ timer =>
    have acked := receiveACK_settles settled ack
    refine acked.trans (Settles.trans ?_ ((timer_settles timer).trans ?_))
    · exact settles_of_settled (acked.settled settled) (.inl rfl) rfl rfl
    · exact settles_of_settled rfl (.inr nofun) rfl rfl
  case waited =>
    unfold handleTimeWait
    split <;> exact { Settles.refl s with }
  case resetClosing destroy =>
    exact destroy_settles destroy (settles_of_settled rfl (.inr nofun) rfl rfl)
  case reset => exact raise_settles .close (settles_of_settled rfl (.inr nofun) rfl rfl)

theorem processTCPPacket_settles
    (done : processTCPPacket config around segment s = .ok t) : Settles s t := by
  obtain ⟨checked, validated, rfl | ⟨-, answered⟩⟩ := processTCPPacket_settled settled done
  · exact validated.settles
  · have noted : Settles s (noteSegment around.curTs segment checked) :=
      { validated.settles with }
    exact noted.trans (answered.settles (noted.settled settled))

end

theorem Ended.settles (ended : Ended t u) (before : Settles s t) : Settles s u := by
  rcases ended with ⟨-, rfl⟩ | ⟨-, destroy⟩
  · exact raise_settles .error before
  · exact destroy_settles destroy before

theorem closingState_settles (state : TcpState) : closingState state = state ∨
    (closingState state).opening = false ∧ closingState state ≠ .established := by
  cases state <;> first | exact .inl rfl | exact .inr ⟨rfl, nofun⟩

theorem mtcpRecv_settles {len} (done : mtcpRecv len s = .ok t) : Settles s t := by
  rcases mtcpRecv_cases done with rfl | ⟨rcv, irs, rfl | rfl⟩
  · exact .refl _
  · exact { Settles.refl s with irs := fun _ => irs }
  · exact { Settles.refl s with irs := fun _ => irs }

theorem writeTCPControlList_settles {output}
    (done : writeTCPControlList output curTs s = .ok t) : Settles s t := by
  refine @writeTCPControlList_preserves _ _ _ (Settles s) _ (fun _ _ => ?_) (fun before => ?_)
    (fun before destroy => ?_) done
  · exact { Settles.refl s with }
  · exact before.trans ⟨.inl rfl, fun _ => rfl, fun _ => rfl, rfl, Grows.cons trivial _⟩
  · exact destroy_settles destroy before

variable {taken : Step}

theorem stepStream_settles {listener} (quiet : taken.isSegment = true → s.state.opening = false)
    (done : stepStream config listener s taken = .ok t) : Settles s t := by
  cases stepStream_stepped done
  case segment done => exact processTCPPacket_settles (quiet rfl) done
  case rtoUnopened destroy | timewaitExpire destroy | closeqReset destroy | resetqReset destroy =>
    exact destroy_settles destroy (settles_of_settled rfl (.inr nofun) rfl rfl)
  case rtoReset destroy | destroyq destroy =>
    exact destroy_settles destroy { Settles.refl s with }
  case rtoLost ended | rtoFailed ended | connectionTimeout ended =>
    exact ended.settles (settles_of_settled rfl (.inr nofun) rfl rfl)
  case writeControl done => exact writeTCPControlList_settles done
  case writeData done =>
    refine writeTCPDataList_preserves (fun _ before passed => ?_) (fun before => ?_) (.refl s) done
    · exact before.trans (flushPass_flushed passed).settles
    · exact { before with }
  case writeAck => exact { (serveACKs_served _ _ s).settles with }
  case closeqWaiting | closeqControl | closeqIntControl =>
    exact ⟨closingState_settles s.state, fun _ => rfl, fun _ => rfl, rfl, .refl _ _⟩
  case resetqControl | resetqIntControl | abortDestroy =>
    exact settles_of_settled rfl (.inr nofun) rfl rfl
  case recv done => exact mtcpRecv_settles done
  all_goals exact { Settles.refl s with }

/-- A stream in `SYN_SENT` whose peer has sent nothing that counts yet. Its SYN leaves from `iss`,
but never when `mtcp_connect` found its queue full. -/
structure SynSent (s : TcpStream) : Prop where
  una : s.seqs.sndUna = s.seqs.iss
  nxt : s.seqs.sndNxt = s.seqs.iss ∨ s.seqs.sndNxt = s.seqs.iss + 1
  unsent : s.lists.onControlList = true → s.seqs.sndNxt = s.seqs.iss
  waiting : s.queues.connectq ≠ 0 → s.queues.connectq = 1 ∧ s.seqs.sndNxt = s.seqs.iss ∧
    s.lists.onControlList = false ∧ s.lists.onRtoList = false
  idle : s.lists.controlListWaiting = false
  closeq : s.queues.closeq = 0
  closeqInt : s.queues.closeqInt = 0
  acceptq : s.queues.acceptq = 0
  refused : s.queues.destroyq ≠ 0 → s.socket = true → s.seqs.sndNxt = s.seqs.iss ∧
    s.queues.connectq = 0 ∧ s.lists.onControlList = false ∧ s.lists.onRtoList = false

theorem destroy_state (done : destroyTCPStream s = .ok t) : t.state = s.state := by
  unfold destroyTCPStream at done
  split at done <;> cases done
  rfl

theorem Ended.state (ended : Ended s t) : t.state = s.state := by
  rcases ended with ⟨-, rfl⟩ | ⟨-, destroy⟩
  · rfl
  · exact destroy_state destroy

theorem writeTCPControlList_synSent {output} (state : s.state = .synSent) (inv : SynSent s)
    (waits : s.lists.onControlList = true) (done : writeTCPControlList output curTs s = .ok t) :
    SynSent t := by
  have base := inv.unsent waits
  have drained : s.queues.connectq = 0 := by
    by_contra queued
    rw [(inv.waiting queued).2.2.1] at waits
    cases waits
  have notRefused : ∀ {P : Prop}, s.queues.destroyq ≠ 0 → s.socket = true → P := by
    intro P queued held
    rw [(inv.refused queued held).2.2.1] at waits
    cases waits
  have removed : (removeFromControlList s).state = .synSent := state
  simp only [writeTCPControlList, sendControlPacket, removed, controlDeferred, controlFlags,
    controlBase, sendBare, bind, Except.bind, reduceCtorEq, if_false, false_and] at done
  cases done
  rcases sendTCPPacket_cases output curTs { syn := true } false [] 0 (removeFromControlList s) with
    ⟨unchanged, failed, -⟩ | ⟨-, -, sent⟩
  · rw [if_pos failed, unchanged]
    exact { inv with unsent := fun _ => base, waiting := absurd drained, refused := notRefused }
  · rw [sent]
    have moved : s.seqs.sndNxt + 1 = s.seqs.iss + 1 := by rw [base]
    exact { inv with nxt := .inr moved, unsent := nofun, waiting := absurd drained, refused := notRefused }

theorem destroy_synSent (inv : SynSent s) (done : destroyTCPStream s = .ok t) : SynSent t := by
  unfold destroyTCPStream at done
  split at done <;> cases done
  refine { inv with unsent := nofun, waiting := fun queued => ?_, refused := fun queued held => ?_ }
  · obtain ⟨one, base, -, -⟩ := inv.waiting queued
    exact ⟨one, base, rfl, rfl⟩
  · obtain ⟨base, drained, -, -⟩ := inv.refused queued held
    exact ⟨base, drained, rfl, rfl⟩

theorem writeTCPDataList_synSent {buffers} (state : s.state = .synSent) (inv : SynSent s)
    (done : writeTCPDataList buffers curTs s = .ok t) : SynSent t := by
  simp only [writeTCPDataList, serveData, state, bind, Except.bind] at done
  cases done
  obtain ⟨una, nxt, unsent, waiting, idle, closeq, closeqInt, acceptq, refused⟩ := inv
  refine ⟨una, nxt, ?_, ?_, ?_, closeq, closeqInt, acceptq, ?_⟩ <;> simp [finishData, idle]
  · exact unsent
  · exact waiting
  · exact refused

theorem writeTCPACKList_synSent (buffers : Nat) (curTs : UInt32) (state : s.state = .synSent)
    (inv : SynSent s) : SynSent (writeTCPACKList buffers curTs s) := by
  obtain ⟨una, nxt, unsent, waiting, idle, closeq, closeqInt, acceptq, refused⟩ := inv
  refine ⟨?_, ?_, ?_, ?_, ?_, ?_, ?_, ?_, ?_⟩ <;>
    simp [writeTCPACKList, serveACKs, toAck, state, idle, una, nxt, closeq, closeqInt, acceptq]
  · exact una ▸ unsent
  · exact waiting
  · exact refused

theorem stepStream_synSent {listener} (state : s.state = .synSent) (inv : SynSent s)
    (quiet : taken.isSegment = false)
    (done : stepStream config listener s taken = .ok t) (same : t.state = .synSent) : SynSent t := by
  have ⟨una, nxt, unsent, waiting, idle, closeq, closeqInt, acceptq, refused⟩ := inv
  cases stepStream_stepped done
  case same => exact inv
  case segment => cases quiet
  case rtoClosed =>
    refine ⟨una, nxt, unsent, fun queued => ?_, idle, closeq, closeqInt, acceptq, fun queued held => ?_⟩
    · obtain ⟨one, base, free, -⟩ := waiting queued
      exact ⟨one, base, free, rfl⟩
    · obtain ⟨base, drained, free, -⟩ := refused queued held
      exact ⟨base, drained, free, rfl⟩
  case rtoSyn running _ =>
    refine ⟨una, .inl una, fun _ => una, fun queued => ?_, idle, closeq, closeqInt, acceptq,
      fun queued held => ?_⟩
    · exact Bool.noConfusion (running.symm.trans (waiting queued).2.2.2)
    · exact Bool.noConfusion (running.symm.trans (refused queued held).2.2.2)
  case rtoData other _ | rtoFinData other | rtoFin other | unwritten other | closeQueued _ other |
      rtoReset other _ | written _ other _ _ _ _ _ => simp [state] at other
  case rtoUnopened destroy | timewaitExpire destroy | closeqReset destroy | resetqReset destroy =>
    rw [destroy_state destroy] at same
    cases same
  case rtoLost ended | rtoFailed ended | connectionTimeout ended =>
    rw [ended.state] at same
    cases same
  case writeControl waits done => exact writeTCPControlList_synSent state inv waits done
  case writeData done => exact writeTCPDataList_synSent state inv done
  case writeAck => exact writeTCPACKList_synSent _ _ state inv
  case connectq queued =>
    obtain ⟨one, base, -, -⟩ := waiting queued
    have drained : s.queues.connectq - 1 = 0 := by rw [one]
    exact ⟨una, nxt, fun _ => base, absurd drained, idle, closeq, closeqInt, acceptq,
      fun destroying held => absurd (refused destroying held).2.1 queued⟩
  case closeqTaken queued | closeqDeferred queued | closeqWaiting queued | closeqControl queued =>
    exact absurd closeq queued
  case closeqIntTaken queued | closeqIntControl queued => exact absurd closeqInt queued
  case resetqControl | resetqIntControl | abortDestroy => cases same
  case destroyq queued destroy =>
    refine destroy_synSent ?_ destroy
    exact ⟨una, nxt, unsent, waiting, idle, closeq, closeqInt, acceptq, fun _ => refused queued⟩
  case recv len done =>
    have unread : mtcpRecv len s = .ok s := by
      cases held : s.rcv.rcvbuf <;> simp [mtcpRecv, held, state, TcpState.number]
    rw [unread] at done
    exact Except.ok.inj done ▸ inv
  case accept queued => exact absurd acceptq queued
  case closeListener => exact ⟨una, nxt, unsent, waiting, idle, closeq, closeqInt, rfl, refused⟩
  case sendq | ackq | resetqTaken | resetqDeferred | resetqIntTaken =>
    exact ⟨una, nxt, unsent, waiting, idle, closeq, closeqInt, acceptq, refused⟩
  all_goals exact ⟨una, nxt, unsent, waiting, idle, closeq, closeqInt, acceptq, fun _ => nofun⟩

def Traced (s : TcpStream) : Prop :=
  s.state = .established → ∃ sndUna sndNxt irs rcvNxt, .established sndUna sndNxt irs rcvNxt ∈ s.history

theorem Traced.settles (traced : Traced s) (settles : Settles s t) : Traced t := by
  intro established
  rcases settles.state with same | ⟨-, other⟩
  · obtain ⟨sndUna, sndNxt, irs, rcvNxt, member⟩ := traced (same ▸ established)
    exact ⟨sndUna, sndNxt, irs, rcvNxt, settles.history.mem member⟩
  · exact absurd established other

structure Handshake (held : Prop) (s : TcpStream) : Prop where
  right : HandshakesRight s.seqs.iss s.history
  traced : Traced s
  opened : s.state ≠ .listen
  synSent : s.state = .synSent → SynSent s
  synRcvd : s.state = .synRcvd → s.seqs.sndUna = s.seqs.iss ∧ peerSyn s.history = some s.rcv.irs ∧ held

variable {held : Prop}

theorem handshake_of_settled (right : HandshakesRight s.seqs.iss s.history) (traced : Traced s)
    (settled : s.state.opening = false) (settles : Settles s t) : Handshake held t := by
  have after := settles.settled settled
  refine ⟨?_, traced.settles settles, ?_, ?_, ?_⟩
  · rw [settles.iss]
    exact handshakesRight_grows settles.history right
  all_goals
    intro state
    rw [state] at after
    cases after

theorem Watched.settles (watched : Watched t u) (before : Settles s t) : Settles s u := by
  rcases watched with rfl | rfl
  · exact before
  · exact { before with }

theorem completeActiveOpen_handshake (right : HandshakesRight s.seqs.iss s.history)
    (una : s.seqs.sndUna = s.seqs.iss + 1) (acked : segment.ackSeq = s.seqs.iss + 1)
    (done : completeActiveOpen config around segment s = .ok t) : Handshake held t := by
  obtain ⟨opened, opens, finish⟩ := completeActiveOpen_cases done
  have rightNow : HandshakesRight opened.seqs.iss opened.history := by
    rw [opens.seqs, opens.history]
    exact ⟨⟨una, acked, rfl, rfl⟩, right⟩
  have traced : Traced opened := by
    intro _
    rw [opens.history]
    exact ⟨_, _, _, _, List.mem_cons_self⟩
  refine handshake_of_settled rightNow traced (by rw [opens.state]; rfl) ?_
  rcases finish with ⟨-, watched⟩ | ⟨-, destroy⟩
  · exact watched.settles { raise_settles .write (.refl opened) with }
  · exact destroy_settles destroy { Settles.refl _ with }

theorem completePassiveOpen_handshake (right : HandshakesRight s.seqs.iss s.history)
    (una : s.seqs.sndUna = s.seqs.iss) (peer : peerSyn s.history = some s.rcv.irs)
    (acked : segment.ackSeq = s.seqs.iss + 1)
    (done : completePassiveOpen config around segment s = .ok t) :
    HandshakesRight t.seqs.iss t.history ∧ Traced t ∧ t.state.opening = false := by
  have rightNow : HandshakesRight (passiveOpened segment s).seqs.iss (passiveOpened segment s).history :=
    ⟨⟨congrArg (· + 1) una, acked, peer, rfl⟩, right⟩
  have traced : Traced (passiveOpened segment s) :=
    fun _ => ⟨_, _, _, _, List.mem_cons_self⟩
  have settles : Settles (passiveOpened segment s) t := by
    rcases completePassiveOpen_cases done with watched | watched
    · exact watched.settles { Settles.refl _ with }
    · exact watched.settles (settles_of_settled rfl (.inr nofun) rfl rfl)
  rw [settles.iss]
  exact ⟨handshakesRight_grows settles.history rightNow, traced.settles settles, settles.settled rfl⟩

/-- In `SYN_SENT` a SYN comes with an acknowledgment, and an acceptable acknowledgment comes with
a SYN or a reset. -/
def OrderlySegment (s : TcpStream) (segment : Segment) : Prop :=
  s.state = .synSent → segment.flags.rst = false → (segment.flags.syn = true → segment.flags.ack = true) ∧
    (segment.flags.syn = false → segment.flags.ack = true →
      tcpSeqLeq segment.ackSeq s.seqs.iss ∨ tcpSeqGt segment.ackSeq s.seqs.sndNxt)

theorem acceptable_ack {ackSeq sndNxt} (nxt : sndNxt = iss ∨ sndNxt = iss + 1)
    (above : ¬tcpSeqLeq ackSeq iss) (below : ¬tcpSeqGt ackSeq sndNxt) :
    ackSeq = iss + 1 ∧ sndNxt = iss + 1 := by
  unfold tcpSeqLeq signed at above
  unfold tcpSeqGt signed at below
  have issBound := iss.toNat_lt
  have ackBound := ackSeq.toNat_lt
  rcases nxt with rfl | rfl
  · simp only [UInt32.toNat_sub] at *
    split at above <;> split at below <;> omega
  · refine ⟨UInt32.toNat_inj.mp ?_, rfl⟩
    simp only [UInt32.toNat_sub, UInt32.toNat_add, UInt32.reduceToNat] at *
    split at above <;> split at below <;> omega

section

variable (inv : Handshake held s)
include inv

theorem Handshake.mono {after} (kept : s.state = .synRcvd → held → after) : Handshake after s where
  __ := inv
  synRcvd state := (inv.synRcvd state).imp_right (And.imp_right (kept state))

theorem handshake_of_settles (settles : Settles s t)
    (synSent : t.state = .synSent → SynSent t) : Handshake held t where
  right := by
    rw [settles.iss]
    exact handshakesRight_grows settles.history inv.right
  traced := inv.traced.settles settles
  opened := by
    intro listen
    have same := settles.same (by rw [listen]; rfl)
    exact inv.opened (same.trans listen)
  synSent := synSent
  synRcvd := by
    intro received
    have opening : t.state.opening = true := by rw [received]; rfl
    have before : s.state = .synRcvd := (settles.same opening).trans received
    rw [settles.una opening, settles.iss, settles.irs opening, peerSyn_grows settles.history]
    exact inv.synRcvd before

theorem Handled.handshake (opening : s.state.opening = true)
    (orderly : OrderlySegment s segment) (handled : Handled config around segment s t) :
    Handshake held t := by
  cases handled
  case same => exact inv
  case answered settled _ => exact Bool.noConfusion (opening.symm.trans settled)
  case listen state => exact absurd state inv.opened
  case simultaneous state reset syn noAck =>
    rw [(orderly state reset).1 syn] at noAck
    cases noAck
  case synAcked state acks reset noSyn =>
    exact absurd ((orderly state reset).2 noSyn acks.1) (by simp [acks.2])
  case synReset ended =>
    refine handshake_of_settled ?_ ?_ ?_ (ended.settles (.refl _))
    · exact inv.right
    · exact nofun
    · rfl
  case active state acks _ _ complete =>
    have sent := inv.synSent state
    refine completeActiveOpen_handshake ?_ ?_ ?_ complete
    · exact inv.right
    · exact congrArg (· + 1) sent.una
    · exact (acceptable_ack sent.nxt acks.2.1 acks.2.2).1
  case resetOpening destroy =>
    refine handshake_of_settled ?_ ?_ ?_ (destroy_settles destroy (.refl _))
    · exact inv.right
    · exact nofun
    · rfl
  all_goals
    obtain ⟨una, peer, holds⟩ := inv.synRcvd ‹_›
    have other : s.state ≠ .established ∧ s.state ≠ .listen ∧ s.state ≠ .synSent := by simp [*]
  case synAgain first =>
    exact ⟨inv.right, fun now => absurd now other.1, other.2.1, fun now => absurd now other.2.2,
      fun _ => ⟨una, congrArg some first, holds⟩⟩
  case synResent =>
    exact ⟨inv.right, fun now => absurd now other.1, other.2.1, fun now => absurd now other.2.2,
      fun _ => ⟨una, peer, holds⟩⟩
  case passive acked complete =>
    obtain ⟨right, traced, settled⟩ := completePassiveOpen_handshake inv.right una peer acked complete
    exact handshake_of_settled right traced settled (.refl _)
  case passiveData acked complete _ answered =>
    obtain ⟨right, traced, settled⟩ := completePassiveOpen_handshake inv.right una peer acked complete
    exact handshake_of_settled right traced settled (answered.settles settled)

theorem Handshake.noted : Handshake held (noteSegment curTs segment s) := by
  refine handshake_of_settles inv { Settles.refl _ with } fun sent => ?_
  exact { inv.synSent sent with }

theorem processTCPPacket_handshake (orderly : OrderlySegment s segment)
    (done : processTCPPacket config around segment s = .ok t) : Handshake held t := by
  cases opening : s.state.opening with
  | false =>
    exact handshake_of_settled inv.right inv.traced opening (processTCPPacket_settles opening done)
  | true =>
    have noted : Handshake held (noteSegment around.curTs segment s) := inv.noted
    exact (processTCPPacket_opening opening done).handshake noted opening orderly

theorem stepStream_handshake {listener} (orderly : ∀ curTs chunk acceptRoom segment,
      taken = .segment curTs chunk acceptRoom segment → OrderlySegment s segment)
    (done : stepStream config listener s taken = .ok t) : Handshake held t := by
  rcases taken.segment_or with ⟨curTs, chunk, acceptRoom, segment, rfl⟩ | quiet
  · dsimp only [stepStream] at done
    split at done
    · exact processTCPPacket_handshake inv (orderly _ _ _ _ rfl) done
    · cases done
      exact inv
  · have settles := stepStream_settles (by simp [quiet]) done
    refine handshake_of_settles inv settles fun sent => ?_
    have before : s.state = .synSent := (settles.same (by rw [sent]; rfl)).trans sent
    exact stepStream_synSent before (inv.synSent before) quiet done sent

end

def OrderlyHandshake (host : Host) : Step → Prop
  | .segment _ _ _ segment => OrderlySegment host.stream segment
  | .closeListener => host.stream.state ≠ .synRcvd
  | _ => True

theorem step_handshake {host next} (inv : Handshake host.listener host.stream)
    (orderly : OrderlyHandshake host taken) (done : step config host taken = .ok next) :
    Handshake next.listener next.stream := by
  obtain ⟨stream, stepped, finish⟩ := bind_ok done
  cases finish
  have kept := stepStream_handshake inv
    (fun curTs chunk acceptRoom segment same => by rw [same] at orderly; exact orderly) stepped
  refine kept.mono fun state held => ?_
  cases taken <;> first | exact held | rfl | skip
  cases stepped
  exact absurd state orderly

theorem start_passive {host} (syn : segment.flags.syn = true)
    (done : start config (.passive iss curTs segment) = .ok host) :
    let noted := noteSegment curTs segment (handlePassiveOpen config curTs iss segment)
    host = ⟨log (.syn segment.seq) (addtoControlList { noted with
      state := .synRcvd
      rcv := { noted.rcv with rcvNxt := noted.rcv.rcvNxt + 1 } }), true⟩ := by
  obtain ⟨stream, opened, finish⟩ := bind_ok done
  cases finish
  have early : ¬TcpState.synRcvd.number <
      (handlePassiveOpen config curTs iss segment).state.number := show ¬3 < 1 by decide
  rw [processTCPPacket, if_neg early, acceptSegment_passes (.inr rfl)] at opened
  have taken : handleListen segment (noteSegment curTs segment
      (handlePassiveOpen config curTs iss segment)) = stream := Except.ok.inj opened
  rw [← taken, handleListen, if_pos syn]
  rfl

theorem start_handshake {opening host} (valid : opening.Valid)
    (done : start config opening = .ok host) : Handshake host.listener host.stream := by
  cases opening with
  | active iss room listener =>
    cases done
    cases room
    · exact ⟨trivial, nofun, nofun, fun _ => ⟨rfl, .inl rfl, nofun, nofun, rfl, rfl, rfl, rfl,
        fun _ _ => ⟨rfl, rfl, rfl, rfl⟩⟩, nofun⟩
    · exact ⟨trivial, nofun, nofun, fun _ =>
        ⟨rfl, .inl rfl, nofun, fun _ => ⟨rfl, rfl, rfl, rfl⟩, rfl, rfl, rfl, rfl, nofun⟩, nofun⟩
  | passive iss curTs segment =>
    cases start_passive valid.1 done
    exact ⟨trivial, nofun, nofun, nofun, fun _ => ⟨rfl, rfl, rfl⟩⟩

/-- Each time the connection became established the sequence numbers were one past the two SYNs, and
one in `SYN_RCVD` has a listener. -/
theorem handshake_correct {config : Config} {opening : Opening} {host after : Host}
    {steps : List Step} (valid : opening.Valid) (started : start config opening = .ok host)
    (orderly : Along config OrderlyHandshake host steps) (done : run config host steps = .ok after) :
    (∀ later earlier sndUna sndNxt irs rcvNxt,
      after.stream.history = later ++ .established sndUna sndNxt irs rcvNxt :: earlier →
      sndUna = after.stream.seqs.iss + 1 ∧ sndNxt = after.stream.seqs.iss + 1 ∧
        peerSyn earlier = some irs ∧ rcvNxt = irs + 1) ∧
      Traced after.stream ∧ (after.stream.state = .synRcvd → after.listener = true) := by
  have inv : Handshake after.listener after.stream :=
    run_preserves step_handshake (start_handshake valid started) orderly done
  refine ⟨?_, inv.traced, fun state => (inv.synRcvd state).2.2⟩
  intro later earlier sndUna sndNxt irs rcvNxt split
  have right := inv.right
  rw [split] at right
  exact handshakesRight_split right

def sampleSegment (flags : Flags) : Segment where
  flags := flags
  seq := if flags.syn then 500 else 501
  ackSeq := if flags.ack then 101 else 0
  window := 65535
  mssOption := if flags.syn then some 1460 else none

theorem handshake_correct_active : ∃ host after,
    start sampleConfig (.active 100 true false) = .ok host ∧
      run sampleConfig host [.connectq, .writeControl true 0,
        .segment 1 none false (sampleSegment { syn := true, ack := true })] = .ok after ∧
      after.stream.state = .established ∧ Traced after.stream ∧
      ∀ later earlier sndUna sndNxt irs rcvNxt,
        after.stream.history = later ++ .established sndUna sndNxt irs rcvNxt :: earlier →
        sndUna = after.stream.seqs.iss + 1 ∧ sndNxt = after.stream.seqs.iss + 1 ∧
          peerSyn earlier = some irs ∧ rcvNxt = irs + 1 := by
  refine ⟨_, _, rfl, rfl, rfl, ?_⟩
  have correct := @handshake_correct sampleConfig (.active 100 true false) _ _
    [.connectq, .writeControl true 0, .segment 1 none false (sampleSegment { syn := true, ack := true })]
    trivial rfl
    (.cons trivial rfl (.cons trivial rfl (.cons (fun _ _ => ⟨fun _ => rfl, nofun⟩) rfl trivial)))
    rfl
  exact ⟨correct.2.1, correct.1⟩

/-- A bare acknowledgment counts the SYN twice; a simultaneous open misses the peer's initial
number; the listener of a connection in `SYN_RCVD` may be gone. -/
theorem handshake_broken :
    (∃ host after later earlier, start sampleConfig (.active 100 true false) = .ok host ∧
      run sampleConfig host [.connectq, .writeControl true 0,
        .segment 1 none false (sampleSegment { ack := true }),
        .segment 2 none false (sampleSegment { syn := true, ack := true })] = .ok after ∧
      after.stream.history = later ++ .established 102 101 500 501 :: earlier) ∧
    (∃ host after later earlier, start sampleConfig (.active 100 true true) = .ok host ∧
      run sampleConfig host [.connectq, .writeControl true 0,
        .segment 1 none true (sampleSegment { syn := true }),
        .segment 2 none true (sampleSegment { ack := true })] = .ok after ∧
      after.stream.history = later ++ .established 101 101 0 1 :: earlier) ∧
    (∃ host, start sampleConfig (.passive 100 0 (sampleSegment { syn := true })) = .ok host ∧
      run sampleConfig host [.writeControl true 0, .closeListener,
        .segment 1 none true (sampleSegment { ack := true })] = .error .nullPointer) := by
  refine ⟨⟨_, _, [.raised .write], _, rfl, rfl, rfl⟩, ⟨_, _, [], _, rfl, rfl, rfl⟩, ⟨_, rfl, rfl⟩⟩

end Mcc
