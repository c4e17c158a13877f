import Mcc.Handled

/-!
What one step can do to a connection, one constructor for each outcome. Invariants of whole runs
are proved by cases over these and do not unfold the step again.
-/

namespace Mcc

open SerialNumber

def Step.isSegment : Step → Bool
  | .segment _ _ _ _ => true
  | _ => false

theorem Step.segment_or (taken : Step) : (∃ curTs chunk acceptRoom segment,
    taken = .segment curTs chunk acceptRoom segment) ∨ taken.isSegment = false := by
  cases taken <;> simp [isSegment]

variable (config : Config) (listener : Bool) (s : TcpStream)

def resumed : TcpStream :=
  let backed := backOff (removeFromRTOList s)
  { backed with seqs := { s.seqs with sndNxt := s.seqs.sndUna } }

def RtoDue : Prop := s.lists.onRtoList = true ∧ s.closeReason = .notClosed

def closeqTaken : TcpStream :=
  removeFromTimeoutList { s with
    seqs := { s.seqs with fss := finalSequence s.seqs }
    queues := { s.queues with closeq := s.queues.closeq - 1, onCloseq := false } }

def closeqIntTaken : TcpStream :=
  { s with queues := { s.queues with closeqInt := s.queues.closeqInt - 1, onCloseqInt := false } }

def resetqTaken : TcpStream :=
  removeFromTimeoutList { s with queues := { s.queues with
    resetq := s.queues.resetq - 1
    onResetq := false } }

def resetqIntTaken : TcpStream :=
  { s with queues := { s.queues with resetqInt := s.queues.resetqInt - 1, onResetqInt := false } }

inductive Stepped : Step → TcpStream → Prop
  | same {taken} : Stepped taken s
  | segment {curTs chunk acceptRoom segment t} (found : s.onHashTable = true)
      (done : processTCPPacket config { curTs, chunk, listener, acceptRoom } segment s = .ok t) :
      Stepped (.segment curTs chunk acceptRoom segment) t
  | rtoClosed : Stepped .rto (removeFromRTOList s)
  | rtoUnopened {t} (due : RtoDue s) (early : s.state.number < TcpState.established.number)
      (destroy : destroyTCPStream { removeFromRTOList s with
        state := .closed, closeReason := .connFail } = .ok t) : Stepped .rto t
  | rtoLost {t} (due : RtoDue s)
      (ended : Ended { removeFromRTOList s with state := .closed, closeReason := .connLost } t) :
      Stepped .rto t
  | rtoFailed {t} (due : RtoDue s) (state : s.state = .synSent)
      (ended : Ended { backOff (removeFromRTOList s) with
        state := .closed, closeReason := .connFail } t) : Stepped .rto t
  | rtoData (state : s.state = .established ∨ s.state = .closeWait) (present : s.seqs.sndbuf ≠ none) :
      Stepped .rto { resumed s with lists := { (resumed s).lists with onSendList := true } }
  | rtoFinData (state : s.state = .finWait1 ∨ s.state = .closing ∨ s.state = .lastAck) :
      Stepped .rto { resumed s with lists := { (resumed s).lists with
        onSendList := true, onControlList := false, controlListWaiting := true } }
  | rtoFin (state : s.state = .finWait1 ∨ s.state = .closing ∨ s.state = .lastAck) :
      Stepped .rto (addtoControlList (resumed s))
  | rtoSyn (listed : s.lists.onRtoList = true) (state : s.state = .synSent ∨ s.state = .synRcvd) :
      Stepped .rto (addtoControlList (resumed s))
  | rtoReset {t} (due : RtoDue s) (state : s.state = .synRcvd)
      (destroy : destroyTCPStream (backOff (removeFromRTOList s)) = .ok t) : Stepped .rto t
  | timewaitExpire {curTs t} (listed : s.lists.onTimewaitList = true)
      (destroy : destroyTCPStream { s with
        state := .closed
        closeReason := .activeClose
        lists := { s.lists with onTimewaitList := false } } = .ok t) :
      Stepped (.timewaitExpire curTs) t
  | connectionTimeout {curTs t} (listed : s.lists.onTimeoutList = true)
      (ended : Ended { s with
        state := .closed
        closeReason := .timedout
        lists := { s.lists with onTimeoutList := false } } t) : Stepped (.connectionTimeout curTs) t
  | writeControl {output curTs t}
      (listed : s.lists.onControlList = true) (done : writeTCPControlList output curTs s = .ok t) :
      Stepped (.writeControl output curTs) t
  | writeData {buffers curTs t}
      (done : writeTCPDataList buffers curTs s = .ok t) : Stepped (.writeData buffers curTs) t
  | writeAck {buffers curTs} (listed : s.lists.onAckList = true) :
      Stepped (.writeAck buffers curTs) (writeTCPACKList buffers curTs s)
  | connectq (queued : s.queues.connectq ≠ 0) : Stepped .connectq (addtoControlList { s with
      queues := { s.queues with connectq := s.queues.connectq - 1 } })
  | sendq (queued : s.queues.sendq ≠ 0) : Stepped .sendq { s with
      queues := { s.queues with sendq := s.queues.sendq - 1, onSendq := false }
      lists := { s.lists with onSendList := true } }
  | ackq (queued : s.queues.ackq ≠ 0) : Stepped .ackq (enqueueACK .aggregate { s with
      queues := { s.queues with ackq := s.queues.ackq - 1, onAckq := false } })
  | closeqTaken (queued : s.queues.closeq ≠ 0) : Stepped .closeq (closeqTaken s)
  | closeqReset {t} (queued : s.queues.closeq ≠ 0) (destroy : destroyTCPStream { closeqTaken s with
      state := .closed, closeReason := .reset } = .ok t) : Stepped .closeq t
  | closeqDeferred (queued : s.queues.closeq ≠ 0) : Stepped .closeq { closeqTaken s with
      queues := { (closeqTaken s).queues with
        closeqInt := s.queues.closeqInt + 1
        onCloseqInt := true } }
  | closeqWaiting (queued : s.queues.closeq ≠ 0) : Stepped .closeq { closeqTaken s with
      state := closingState s.state
      lists := { (closeqTaken s).lists with controlListWaiting := true } }
  | closeqControl (queued : s.queues.closeq ≠ 0) :
      Stepped .closeq (addtoControlList { closeqTaken s with state := closingState s.state })
  | closeqIntTaken (queued : s.queues.closeqInt ≠ 0) : Stepped .closeqInt (closeqIntTaken s)
  | closeqIntControl (queued : s.queues.closeqInt ≠ 0) :
      Stepped .closeqInt (addtoControlList { closeqIntTaken s with state := closingState s.state })
  | resetqTaken : Stepped .resetq (resetqTaken s)
  | resetqReset {t} (destroy : destroyTCPStream { resetqTaken s with
      state := .closed, closeReason := .reset } = .ok t) : Stepped .resetq t
  | resetqDeferred : Stepped .resetq { resetqTaken s with
      queues := { (resetqTaken s).queues with
        resetqInt := s.queues.resetqInt + 1
        onResetqInt := true } }
  | resetqControl : Stepped .resetq (addtoControlList
      { resetqTaken s with state := .closed, closeReason := .activeClose })
  | resetqIntTaken : Stepped .resetqInt (resetqIntTaken s)
  | resetqIntControl : Stepped .resetqInt (addtoControlList
      { resetqIntTaken s with state := .closed, closeReason := .activeClose })
  | destroyq {t} (queued : s.queues.destroyq ≠ 0) (destroy : destroyTCPStream { s with
      queues := { s.queues with destroyq := s.queues.destroyq - 1 } } = .ok t) : Stepped .destroyq t
  | unwritten {chunk data} (state : s.state = .established ∨ s.state = .closeWait) :
      Stepped (.write chunk data) { s with closeReason := .noMem }
  | written {chunk data buf after sndlen queues} (held : s.socket = true)
      (state : s.state = .established ∨ s.state = .closeWait)
      (source : s.seqs.sndbuf = some buf ∨ s.seqs.sndbuf = none ∧
        ∃ memory, chunk = some memory ∧ buf = sbInit config.sbm memory (s.seqs.iss + 1))
      (above : 0 < sndlen) (supply : sndlen ≤ data.length)
      (put : sbPut buf data sndlen = .ok (after, sndlen))
      (moved : queues = s.queues ∨ queues = { s.queues with
        onSendq := true
        sendq := s.queues.sendq + 1 }) : Stepped (.write chunk data) { s with
      seqs := { s.seqs with sndbuf := some after }
      ctl := { s.ctl with sndWnd := after.size - after.len }
      queues }
  | recv {len t} (done : mtcpRecv len s = .ok t) : Stepped (.recv len) t
  | close {room closed} (held : s.socket = true) :
      Stepped (.close room) { s with socket := false, closed }
  | closeDestroy {room} (held : s.socket = true) (state : s.state = .closed ∨ s.state = .synSent) :
      Stepped (.close room) (enqueueDestroy room { s with closed := true, socket := false })
  | closeQueued {room} (held : s.socket = true)
      (state : s.state = .established ∨ s.state = .closeWait) : Stepped (.close room) { s with
      closed := true
      socket := false
      queues := { s.queues with
        onCloseq := true
        closeq := if room then s.queues.closeq + 1 else s.queues.closeq } }
  | abort {room} (held : s.socket = true) : Stepped (.abort room) { s with socket := false }
  | abortDestroy {room} (held : s.socket = true) : Stepped (.abort room)
      (enqueueDestroy room { s with
        socket := false, state := .closed, closeReason := .activeClose })
  | abortQueued {room} (held : s.socket = true) : Stepped (.abort room) { s with
      socket := false
      queues := { s.queues with
        onResetq := true
        resetq := if room then s.queues.resetq + 1 else s.queues.resetq } }
  | accept {socketFree} (queued : s.queues.acceptq ≠ 0) : Stepped (.accept socketFree) { s with
      socket := s.socket || socketFree
      queues := { s.queues with acceptq := s.queues.acceptq - 1 } }
  | closeListener : Stepped .closeListener { s with queues := { s.queues with acceptq := 0 } }

variable {config listener s} {t : TcpStream}

theorem checkRtmTimeout_stepped (done : checkRtmTimeout s = .ok t) :
    Stepped config listener s .rto t := by
  unfold checkRtmTimeout at done
  split at done
  · rename_i listed
    rcases handleRTO_cases done with rfl | ⟨reason, ⟨early, destroy⟩ | ended | ⟨state, ended⟩ | again⟩
    · exact .rtoClosed
    · exact .rtoUnopened ⟨listed, reason⟩ early destroy
    · exact .rtoLost ⟨listed, reason⟩ ended
    · exact .rtoFailed ⟨listed, reason⟩ state ended
    · rcases retransmit_cases again with ⟨state, present, rfl⟩ | ⟨state, rfl | rfl⟩ | ⟨state, rfl⟩ |
        ⟨state, destroy⟩
      · exact .rtoData state present
      · exact .rtoFinData state
      · exact .rtoFin state
      · exact .rtoSyn listed state
      · exact .rtoReset ⟨listed, reason⟩ state destroy
  · cases done
    exact .same

theorem handleCloseq_stepped (done : handleCloseq s = .ok t) : Stepped config listener s .closeq t := by
  unfold handleCloseq destroyReset at done
  split at done
  · cases done
    exact .same
  · rename_i queued
    dsimp only at done
    split at done
    · split at done
      · cases done
        exact .closeqTaken queued
      · exact .closeqReset queued done
    · repeat' split at done
      all_goals cases done
      · exact .closeqDeferred queued
      · exact .closeqWaiting queued
      · exact .closeqTaken queued
      · exact .closeqControl queued

theorem handleCloseqInt_stepped : Stepped config listener s .closeqInt (handleCloseqInt s) := by
  unfold handleCloseqInt
  split
  · exact .same
  · rename_i queued
    simp only [Bool.or_eq_true, decide_eq_true_eq, not_or] at queued
    dsimp only
    split
    · exact .closeqIntTaken queued.1
    · exact .closeqIntControl queued.1

theorem handleResetq_stepped (done : handleResetq s = .ok t) : Stepped config listener s .resetq t := by
  unfold handleResetq destroyReset resetNow at done
  split at done
  · cases done
    exact .same
  · dsimp only at done
    repeat' split at done
    · cases done
      exact .resetqTaken
    · exact .resetqReset done
    all_goals cases done
    · exact .resetqDeferred
    · exact .resetqTaken
    · exact .resetqControl

theorem handleResetqInt_stepped : Stepped config listener s .resetqInt (handleResetqInt s) := by
  unfold handleResetqInt resetNow
  split
  · exact .same
  · split
    · exact .resetqIntTaken
    · exact .resetqIntControl

theorem copyFromUser_cases {chunk data copied moved}
    (done : copyFromUser config chunk data s = .ok (copied, moved)) :
    moved = false ∧ (copied = s ∨ copied = { s with closeReason := .noMem }) ∨
      ∃ buf after sndlen, (s.seqs.sndbuf = some buf ∨ s.seqs.sndbuf = none ∧
          ∃ memory, chunk = some memory ∧ buf = sbInit config.sbm memory (s.seqs.iss + 1)) ∧
        0 < sndlen ∧ sndlen ≤ data.length ∧ sbPut buf data sndlen = .ok (after, sndlen) ∧
        copied = { s with
          seqs := { s.seqs with sndbuf := some after }
          ctl := { s.ctl with sndWnd := after.size - after.len } } := by
  unfold copyFromUser at done
  obtain ⟨sndlen, isLen⟩ : ∃ n, n = min (signed s.ctl.sndWnd) (signed (UInt32.ofNat data.length)) :=
    ⟨_, rfl⟩
  dsimp only at done
  rw [← isLen] at done
  split at done
  · cases done
    exact .inl ⟨rfl, .inl rfl⟩
  · rename_i positive
    have supply : sndlen.toNat ≤ data.length := by
      have atMost := signed_le (UInt32.ofNat data.length)
      rw [UInt32.toNat_ofNat'] at atMost
      omega
    have put : ∀ {buf u}, putData data sndlen.toNat buf s = .ok u → ∃ after,
        sbPut buf data sndlen.toNat = .ok (after, sndlen.toNat) ∧ u = { s with
          seqs := { s.seqs with sndbuf := some after }
          ctl := { s.ctl with sndWnd := after.size - after.len } } := by
      intro buf u done
      obtain ⟨⟨after, ret⟩, put, rest⟩ := bind_ok done
      dsimp only at rest
      split at rest <;> cases rest
      exact ⟨after, not_not.mp ‹_› ▸ put, rfl⟩
    split at done
    · rename_i buf present
      obtain ⟨u, store, finish⟩ := bind_ok done
      cases finish
      obtain ⟨after, stored, rfl⟩ := put store
      exact .inr ⟨buf, after, sndlen.toNat, .inl present, by omega, supply, stored, rfl⟩
    · split at done
      · cases done
        exact .inl ⟨rfl, .inr rfl⟩
      · rename_i memory
        obtain ⟨u, store, finish⟩ := bind_ok done
        cases finish
        obtain ⟨after, stored, rfl⟩ := put store
        exact .inr ⟨_, after, sndlen.toNat, .inr ⟨‹_›, memory, rfl, rfl⟩, by omega, supply, stored, rfl⟩

theorem mtcpWrite_stepped {chunk data}
    (held : s.socket = true) (done : mtcpWrite config chunk data s = .ok t) :
    Stepped config listener s (.write chunk data) t := by
  unfold mtcpWrite at done
  split at done
  · rename_i state
    obtain ⟨⟨copied, moved⟩, copy, rest⟩ := bind_ok done
    rcases copyFromUser_cases copy with
      ⟨rfl, rfl | rfl⟩ | ⟨buf, after, sndlen, source, positive, supply, put, rfl⟩
    · cases rest
      exact .same
    · cases rest
      exact .unwritten state
    · dsimp only at rest
      split at rest <;> cases rest
      · exact .written held state source positive supply put (.inr rfl)
      · exact .written held state source positive supply put (.inl rfl)
  · cases done
    exact .same

theorem mtcpClose_stepped {room} (held : s.socket = true) :
    Stepped config listener s (.close room) (mtcpClose room s) := by
  unfold mtcpClose
  split
  · exact .close held
  · dsimp only
    split
    case h_1 state => exact .closeDestroy held (.inl state)
    case h_2 state => exact .closeDestroy held (.inr state)
    case h_3 state => exact .closeQueued held (.inl state)
    case h_4 state => exact .closeQueued held (.inr state)
    all_goals exact .close held

theorem mtcpAbort_stepped {room} (held : s.socket = true) :
    Stepped config listener s (.abort room) (mtcpAbort room s) := by
  unfold mtcpAbort
  dsimp only
  split
  case h_1 => exact .abort held
  case h_2 | h_3 | h_4 | h_5 => exact .abortDestroy held
  all_goals
    split
    · exact .abort held
    · exact .abortQueued held

theorem stepStream_stepped {taken} (done : stepStream config listener s taken = .ok t) :
    Stepped config listener s taken t := by
  have unchanged : ∀ {taken}, s = t → Stepped config listener s taken t := fun same => same ▸ .same
  cases taken <;> dsimp only [stepStream] at done
  case rto => exact checkRtmTimeout_stepped done
  case timewaitExpire =>
    unfold checkTimewaitExpire at done
    split at done
    · exact .timewaitExpire (And.left ‹_›) done
    · exact unchanged (Except.ok.inj done)
  case connectionTimeout =>
    unfold checkConnectionTimeout at done
    split at done
    · exact .connectionTimeout (And.left ‹_›) (ended_of_ite done)
    · exact unchanged (Except.ok.inj done)
  case sendq =>
    unfold handleSendq at done
    split at done
    · exact unchanged (Except.ok.inj done)
    · obtain ⟨-, rfl⟩ := addtoSendList_ok done
      exact .sendq ‹_›
  case closeq => exact handleCloseq_stepped done
  case resetq => exact handleResetq_stepped done
  case destroyq =>
    unfold handleDestroyq at done
    split at done
    · exact unchanged (Except.ok.inj done)
    · exact .destroyq ‹_› done
  case segment | writeControl | writeData | write | recv =>
    split at done
    · first
      | exact .segment ‹_› done
      | exact .writeControl ‹_› done
      | exact .writeData done
      | exact mtcpWrite_stepped ‹_› done
      | exact .recv done
    · exact unchanged (Except.ok.inj done)
  all_goals cases done
  case closeqInt => exact handleCloseqInt_stepped
  case resetqInt => exact handleResetqInt_stepped
  case connectq =>
    unfold handleConnectq
    split
    · exact .same
    · exact .connectq ‹_›
  case ackq =>
    unfold handleAckq
    split
    · exact .same
    · exact .ackq ‹_›
  case accept =>
    unfold mtcpAccept
    split
    · exact .same
    · exact .accept ‹_›
  case writeAck | close | abort =>
    split
    · first
      | exact .writeAck ‹_›
      | exact mtcpClose_stepped ‹_›
      | exact mtcpAbort_stepped ‹_›
    · exact .same
  case listen => exact .same
  case closeListener => exact .closeListener

end Mcc
