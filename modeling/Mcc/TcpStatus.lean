import Mcc.Stepped

/-!
What the stack does on its own to a connection's place in it: it never takes the socket away, it
does not forget a reset, it puts the connection on no queue but the accept queue, and it takes it out
of the flow table only to destroy it.
-/

namespace Mcc

open SerialNumber RingBuffer Status

structure Kept (s t : TcpStream) : Prop where
  socket : t.socket = s.socket
  haveReset : s.haveReset = true → t.haveReset = true
  queues : t.queues = s.queues
  onHashTable : t.onHashTable = s.onHashTable

theorem Kept.refl (s : TcpStream) : Kept s s := ⟨rfl, id, rfl, rfl⟩

variable {s t u : TcpStream}

theorem Kept.trans (first : Kept s t) (second : Kept t u) : Kept s u where
  socket := second.socket.trans first.socket
  haveReset := second.haveReset ∘ first.haveReset
  queues := second.queues.trans first.queues
  onHashTable := second.onHashTable.trans first.onHashTable

theorem kept_of_status (status : t.status = s.status) : Kept s t where
  socket := congrArg socket status
  haveReset := (congrArg haveReset status).trans
  queues := congrArg queues status
  onHashTable := congrArg onHashTable status

structure Freed (s t : TcpStream) : Prop where
  gone : t.onHashTable = false
  socket : t.socket = s.socket
  haveReset : s.haveReset = true → t.haveReset = true

theorem Kept.freed (before : Kept s t) (freed : Freed t u) : Freed s u where
  gone := freed.gone
  socket := freed.socket.trans before.socket
  haveReset := freed.haveReset ∘ before.haveReset

def Fate (s t : TcpStream) : Prop := Kept s t ∨ Freed s t

theorem Kept.fate (before : Kept s t) (fate : Fate t u) : Fate s u := fate.imp before.trans before.freed

theorem Fate.haveReset (fate : Fate s t) : s.haveReset = true → t.haveReset = true :=
  fate.elim Kept.haveReset Freed.haveReset

theorem fate_of_destroy (before : Kept s t) (done : destroyTCPStream t = .ok u) : Fate s u := by
  unfold destroyTCPStream at done
  split at done <;> cases done
  exact .inr (before.freed ⟨rfl, rfl, id⟩)

theorem Ended.fate (ended : Ended t u) (status : t.status = s.status) : Fate s u := by
  rcases ended with ⟨-, rfl⟩ | ⟨-, destroy⟩
  · exact .inl (kept_of_status status)
  · exact fate_of_destroy (kept_of_status status) destroy

theorem Watched.kept (watched : Watched s t) : Kept s t := by
  rcases watched with rfl | rfl
  · exact .refl _
  · exact kept_of_status rfl

variable {curTs : UInt32} {segment : Segment}

theorem receiveACK_kept (done : receiveACK curTs segment s = .ok t) : Kept s t := by
  rcases receiveACK_cases done with rfl | ⟨buf, fast, -, -, acked⟩
  · exact .refl _
  · exact kept_of_status acked.steady.status

variable {config : Config} {around : Surroundings}

theorem receivePayload_kept (done : receivePayload config around segment s = .ok t) : Kept s t :=
  kept_of_status (receivePayload_spec done).1.status

theorem finAcked_kept (segment : Segment) (s : TcpStream) : Kept s (finAcked segment s) := by
  unfold finAcked
  split
  · exact kept_of_status rfl
  · exact .refl s

theorem Absorbed.kept (absorbed : Absorbed config around segment s t) : Kept s t := by
  cases absorbed
  case established receive ack =>
    rcases ack with ⟨-, ack⟩ | ⟨-, rfl⟩
    · exact (receivePayload_kept receive).trans (receiveACK_kept ack)
    · exact receivePayload_kept receive
  case acked ack => exact (receiveACK_kept ack)
  case finWait1 acked _ _ ack receive =>
    exact ((receiveACK_kept ack).trans (finAcked_kept segment acked)).trans (receivePayload_kept receive)
  case finWait2 ack receive => exact (receiveACK_kept ack).trans (receivePayload_kept receive)

def Accepted (s t : TcpStream) : Prop :=
  s.state = .synRcvd ∧ Kept { s with queues := { s.queues with acceptq := s.queues.acceptq + 1 } } t

theorem Answered.fate (answered : Answered config around segment s t) : Fate s t := by
  cases answered
  case same => exact .inl (.refl s)
  case syn | control | reset => exact .inl (kept_of_status rfl)
  case absorbed absorbed => exact .inl absorbed.kept
  case gap absorbed | unsettled absorbed | closing absorbed _ | bothFins absorbed _ |
      finLate absorbed _ _ => exact .inl (absorbed.kept.trans (kept_of_status rfl))
  case closeWait state receive ack =>
    exact .inl ((Absorbed.established state receive ack).kept.trans (kept_of_status rfl))
  case lastAcked ack _ timer destroy =>
    obtain ⟨-, tsRto, rfl⟩ := updateRetransmissionTimer_form timer
    refine fate_of_destroy ?_ destroy
    exact (receiveACK_kept ack).trans (kept_of_status rfl)
  case timeWait ack receive =>
    exact .inl ((receiveACK_kept ack).trans (kept_of_status (receivePayload_spec receive).1.status))
  case closingAcked ack _ _ timer =>
    obtain ⟨-, tsRto, rfl⟩ := updateRetransmissionTimer_form timer
    exact .inl ((receiveACK_kept ack).trans (kept_of_status rfl))
  case waited =>
    unfold handleTimeWait
    split <;> exact .inl (kept_of_status rfl)
  case resetClosing destroy =>
    refine fate_of_destroy ?_ destroy
    exact kept_of_status rfl

theorem completePassiveOpen_accepted (state : s.state = .synRcvd)
    (done : completePassiveOpen config around segment s = .ok t) : Accepted s t ∨ Kept s t := by
  rcases completePassiveOpen_cases done with queued | refused
  · have opened : Kept { s with queues := { s.queues with acceptq := s.queues.acceptq + 1 } }
        { passiveOpened segment s with
          queues := { s.queues with acceptq := s.queues.acceptq + 1 } } := kept_of_status rfl
    exact .inl ⟨state, opened.trans queued.kept⟩
  · have dropped : Kept s (addtoControlList { passiveOpened segment s with
        state := .closed, closeReason := .notAccepted }) := kept_of_status rfl
    exact .inr (dropped.trans refused.kept)

theorem Handled.fate (handled : Handled config around segment s t) :
    Accepted s t ∨ Fate s t := by
  cases handled
  case same => exact .inr (.inl (.refl s))
  case answered answered => exact .inr answered.fate
  case simultaneous | synAcked | synAgain | synResent => exact .inr (.inl (kept_of_status rfl))
  case listen =>
    refine .inr (.inl ?_)
    unfold handleListen
    split <;> exact kept_of_status rfl
  case synReset ended => exact .inr (ended.fate rfl)
  case active complete =>
    obtain ⟨opened, opening, ⟨-, watched⟩ | ⟨-, destroy⟩⟩ := completeActiveOpen_cases complete
    · have established : Kept s (addtoControlList (raise .write opened)) := kept_of_status opening.status
      exact .inr (.inl (established.trans watched.kept))
    · refine .inr (fate_of_destroy ?_ destroy)
      exact kept_of_status opening.status
  case passive state _ complete => exact (completePassiveOpen_accepted state complete).imp_right .inl
  case passiveData state _ complete _ answered =>
    rcases completePassiveOpen_accepted state complete with ⟨waited, queued⟩ | kept
    · rcases queued.fate answered.fate with queued | freed
      · exact .inl ⟨waited, queued⟩
      · exact .inr (.inr ⟨freed.gone, freed.socket, freed.haveReset⟩)
    · exact .inr (kept.fate answered.fate)
  case resetOpening destroy =>
    refine .inr (fate_of_destroy ?_ destroy)
    exact kept_of_status rfl

theorem noteSegment_kept (curTs : UInt32) (segment : Segment) (s : TcpStream) :
    Kept s (noteSegment curTs segment s) where
  socket := rfl
  haveReset reset := by simp [noteSegment, reset]
  queues := rfl
  onHashTable := rfl

theorem processTCPPacket_fate (done : processTCPPacket config around segment s = .ok t) :
    Accepted s t ∨ Fate s t := by
  have noted := noteSegment_kept around.curTs segment
  cases opening : s.state.opening with
  | true =>
    rcases (processTCPPacket_opening opening done).fate with ⟨state, queued⟩ | fate
    · exact .inl ⟨state, (noted _).trans queued⟩
    · exact .inr ((noted s).fate fate)
  | false =>
    obtain ⟨checked, validated, rfl | ⟨-, answered⟩⟩ := processTCPPacket_settled opening done
    · exact .inr (.inl (kept_of_status validated.status))
    · exact .inr (((kept_of_status validated.status).trans (noted checked)).fate answered.fate)

theorem writeTCPControlList_fate {output} (done : writeTCPControlList output curTs s = .ok t) :
    Fate s t := by
  have sent : Kept s (controlSent curTs s) := kept_of_status (controlSent_steady curTs s).status
  rcases writeTCPControlList_cases done with
    ⟨-, rfl⟩ | ⟨-, ⟨-, rfl⟩ | ⟨-, ⟨-, rfl⟩ | ⟨-, -, ⟨-, rfl⟩ | ⟨-, destroy⟩⟩⟩⟩
  · exact .inl (kept_of_status rfl)
  · exact .inl (kept_of_status rfl)
  · refine .inl ?_
    unfold controlBase
    split <;> exact kept_of_status rfl
  · exact .inl sent
  · exact fate_of_destroy sent destroy

theorem writeTCPDataList_kept {buffers} (done : writeTCPDataList buffers curTs s = .ok t) : Kept s t := by
  refine writeTCPDataList_preserves (fun _ before passed => ?_) (fun before => ?_) (.refl s) done
  · exact before.trans (kept_of_status (flushPass_flushed passed).steady.status)
  · exact before.trans (kept_of_status rfl)

theorem writeTCPACKList_kept (buffers : Nat) (curTs : UInt32) (s : TcpStream) :
    Kept s (writeTCPACKList buffers curTs s) := by
  have served : Kept s (serveACKs buffers curTs s) :=
    kept_of_status (serveACKs_served buffers curTs s).status
  exact served.trans (kept_of_status rfl)

theorem stepStream_haveReset {listener taken}
    (done : stepStream config listener s taken = .ok t) (reset : s.haveReset = true) :
    t.haveReset = true := by
  cases stepStream_stepped done
  case segment done =>
    rcases processTCPPacket_fate done with ⟨-, queued⟩ | fate
    · exact queued.haveReset reset
    · exact fate.haveReset reset
  case rtoLost ended | rtoFailed ended | connectionTimeout ended =>
    have fate : Fate s t := ended.fate rfl
    exact fate.haveReset reset
  case rtoUnopened destroy | rtoReset destroy | timewaitExpire destroy | closeqReset destroy |
      resetqReset destroy | destroyq destroy =>
    exact (fate_of_destroy (.refl _) destroy).haveReset reset
  case writeControl done => exact (writeTCPControlList_fate done).haveReset reset
  case writeData done => exact (writeTCPDataList_kept done).haveReset reset
  case writeAck => exact (writeTCPACKList_kept _ _ s).haveReset reset
  case written moved => rcases moved with rfl | rfl <;> exact reset
  case recv done => rcases mtcpRecv_cases done with rfl | ⟨rcv, -, rfl | rfl⟩ <;> exact reset
  all_goals exact reset

end Mcc
