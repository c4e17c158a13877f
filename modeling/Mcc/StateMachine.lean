import Mcc.DataAcceptance
import Mcc.ErrorReport
import Mcc.Handshake

/-!
The state machine of a connection over whole runs of segments, timers, calls and queue services.
-/

namespace Mcc

open Relation (ReflTransGen)

/-- A reset leads from `SYN_SENT` and `ESTABLISHED` to `CLOSE_WAIT`. -/
def TcpState.next : TcpState → List TcpState
  | .closed => []
  | .listen => [.synRcvd, .closed]
  | .synSent => [.synRcvd, .established, .closeWait, .closed]
  | .synRcvd => [.established, .closed]
  | .established => [.finWait1, .closeWait, .closed]
  | .finWait1 => [.finWait2, .closing, .closed]
  | .finWait2 | .closing => [.timeWait, .closed]
  | .closeWait => [.lastAck, .closed]
  | .lastAck | .timeWait => [.closed]

theorem TcpState.next_later {before after : TcpState} (next : before.next.contains after) :
    before ≠ .closed ∧ (after = .closed ∨ before.number < after.number) := by
  revert next
  cases before <;> cases after <;> decide

theorem TcpState.reached_later {first last : TcpState}
    (reached : ReflTransGen (·.next.contains ·) first last) :
    last = first ∨ last = .closed ∨ first.number < last.number := by
  induction reached with
  | refl => exact .inl rfl
  | tail _ next ih =>
    obtain ⟨isOpen, closed | later⟩ := TcpState.next_later next
    · exact .inr (.inl closed)
    · rcases ih with rfl | closed | before
      · exact .inr (.inr later)
      · exact absurd closed isOpen
      · exact .inr (.inr (before.trans later))

def Leads (s t : TcpStream) : Prop := ReflTransGen (·.next.contains ·) s.state t.state

variable {s t : TcpStream}

theorem leads_same (same : t.state = s.state) : Leads s t := by
  rw [Leads, same]

theorem leads_next {before after : TcpState} (first : s.state = before) (last : t.state = after)
    (next : before.next.contains after) : Leads s t := by
  rw [Leads, first, last]
  exact .single next

theorem leads_closed (closed : t.state = .closed) : Leads s t := by
  cases state : s.state
  case closed => exact leads_same (closed.trans state.symm)
  all_goals exact leads_next state closed rfl

theorem Received.leads (received : Received s t) : Leads s t :=
  received.state.elim (fun same => leads_same same.1) (fun closed => leads_closed closed.1)

variable {config : Config} {around : Surroundings} {segment : Segment}

theorem Absorbed.leads (absorbed : Absorbed config around segment s t) : Leads s t := by
  cases absorbed
  case established receive ack =>
    have received := (receivePayload_spec receive).1.leads
    rcases ack with ⟨-, ack⟩ | ⟨-, rfl⟩
    · exact received.trans (leads_same (receiveACK_state ack))
    · exact received
  case acked ack => exact leads_same (receiveACK_state ack)
  case finWait1 state _ ack receive =>
    refine ReflTransGen.trans ?_ (receivePayload_spec receive).1.leads
    unfold finAcked
    split
    · exact leads_next state rfl rfl
    · exact leads_same (receiveACK_state ack)
  case finWait2 ack receive =>
    exact (leads_same (receiveACK_state ack)).trans (receivePayload_spec receive).1.leads

theorem Answered.leads (answered : Answered config around segment s t) : Leads s t := by
  cases answered
  case same | syn | control => exact .refl
  case absorbed absorbed | gap absorbed | unsettled absorbed | finLate absorbed _ _ =>
    exact absorbed.leads
  case lastAcked destroy | resetClosing destroy => exact leads_closed (destroy_state destroy)
  case closeWait state _ _ | closing state _ _ | timeWait state _ _ _ | closingAcked state _ _ _ _ _ =>
    exact leads_next state rfl rfl
  case bothFins absorbed waiting =>
    exact absorbed.leads.trans (leads_next waiting rfl rfl)
  case waited =>
    unfold handleTimeWait
    split <;> exact .refl
  case reset state _ =>
    rcases state with state | state
    · exact leads_next state rfl rfl
    · exact leads_same state.symm

theorem completePassiveOpen_leads (state : s.state = .synRcvd)
    (done : completePassiveOpen config around segment s = .ok t) : Leads s t := by
  rcases completePassiveOpen_cases done with (rfl | rfl) | (rfl | rfl) <;>
    exact leads_next state rfl rfl

theorem Handled.leads (handled : Handled config around segment s t) : Leads s t := by
  cases handled
  case same | synAcked | synAgain | synResent => exact .refl
  case answered answered => exact answered.leads
  case listen state =>
    unfold handleListen
    split
    · exact leads_next state rfl rfl
    · exact .refl
  case simultaneous state _ _ _ => exact leads_next state rfl rfl
  case synReset state _ _ ended => exact leads_next state ended.state rfl
  case active state _ _ _ complete =>
    obtain ⟨opened, opens, ⟨-, rfl | rfl⟩ | ⟨-, destroy⟩⟩ := completeActiveOpen_cases complete
    · exact leads_next state opens.state rfl
    · exact leads_next state opens.state rfl
    · exact leads_next state ((destroy_state destroy).trans opens.state) rfl
  case passive state _ complete => exact completePassiveOpen_leads state complete
  case passiveData state _ complete _ answered =>
    exact (completePassiveOpen_leads state complete).trans answered.leads
  case resetOpening destroy => exact leads_closed (destroy_state destroy)

theorem processTCPPacket_leads (done : processTCPPacket config around segment s = .ok t) :
    Leads s t := by
  cases opening : s.state.opening with
  | true => exact (processTCPPacket_opening opening done).leads
  | false =>
    obtain ⟨checked, validated, rfl | ⟨-, answered⟩⟩ := processTCPPacket_settled opening done
    · exact leads_same validated.state
    · exact (leads_same validated.state).trans answered.leads

theorem stepStream_leads {listener taken} (done : stepStream config listener s taken = .ok t) :
    Leads s t := by
  cases stepStream_stepped done
  case segment done => exact processTCPPacket_leads done
  case rtoUnopened destroy | timewaitExpire destroy | closeqReset destroy | resetqReset destroy =>
    exact leads_closed (destroy_state destroy)
  case rtoReset destroy | destroyq destroy =>
    have same := destroy_state destroy
    exact leads_same same
  case rtoLost ended | rtoFailed ended | connectionTimeout ended => exact leads_closed ended.state
  case writeControl done =>
    exact leads_same (@writeTCPControlList_preserves _ _ _ (fun u => u.state = s.state) _
      (fun _ _ => rfl) id (fun same destroy => (destroy_state destroy).trans same) done)
  case writeData done => exact leads_same (ErrorReport.writeTCPDataList_state done)
  case writeAck => exact leads_same (serveACKs_served _ _ s).state
  case closeqWaiting | closeqControl | closeqIntControl =>
    cases state : s.state
    case established | closeWait => exact leads_next state rfl rfl
    all_goals exact leads_same state.symm
  case resetqControl | resetqIntControl | abortDestroy => exact leads_closed rfl
  case recv done => rcases mtcpRecv_cases done with rfl | ⟨rcv, -, rfl | rfl⟩ <;> exact .refl
  all_goals exact .refl

/-- In every run the state moves only along the edges, and so never back to one that it has left. -/
theorem states_follow_edges {host after : Host} {steps : List Step}
    (done : run config host steps = .ok after) : Leads host.stream after.stream ∧
      (after.stream.state = host.stream.state ∨ after.stream.state = .closed ∨
        host.stream.state.number < after.stream.state.number) := by
  have kept {middle taken next} (before : Leads host.stream middle.stream) (_ : True)
      (stepped : step config middle taken = .ok next) : Leads host.stream next.stream := by
    obtain ⟨stream, moved, last⟩ := bind_ok stepped
    cases last
    exact before.trans (stepStream_leads moved)
  have leads := run_preserves kept .refl (.of_forall (fun _ _ _ => trivial) host) done
  exact ⟨leads, TcpState.reached_later leads⟩

theorem readTwo_follows_edges : ∃ host after, start sampleConfig (.passive 0 0 firstSyn) = .ok host ∧
    run sampleConfig host readTwo = .ok after ∧ Leads host.stream after.stream := by
  obtain ⟨host, after, -, started, done, -⟩ := readTwo_reached
  exact ⟨host, after, started, done, (states_follow_edges done).1⟩

end Mcc
