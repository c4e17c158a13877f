import Mcc.AdvertisedWindow
import Mcc.EndlessRun
import Mcc.TcpStatus

/-!
How a window that has been closed is opened again. A packet with window 0 sets `need_wnd_adv`; a
read that makes room for more than a segment of the peer then puts the stream into `ackq`, from
which it goes to the ACK list.
-/

namespace Mcc

open SerialNumber RingBuffer Progress TcpStream

section Emits

def windowField (s : TcpStream) : UInt16 := (min (advertisedWindow { ack := true } s) 65535).toUInt16

def Action.Announcing (field : UInt16) : Action → Prop
  | .sent packet => packet.flags.ack = true ∧ packet.window = field
  | _ => False

def Listed (s : TcpStream) : Prop := s.lists.onAckList = true ∧ s.lists.ackCnt ≠ 0

instance (s : TcpStream) : Decidable (Listed s) := inferInstanceAs (Decidable (_ ∧ _))

structure Emits (s t : TcpStream) : Prop where
  steady : Steady s t
  view : { t.recvView with needWndAdv := s.rcv.needWndAdv } = s.recvView
  needed : s.rcv.needWndAdv = true → t.rcv.needWndAdv = true
  history : Grows (Action.Announcing (windowField s)) s.history t.history
  noted : windowField s = 0 → t.history ≠ s.history → t.rcv.needWndAdv = true
  mss : t.history ≠ s.history → 12 ≤ s.ctl.mss.toNat
  listed : t.history = s.history → Listed s → Listed t

variable {s t u : TcpStream} {curTs : UInt32}

theorem Emits.refl (s : TcpStream) : Emits s s where
  steady := .refl s
  view := rfl
  needed := id
  history := .refl _ _
  noted _ changed := absurd rfl changed
  mss changed := absurd rfl changed
  listed _ := id

theorem Emits.field (emits : Emits s t) : windowField t = windowField s := by
  have view := emits.view
  simp only [recvView, RecvView.mk.injEq] at view
  simp [windowField, advertisedWindow, view]

theorem Grows.same {allowed other first second third}
    (earlier : Grows allowed first second) (later : Grows other second third)
    (same : third = first) : second = first := by
  obtain ⟨added, rfl, -⟩ := earlier
  obtain ⟨more, rfl, -⟩ := later
  have length := congrArg List.length same
  simp only [List.length_append] at length
  have empty : added = [] := List.eq_nil_of_length_eq_zero (by omega)
  rw [empty]
  rfl

theorem Emits.trans (first : Emits s t) (second : Emits t u) : Emits s u where
  steady := first.steady.trans second.steady
  view := by rw [← first.view, ← second.view]
  needed := second.needed ∘ first.needed
  history := first.history.trans (first.field ▸ second.history)
  noted zero changed := by
    by_cases same : t.history = s.history
    · exact second.noted (first.field.trans zero) (by rwa [same])
    · exact second.needed (first.noted zero same)
  mss changed := by
    by_cases same : t.history = s.history
    · rw [← first.steady.mss]
      exact second.mss (by rwa [same])
    · exact first.mss same
  listed same listed := by
    have between := first.history.same second.history same
    exact second.listed (same.trans between.symm) (first.listed between listed)

theorem windowField_eq_zero_iff : windowField s = 0 ↔ advertisedWindow { ack := true } s = 0 := by
  rw [windowField, ← UInt16.toNat_inj, ← UInt32.toNat_inj, UInt32.toNat_toUInt16, toNat_min]
  change min _ 65535 % 2 ^ 16 = 0 ↔ _ = 0
  omega

theorem handOver_emits (mss : 12 ≤ s.ctl.mss.toNat) (wack : Bool) (payload : List UInt8)
    (length : Nat) : Emits s (handOver curTs { ack := true } wack payload length s) where
  steady := ⟨rfl, rfl, rfl, rfl⟩
  view := rfl
  needed needed := by simp [handOver, needed]
  history := Grows.cons ⟨rfl, rfl⟩ _
  noted zero _ := by simp [handOver, windowField_eq_zero_iff.mp zero]
  mss _ := mss
  listed same := absurd same (List.cons_ne_self _ _)

theorem sendTCPPacket_emits (output wack : Bool) (payload : List UInt8) (payloadlen : UInt16) :
    Emits s (sendTCPPacket output curTs { ack := true } wack payload payloadlen s).1 := by
  rcases sendTCPPacket_cases output curTs { ack := true } wack payload payloadlen s with
    ⟨same, -⟩ | ⟨-, fits, sent⟩
  · rw [same]
    exact .refl s
  · rw [sent]
    exact handOver_emits (Nat.le_trans (Nat.le_add_left 12 _) fits) ..

theorem writeTCPControlList_emits {output} (state : s.state = .established)
    (done : writeTCPControlList output curTs s = .ok t) : Emits s t := by
  have deferred : controlDeferred s = false := by simp [controlDeferred, state]
  have flags : controlFlags s = { ack := true } := by simp [controlFlags, state]
  have based : ∀ u : TcpStream, u.state = s.state → controlBase u = u := by
    intro u same
    simp [controlBase, same, state]
  rcases writeTCPControlList_cases done with ⟨listen, -⟩ | ⟨-, ⟨waits, -⟩ | ⟨-, outcome⟩⟩
  · simp [state] at listen
  · simp [deferred] at waits
  · rw [based s rfl] at outcome
    rcases outcome with ⟨-, rfl⟩ | ⟨-, mss, ⟨-, rfl⟩ | ⟨closed, -⟩⟩
    · exact { Emits.refl s with steady := ⟨rfl, rfl, rfl, rfl⟩ }
    · rw [controlSent, flags, based (removeFromControlList s) rfl]
      rw [flags] at mss
      have sends : 12 ≤ (removeFromControlList s).ctl.mss.toNat := mss
      refine Emits.trans ?_ (handOver_emits sends ..)
      exact { Emits.refl s with steady := ⟨rfl, rfl, rfl, rfl⟩ }
    · simp [state] at closed

theorem flushPass_emits {output result} (done : flushPass output curTs s = .ok result) :
    Emits s result.1 ∧ (result.2 = .sent → result.1.history ≠ s.history) := by
  obtain ⟨buf, held⟩ := flushPass_held done
  rcases (flushPass_cases held done).2 with ⟨rfl, -⟩ | rfl | rfl | ⟨count, -, mss, -, -, rfl⟩
  · exact ⟨.refl s, nofun⟩
  · exact ⟨.refl s, nofun⟩
  · refine ⟨{ Emits.refl s with steady := ⟨rfl, rfl, rfl, rfl⟩, listed := ?_ }, nofun⟩
    exact fun _ listed => ⟨rfl, listed.2⟩
  · exact ⟨handOver_emits mss .., fun _ => List.cons_ne_self _ _⟩

theorem flushLoop_emits (buffers : Nat) : ∀ (s : TcpStream) (packets : Int)
    (result : TcpStream × Int), 0 ≤ packets → flushLoop curTs buffers s packets = .ok result →
    Emits s result.1 ∧ (result.1.history = s.history → result.2 ≤ packets) := by
  induction buffers with
  | zero =>
    intro s packets result nonnegative done
    obtain ⟨⟨after, last⟩, passed, finish⟩ := bind_ok done
    cases finish
    refine ⟨(flushPass_emits passed).1, fun _ => ?_⟩
    dsimp only
    split <;> omega
  | succ buffers ih =>
    intro s packets result nonnegative done
    obtain ⟨⟨after, last⟩, passed, finish⟩ := bind_ok done
    obtain ⟨emits, moved⟩ := flushPass_emits passed
    cases last with
    | drained =>
      cases finish
      exact ⟨emits, fun _ => Int.le_refl _⟩
    | blocked =>
      cases finish
      refine ⟨emits, fun _ => ?_⟩
      dsimp only
      omega
    | sent =>
      obtain ⟨rest, -⟩ := ih after (packets + 1) result (by omega) finish
      refine ⟨emits.trans rest, fun same => ?_⟩
      exact absurd (emits.history.same rest.history same) (moved rfl)

variable {buffers : Nat}

theorem flush_emits {result} (done : flushTCPSendingBuffer buffers curTs s = .ok result) :
    Emits s result.1 ∧ (result.1.history = s.history → result.2 ≤ 0) := by
  unfold flushTCPSendingBuffer at done
  split at done
  · cases done
  · split at done
    · cases done
      exact ⟨.refl s, fun _ => Int.le_refl _⟩
    · exact flushLoop_emits buffers s 0 result (Int.le_refl _) done

theorem finishData_ackCnt {packets} (nothing : packets ≤ 0) (count : t.lists.ackCnt ≠ 0) :
    (finishData packets t).lists.ackCnt ≠ 0 := by
  have nonzero : t.lists.ackCnt.toNat ≠ 0 := fun zero => count (UInt8.toNat_inj.mp zero)
  have positive : packets < t.lists.ackCnt.toNat := by omega
  simp only [finishData, if_pos positive, Int.toNat_of_nonpos nothing]
  simpa using count

theorem finishData_emits {packets} (emits : Emits s t)
    (counted : t.history = s.history → packets ≤ 0) : Emits s (finishData packets t) where
  __ := emits
  steady := { emits.steady with }
  listed same listed := by
    obtain ⟨on, count⟩ := emits.listed same listed
    exact ⟨on, finishData_ackCnt (counted same) count⟩

theorem writeTCPDataList_emits (state : s.state = .established)
    (done : writeTCPDataList buffers curTs s = .ok t) : Emits s t := by
  unfold writeTCPDataList at done
  obtain ⟨⟨after, ret⟩, serve, finish⟩ := bind_ok done
  simp only [serveData, state] at serve
  have served : Emits s after ∧ (after.history = s.history → ret ≤ 0) := by
    split at serve
    · cases serve
      exact ⟨.refl s, fun _ => by decide⟩
    · exact flush_emits serve
  dsimp only at finish
  split at finish <;> cases finish
  · exact served.1
  · exact finishData_emits served.1 served.2

theorem countedOff_emits (emits : Emits s t) (sent : t.history ≠ s.history) :
    Emits s { t with lists := { t.lists with ackCnt := t.lists.ackCnt - 1 } } where
  __ := emits
  steady := { emits.steady with }
  listed same := absurd same sent

theorem sendBare_cases (output : Bool) (s : TcpStream) :
    sendBare output curTs { ack := true } s = (s, -1) ∨
      sendBare output curTs { ack := true } s = (s, -2) ∨
      12 ≤ s.ctl.mss.toNat ∧ sendBare output curTs { ack := true } s =
        (handOver curTs { ack := true } false [] 0 s, 0) := by
  unfold sendBare sendTCPPacket
  split
  · exact .inl rfl
  · rename_i fits
    split
    · exact .inr (.inl rfl)
    · exact .inr (.inr ⟨by simpa [calculateOptionLength] using fits, rfl⟩)

theorem ackLoop_emits (count : Nat) : ∀ (buffers : Nat) (s : TcpStream),
    Emits s (ackLoop curTs count buffers s).1 := by
  induction count with
  | zero => exact fun _ s => .refl s
  | succ count ih =>
    intro buffers s
    unfold ackLoop
    rcases sendBare_cases (0 < buffers) s with large | full | ⟨mss, sent⟩
    · rw [large]
      exact .refl s
    · rw [full]
      exact .refl s
    · rw [sent]
      refine Emits.trans ?_ (ih (buffers - 1) _)
      exact countedOff_emits (handOver_emits mss ..) (List.cons_ne_self _ _)

theorem ackLoop_sends_one {count} (above : 0 < count) (room : 0 < buffers)
    (mss : 12 ≤ s.ctl.mss.toNat) : (ackLoop curTs count buffers s).1.history ≠ s.history := by
  obtain ⟨rest, rfl⟩ := Nat.exists_eq_succ_of_ne_zero (Nat.ne_of_gt above)
  have sent : sendBare (0 < buffers) curTs { ack := true } s =
      (handOver curTs { ack := true } false [] 0 s, 0) := by
    have fits : ¬s.ctl.mss.toNat < UInt16.toNat 0 + calculateOptionLength { ack := true } := by
      simpa [calculateOptionLength] using mss
    unfold sendBare sendTCPPacket
    rw [if_neg fits, if_neg (by simpa using Nat.ne_of_gt room)]
    rfl
  have first : Emits s (handOver curTs { ack := true } false [] 0 s) := handOver_emits mss ..
  have counted := countedOff_emits first (List.cons_ne_self _ _)
  unfold ackLoop
  rw [sent]
  intro same
  have unsent := counted.history.same (ackLoop_emits rest (buffers - 1) _).history same
  exact List.cons_ne_self _ _ unsent

theorem sendWack_emits (buffers : Nat) : Emits s (sendWack buffers curTs s) := by
  unfold sendWack
  split
  · have asked : Emits s (sendTCPPacket (0 < buffers) curTs { ack := true } true [] 0 s).1 :=
      sendTCPPacket_emits ..
    exact { asked with steady := { asked.steady with } }
  · exact .refl s

theorem writeTCPACKList_emits (buffers : Nat) (acks : toAck s = true) :
    Emits s (writeTCPACKList buffers curTs s) := by
  have served : Emits s (serveACKs buffers curTs s) := by
    unfold serveACKs
    rw [if_pos acks]
    have looped := @ackLoop_emits curTs s.lists.ackCnt.toNat buffers s
    generalize ackLoop curTs s.lists.ackCnt.toNat buffers s = result at looped ⊢
    obtain ⟨acked, left⟩ := result
    have asked := looped.trans (@sendWack_emits acked curTs left)
    refine asked.trans { Emits.refl _ with steady := ⟨rfl, rfl, rfl, rfl⟩, listed := ?_ }
    refine fun _ listed => ⟨?_, listed.2⟩
    simp [listed.2]
  exact { served with steady := { served.steady with } }

theorem writeTCPACKList_sends_one (acks : toAck s = true) (listed : Listed s) (room : 0 < buffers)
    (mss : 12 ≤ s.ctl.mss.toNat) : (writeTCPACKList buffers curTs s).history ≠ s.history := by
  have positive : 0 < s.lists.ackCnt.toNat := by
    have nonzero : s.lists.ackCnt.toNat ≠ 0 := fun zero => listed.2 (UInt8.toNat_inj.mp zero)
    omega
  have one := @ackLoop_sends_one s curTs _ _ positive room mss
  have looped := @ackLoop_emits curTs s.lists.ackCnt.toNat buffers s
  change (serveACKs buffers curTs s).history ≠ s.history
  unfold serveACKs
  rw [if_pos acks]
  generalize ackLoop curTs s.lists.ackCnt.toNat buffers s = result at one looped ⊢
  obtain ⟨acked, left⟩ := result
  intro same
  exact one (looped.history.same (@sendWack_emits acked curTs left).history same)

end Emits

section Hears

structure Hears (calls : Nat) (s t : TcpStream) : Prop where
  queues : t.queues = s.queues
  count : s.lists.ackCnt.toNat + calls < 64 → t.lists.ackCnt.toNat ≤ s.lists.ackCnt.toNat + calls
  listed : s.lists.ackCnt.toNat + calls < 64 → Listed s → Listed t
  needed : t.rcv.needWndAdv = s.rcv.needWndAdv
  mss : t.ctl.mss = s.ctl.mss
  effMss : t.ctl.effMss = s.ctl.effMss
  buffered : s.rcv.rcvbuf ≠ none → t.rcv.rcvbuf ≠ none
  window : s.rcv.rcvbuf ≠ none → t.rcv.rcvWnd.toNat ≤ s.rcv.rcvWnd.toNat

variable {config : Config} {s t u : TcpStream} {segment : Segment} {around : Surroundings}
  {first second : Nat}

theorem Hears.trans (earlier : Hears first s t) (later : Hears second t u) :
    Hears (first + second) s u where
  queues := later.queues.trans earlier.queues
  count bound := by
    have between := earlier.count (by omega)
    have after := later.count (by omega)
    omega
  listed bound listed := by
    have between := earlier.count (by omega)
    exact later.listed (by omega) (earlier.listed (by omega) listed)
  needed := later.needed.trans earlier.needed
  mss := later.mss.trans earlier.mss
  effMss := later.effMss.trans earlier.effMss
  buffered := later.buffered ∘ earlier.buffered
  window held := Nat.le_trans (later.window (earlier.buffered held)) (earlier.window held)

theorem Hears.of_view (queues : t.queues = s.queues) (onAckList : t.lists.onAckList = s.lists.onAckList)
    (ackCnt : t.lists.ackCnt = s.lists.ackCnt) (view : t.recvView = s.recvView) : Hears 0 s t := by
  simp only [recvView, RecvView.mk.injEq] at view
  obtain ⟨-, rcvWnd, -, rcvbuf, needed, -, effMss, mss⟩ := view
  refine ⟨queues, fun _ => by rw [ackCnt]; exact Nat.le_refl _, fun _ listed => ?_, needed, mss,
    effMss, fun held => by rwa [rcvbuf], fun _ => by rw [rcvWnd]⟩
  exact ⟨onAckList.trans listed.1, by rw [ackCnt]; exact listed.2⟩

theorem Hears.more (hears : Hears first s t) (le : first ≤ second) : Hears second s t :=
  { hears with
    count := fun bound => Nat.le_trans (hears.count (by omega)) (by omega)
    listed := fun bound => hears.listed (by omega) }

theorem enqueueACK_hears (opt : AckOption) : Hears 1 s (enqueueACK opt s) := by
  have next : s.lists.ackCnt.toNat + 1 < 64 →
      ((s.lists.ackCnt + 1) % 64).toNat = s.lists.ackCnt.toNat + 1 := by
    intro bound
    rw [UInt8.toNat_mod, UInt8.toNat_add]
    change (s.lists.ackCnt.toNat + 1) % 256 % 64 = _
    omega
  refine ⟨rfl, fun bound => ?_, fun bound listed => ⟨rfl, ?_⟩, rfl, rfl, rfl, id, fun _ => Nat.le_refl _⟩
  · cases opt with
    | now => exact Nat.le_of_eq (next bound)
    | aggregate =>
      simp only [enqueueACK]
      split
      · exact Nat.le_add_left _ _
      · omega
    | wack => exact Nat.le_succ _
  · cases opt with
    | now =>
      intro zero
      have same := next bound
      rw [show (s.lists.ackCnt + 1) % 64 = 0 from zero] at same
      simp at same
    | aggregate =>
      simp only [enqueueACK, if_neg listed.2]
      exact listed.2
    | wack => exact listed.2

theorem receiveACK_hears {curTs} (done : receiveACK curTs segment s = .ok t) : Hears 0 s t := by
  have view := receiveACK_recvView done
  rcases receiveACK_cases done with rfl | ⟨buf, fast, -, -, acked⟩
  · exact Hears.of_view rfl rfl rfl rfl
  · have status := acked.steady.status
    replace status := Status.mk.inj status
    refine Hears.of_view status.2.2.2.2.1 ?_ ?_ view
    · exact (congrArg Lists.onAckList acked.lists :)
    · exact (congrArg Lists.ackCnt acked.lists :)

section

variable (state : s.state = .established) (fitted : Fitted config s)
include state fitted

theorem storePayload_hears {buff result}
    (held : s.rcv.rcvbuf = some buff)
    (notBefore : ¬tcpSeqLt (segment.seq + segment.payloadlen) s.rcv.rcvNxt)
    (notAfter : ¬tcpSeqGt (segment.seq + segment.payloadlen) (s.rcv.rcvNxt + s.rcv.rcvWnd))
    (done : storePayload segment buff s = .ok result) : Hears 0 s result.1 := by
  obtain ⟨after, moved⟩ := result
  obtain ⟨stored, ret, kept, history, put, discard, rfl, -⟩ := storePayload_form done
  obtain ⟨storedSound, -, grown⟩ := put_stored fitted (.inl held) notBefore notAfter put
  simp only [discardPayload, state, reduceCtorEq, or_self, if_false, Except.ok.injEq] at discard
  subst discard
  simp only [Fitted, held] at fitted
  refine ⟨rfl, fun _ => Nat.le_refl _, fun _ listed => listed, rfl, rfl, rfl, fun _ => by simp, fun _ => ?_⟩
  have bounded := config.rbm.bounded
  dsimp only
  rw [window_of_sound storedSound, fitted.2.2, UInt32.toNat_ofNat', UInt32.toNat_ofNat']
  omega

theorem receivePayload_hears (held : s.rcv.rcvbuf ≠ none)
    (done : receivePayload config around segment s = .ok t) :
    Hears 1 s t := by
  rcases receivePayload_cases done with ⟨-, rfl⟩ | ⟨-, stored, inOrder, rfl, outcome⟩
  · exact (Hears.of_view rfl rfl rfl rfl).more (Nat.zero_le _)
  · have heard : Hears 0 s stored := by
      rcases outcome with rfl | ⟨buff, isHeld | ⟨absent, -⟩, notBefore, notAfter, store⟩ | ⟨absent, -⟩
      · exact Hears.of_view rfl rfl rfl rfl
      · exact storePayload_hears state fitted isHeld notBefore notAfter store
      · exact absurd absent held
      · exact absurd absent held
    exact heard.trans (enqueueACK_hears _)

theorem established_hears {received} (held : s.rcv.rcvbuf ≠ none)
    (receive : receivePayload config around segment s = .ok received)
    (ack : segment.flags.ack = true ∧ receiveACK around.curTs segment received = .ok t ∨
      segment.flags.ack = false ∧ t = received) : Hears 1 s t := by
  have heard := receivePayload_hears state fitted held receive
  rcases ack with ⟨-, ack⟩ | ⟨-, rfl⟩
  · exact heard.trans (receiveACK_hears ack)
  · exact heard

end

theorem Answered.hears (answered : Answered config around segment s t)
    (state : s.state = .established) (fitted : Fitted config s) (held : s.rcv.rcvbuf ≠ none)
    (stays : t.state = .established) : Hears 2 s t := by
  have quiet : ∀ {u}, Hears 0 s u → Hears 2 s u := fun hears => hears.more (Nat.zero_le _)
  have absorbed_hears : ∀ {u}, Absorbed config around segment s u → Hears 1 s u := by
    intro u absorbed
    cases absorbed
    case established receive ack => exact established_hears state fitted held receive ack
    all_goals simp_all
  cases answered
  case same | syn => exact quiet (Hears.of_view rfl rfl rfl rfl)
  case absorbed absorbed => exact (absorbed_hears absorbed).more (Nat.le_succ _)
  case gap absorbed => exact (absorbed_hears absorbed).trans (enqueueACK_hears _)
  case closeWait | reset => cases stays
  all_goals simp_all

theorem Validated.hears (validated : Validated s t) (state : s.state = .established) : Hears 1 s t := by
  have queues := congrArg Status.queues validated.status
  rcases validated.lists with same | ⟨opt, same⟩ | ⟨other, -⟩
  · exact (Hears.of_view queues (by rw [same]) (by rw [same]) validated.recvView).more (Nat.zero_le _)
  · have after : Hears 0 (enqueueACK opt s) t :=
      Hears.of_view queues (by rw [same]) (by rw [same]) validated.recvView
    exact (enqueueACK_hears opt).trans after
  · exact absurd state other

theorem processTCPPacket_hears (state : s.state = .established) (fitted : Fitted config s)
    (held : s.rcv.rcvbuf ≠ none) (done : processTCPPacket config around segment s = .ok t)
    (stays : t.state = .established) : Hears 2 s t := by
  obtain ⟨checked, validated, rfl | ⟨lists, answered⟩⟩ :=
    processTCPPacket_settled (by rw [state]; rfl) done
  · exact (validated.hears state).more (Nat.le_succ _)
  · have view := validated.recvView
    have noted : Hears 0 s (noteSegment around.curTs segment checked) := by
      have queues := congrArg Status.queues validated.status
      exact Hears.of_view queues (congrArg Lists.onAckList lists) (congrArg Lists.ackCnt lists) view
    refine noted.trans (answered.hears ?_ (fitted.congr view) (noted.buffered held) stays)
    exact validated.state.trans state

end Hears

section Owes

def AckQueued (s : TcpStream) : Prop := s.queues.onAckq = true → 0 < s.queues.ackq

def Narrow (s : TcpStream) : Prop :=
  s.rcv.rcvWnd.toNat ≤ s.ctl.effMss.toNat ∨ s.rcv.rcvWnd.toNat < 128

structure Rests (s t : TcpStream) : Prop where
  listed : Listed s → Listed t
  queued : 0 < s.queues.ackq → 0 < t.queues.ackq ∨ Listed t
  mss : t.ctl.mss = s.ctl.mss
  effMss : t.ctl.effMss = s.ctl.effMss
  buffered : s.rcv.rcvbuf ≠ none → t.rcv.rcvbuf ≠ none
  owed : s.rcv.needWndAdv = true → Narrow s → 0 < t.queues.ackq ∨ t.rcv.needWndAdv = true ∧ Narrow t

variable {config : Config} {s t : TcpStream}

theorem Still.rests (still : Still s t) (live : t.onHashTable = true) : Rests s t := by
  have view := still.view live
  have acks := still.acks live
  simp only [recvView, RecvView.mk.injEq] at view
  simp only [ackView, AckView.mk.injEq] at acks
  obtain ⟨-, rcvWnd, -, rcvbuf, needed, -, effMss, mss⟩ := view
  obtain ⟨onAckList, ackCnt, ackq, onAckq⟩ := acks
  refine ⟨fun listed => ?_, fun queued => .inl (by rwa [ackq]), mss, effMss,
    fun held => by rwa [rcvbuf], fun owed narrow => .inr ⟨needed.trans owed, ?_⟩⟩
  · simpa only [Listed, onAckList, ackCnt] using listed
  · simpa only [Narrow, rcvWnd, effMss] using narrow

theorem Hears.rests {calls} (hears : Hears calls s t)
    (bound : s.lists.ackCnt.toNat + calls < 64) (held : s.rcv.rcvbuf ≠ none) : Rests s t := by
  refine ⟨hears.listed bound, fun queued => .inl (by rwa [hears.queues]), hears.mss, hears.effMss,
    hears.buffered, fun owed narrow => .inr ⟨hears.needed.trans owed, ?_⟩⟩
  have window := hears.window held
  rcases narrow with below | below
  · exact .inl (by rw [hears.effMss]; omega)
  · exact .inr (by omega)

theorem handleAckq_listed (queued : 0 < s.queues.ackq) : Listed (handleAckq s) := by
  unfold handleAckq
  rw [if_neg (Nat.ne_of_gt queued)]
  refine ⟨rfl, ?_⟩
  simp only [enqueueACK]
  split
  · decide
  · assumption

theorem handleAckq_rests : Rests s (handleAckq s) := by
  by_cases queued : 0 < s.queues.ackq
  · have listed := handleAckq_listed queued
    have rcv : (handleAckq s).rcv = s.rcv ∧ (handleAckq s).ctl = s.ctl := by
      unfold handleAckq
      split <;> exact ⟨rfl, rfl⟩
    refine ⟨fun _ => listed, fun _ => .inr listed, by rw [rcv.2], by rw [rcv.2],
      fun held => by rwa [rcv.1], fun owed narrow => .inr ⟨by rw [rcv.1, owed], ?_⟩⟩
    simpa only [Narrow, rcv.1, rcv.2] using narrow
  · have same : handleAckq s = s := if_pos (Nat.eq_zero_of_not_pos queued)
    rw [same]
    exact ⟨id, .inl, rfl, rfl, id, fun owed narrow => .inr ⟨owed, narrow⟩⟩

theorem mtcpRecv_rests {len} (flagged : AckQueued s) (done : mtcpRecv len s = .ok t) : Rests s t := by
  have same : Rests s s := ⟨id, .inl, rfl, rfl, id, fun owed narrow => .inr ⟨owed, narrow⟩⟩
  unfold mtcpRecv at done
  split at done
  · cases done
    exact same
  · split at done
    · obtain ⟨⟨after, count⟩, -, rest⟩ := bind_ok done
      dsimp only at rest
      split at rest
      · cases rest
        exact ⟨id, fun queued => .inl (Nat.lt_succ_of_lt queued), rfl, rfl, nofun,
          fun _ _ => .inl (Nat.succ_pos _)⟩
      · rename_i unasked
        cases rest
        refine ⟨id, .inl, rfl, rfl, nofun, fun owed _ => ?_⟩
        by_cases queued : s.queues.onAckq = true
        · exact .inl (flagged queued)
        · refine .inr ⟨owed, .inl ?_⟩
          simp only [owed, Bool.eq_false_iff.mpr queued, Bool.true_and, Bool.not_false, Bool.and_true,
            decide_eq_true_eq, UInt32.not_lt, UInt32.le_iff_toNat_le] at unasked
          simpa using unasked
    · cases done
      exact same

variable {listener : Bool}

theorem stepStream_ackQueued {taken} (flagged : s.onHashTable = true → AckQueued s)
    (done : stepStream config listener s taken = .ok t) (live : t.onHashTable = true) : AckQueued t := by
  have kept : Kept s t → AckQueued t := by
    intro kept
    have before := flagged (kept.onHashTable ▸ live)
    rwa [AckQueued, kept.queues]
  cases stepStream_turned done with
  | still still =>
    have acks := still.acks live
    simp only [ackView, AckView.mk.injEq] at acks
    rw [AckQueued, acks.2.2.1, acks.2.2.2]
    exact flagged (still.live live)
  | segment process =>
    rcases processTCPPacket_fate process with ⟨-, queued⟩ | kept' | freed
    · have before := flagged (queued.onHashTable ▸ live)
      rwa [AckQueued, queued.queues]
    · exact kept kept'
    · rw [freed.gone] at live
      cases live
  | writeControl control =>
    rcases writeTCPControlList_fate control with kept' | freed
    · exact kept kept'
    · rw [freed.gone] at live
      cases live
  | writeData data => exact kept (writeTCPDataList_kept data)
  | writeAck => exact kept (writeTCPACKList_kept _ _ s)
  | ackq =>
    unfold handleAckq at live ⊢
    split at live
    · rename_i empty
      rw [if_pos empty]
      exact flagged live
    · rename_i queued
      rw [if_neg queued]
      nofun
  | recv read =>
    unfold mtcpRecv at read
    split at read
    · cases read
      exact flagged live
    · split at read
      · obtain ⟨⟨after, count⟩, -, rest⟩ := bind_ok read
        dsimp only at rest
        split at rest <;> cases rest
        · exact fun _ => Nat.succ_pos _
        · exact flagged live
      · cases read
        exact flagged live

def Sent (wanted : Packet → Prop) (s t : TcpStream) : Prop :=
  ∃ added packet, t.history = added ++ s.history ∧ Action.sent packet ∈ added ∧ wanted packet

def Packet.Opens (packet : Packet) : Prop := packet.flags.ack = true ∧ packet.window ≠ 0

structure Owes (config : Config) (s : TcpStream) : Prop where
  inv : ∃ left, WindowInv config left s
  due : 0 < s.queues.ackq ∨ Listed s ∨ s.rcv.needWndAdv = true ∧ Narrow s
  flagged : AckQueued s
  buffered : s.rcv.rcvbuf ≠ none
  mss : 12 ≤ s.ctl.mss.toNat
  effMss : s.ctl.effMss.toNat < config.rbm.chunkSize

theorem Emits.opens (emits : Emits s t) (moved : t.history ≠ s.history)
    (open_ : windowField s ≠ 0) : Sent Packet.Opens s t := by
  obtain ⟨added, history, all⟩ := emits.history
  cases added with
  | nil => exact absurd history moved
  | cons action rest =>
    have announcing := all action List.mem_cons_self
    cases action with
    | sent packet =>
      refine ⟨_, packet, history, List.mem_cons_self, announcing.1, ?_⟩
      rw [announcing.2]
      exact open_
    | removed | raised | syn | established => exact absurd announcing id

theorem narrow_of_closed (scale : s.ctl.wscaleMine = 7) (closed : windowField s = 0) :
    s.rcv.rcvWnd.toNat < 128 := by
  have zero := windowField_eq_zero_iff.mp closed
  simp only [advertisedWindow, Bool.false_eq_true, if_false, scale] at zero
  have floor : (s.rcv.rcvWnd >>> 7).toNat = s.rcv.rcvWnd.toNat / 128 := by
    simp [UInt32.toNat_shiftRight, Nat.shiftRight_eq_div_pow]
  have nothing : (s.rcv.rcvWnd >>> 7).toNat = 0 := congrArg UInt32.toNat zero
  omega

theorem toAck_of_fitted (state : s.state = .established) (fitted : Fitted config s)
    (held : s.rcv.rcvbuf ≠ none) : toAck s = true := by
  obtain ⟨buff, held⟩ := Option.ne_none_iff_exists'.mp held
  simp only [Fitted, held] at fitted
  simp only [toAck, state, held, fitted.2.1, plus, tcpSeqLeq, UInt32.sub_self]
  decide

theorem Emits.due (emits : Emits s t) (scale : s.ctl.wscaleMine = 7)
    (due : 0 < s.queues.ackq ∨ Listed s ∨ s.rcv.needWndAdv = true ∧ Narrow s) :
    (0 < t.queues.ackq ∨ Listed t ∨ t.rcv.needWndAdv = true ∧ Narrow t) ∨ Sent Packet.Opens s t := by
  have status := emits.steady.status
  replace status := Status.mk.inj status
  have view := emits.view
  simp only [recvView, RecvView.mk.injEq] at view
  obtain ⟨-, rcvWnd, -, -, -, -, effMss, -⟩ := view
  by_cases moved : t.history = s.history
  · refine .inl ?_
    rcases due with queued | listed | ⟨owed, narrow⟩
    · exact .inl (by rwa [status.2.2.2.2.1])
    · exact .inr (.inl (emits.listed moved listed))
    · refine .inr (.inr ⟨emits.needed owed, ?_⟩)
      simpa only [Narrow, rcvWnd, effMss] using narrow
  · by_cases closed : windowField s = 0
    · refine .inl (.inr (.inr ⟨emits.noted closed moved, .inr ?_⟩))
      rw [rcvWnd]
      exact narrow_of_closed scale closed
    · exact .inr (emits.opens moved closed)

section Established

variable {taken : Step} (owes : Owes config s) (state : s.state = .established)
  (counted : taken.isSegment = true → s.lists.ackCnt.toNat < 62)
  (done : stepStream config listener s taken = .ok t) (live : t.onHashTable = true)
  (stays : t.state = .established)
include owes state counted done live stays

theorem established_step : Emits s t ∨ Rests s t := by
  obtain ⟨left, inv⟩ := owes.inv
  have fitted := inv.receiving (by rw [state]; rfl)
  cases stepStream_turned done with
  | still still => exact .inr (still.rests live)
  | segment process =>
    have few := counted rfl
    exact .inr ((processTCPPacket_hears state fitted owes.buffered process stays).rests (by omega)
      owes.buffered)
  | writeControl control => exact .inl (writeTCPControlList_emits state control)
  | writeData data => exact .inl (writeTCPDataList_emits state data)
  | writeAck => exact .inl (writeTCPACKList_emits _ (toAck_of_fitted state fitted owes.buffered))
  | ackq => exact .inr handleAckq_rests
  | recv read => exact .inr (mtcpRecv_rests owes.flagged read)

theorem Owes.step (fits : taken.Fits config) : Owes config t ∨ Sent Packet.Opens s t := by
  obtain ⟨left, inv⟩ := owes.inv
  have after := step_honours fits (fun _ => inv) done live
  have flagged := stepStream_ackQueued (fun _ => owes.flagged) done live
  rcases established_step owes state counted done live stays with emits | rests
  · have view := emits.view
    simp only [recvView, RecvView.mk.injEq] at view
    obtain ⟨-, -, -, rcvbuf, -, -, effMss, mss⟩ := view
    refine (emits.due inv.scale owes.due).imp_left fun due => ?_
    exact ⟨⟨_, after⟩, due, flagged, by rw [rcvbuf]; exact owes.buffered, by rw [mss]; exact owes.mss,
      by rw [effMss]; exact owes.effMss⟩
  · refine .inl ⟨⟨_, after⟩, ?_, flagged, rests.buffered owes.buffered,
      by rw [rests.mss]; exact owes.mss, by rw [rests.effMss]; exact owes.effMss⟩
    rcases owes.due with queued | listed | ⟨owed, narrow⟩
    · rcases rests.queued queued with still | listed
      · exact .inl still
      · exact .inr (.inl listed)
    · exact .inr (.inl (rests.listed listed))
    · rcases rests.owed owed narrow with queued | still
      · exact .inl queued
      · exact .inr (.inr still)

end Established

theorem not_sent {wanted}
    (grows : Grows (fun action => ¬action.IsSent) s.history t.history) : ¬Sent wanted s t := by
  rintro ⟨added, packet, history, member, -⟩
  obtain ⟨other, same, unsent⟩ := grows
  rw [List.append_cancel_right (history.symm.trans same)] at member
  exact unsent _ member trivial

theorem owes_of_emits {left} (emits : Emits s t)
    (closed : Sent (fun packet => packet.window = 0) s t) (inv : WindowInv config left t)
    (flagged : AckQueued t) (state : t.state = .established)
    (effMss : s.ctl.effMss.toNat < config.rbm.chunkSize) : Owes config t := by
  obtain ⟨added, packet, history, member, zero⟩ := closed
  obtain ⟨other, same, all⟩ := emits.history
  have announced := all (.sent packet) (List.append_cancel_right (history.symm.trans same) ▸ member)
  have field : windowField s = 0 := announced.2.symm.trans zero
  have moved : t.history ≠ s.history := by
    intro unmoved
    have length := congrArg List.length (history.symm.trans unmoved)
    simp only [List.length_append] at length
    rw [List.eq_nil_of_length_eq_zero (by omega : added.length = 0)] at member
    cases member
  have view := emits.view
  simp only [recvView, RecvView.mk.injEq] at view
  obtain ⟨-, rcvWnd, -, -, -, scale, effMssSame, mss⟩ := view
  have narrow : t.rcv.rcvWnd.toNat < 128 :=
    rcvWnd ▸ narrow_of_closed (scale.symm.trans inv.scale) field
  refine ⟨⟨left, inv⟩, .inr (.inr ⟨emits.noted field moved, .inr narrow⟩), flagged, fun absent => ?_,
    by rw [mss]; exact emits.mss moved, by rwa [effMssSame]⟩
  have fitted := inv.receiving (by rw [state]; rfl)
  simp only [Fitted, absent] at fitted
  rw [fitted.2] at narrow
  exact absurd narrow (by decide)

theorem owes_of_closed {left taken} (fits : taken.Fits config)
    (inv : WindowInv config left s) (flagged : AckQueued s) (state : s.state = .established)
    (effMss : s.ctl.effMss.toNat < config.rbm.chunkSize)
    (closed : Sent (fun packet => packet.window = 0) s t)
    (done : stepStream config listener s taken = .ok t) (live : t.onHashTable = true)
    (stays : t.state = .established) : Owes config t := by
  have after := step_honours fits (fun _ => inv) done live
  have flaggedAfter := stepStream_ackQueued (fun _ => flagged) done live
  have emitted : Emits s t → Owes config t := fun emits =>
    owes_of_emits emits closed after flaggedAfter stays effMss
  cases stepStream_turned done with
  | still still => exact absurd closed (not_sent still.history)
  | segment process =>
    refine absurd closed (not_sent (processTCPPacket_absorbs ?_ process).history)
    rintro memory rfl
    exact fits
  | writeControl control => exact emitted (writeTCPControlList_emits state control)
  | writeData data => exact emitted (writeTCPDataList_emits state data)
  | @writeAck buffers curTs =>
    cases acks : toAck s with
    | true => exact emitted (writeTCPACKList_emits buffers acks)
    | false =>
      refine absurd closed (not_sent ?_)
      have unsent : (writeTCPACKList buffers curTs s).history = s.history := by
        simp only [writeTCPACKList, serveACKs, acks, Bool.false_eq_true, if_false]
      rw [unsent]
      exact .refl _ _
  | ackq =>
    refine absurd closed (not_sent ?_)
    unfold handleAckq
    split <;> exact .refl _ _
  | recv read => exact absurd closed (not_sent (@mtcpRecv_absorbs config _ _ _ read).history)

def Drained (s : TcpStream) : Prop := ∃ buff, s.rcv.rcvbuf = some buff ∧ buff.mergedLen = 0

theorem Drained.step {taken} (drained : Drained s) (state : s.state = .established)
    (fitted : Fitted config s) (silent : taken.isSegment = false)
    (done : stepStream config listener s taken = .ok t) (live : t.onHashTable = true) : Drained t := by
  have same : t.rcv.rcvbuf = s.rcv.rcvbuf → Drained t := by
    intro same
    rwa [Drained, same]
  have emitted : Emits s t → Drained t := fun emits => same (congrArg RecvView.rcvbuf emits.view)
  cases stepStream_turned done with
  | still still => exact same (congrArg RecvView.rcvbuf (still.view live))
  | segment => cases silent
  | writeControl control => exact emitted (writeTCPControlList_emits state control)
  | writeData data => exact emitted (writeTCPDataList_emits state data)
  | writeAck =>
    obtain ⟨buff, held, -⟩ := drained
    exact emitted (writeTCPACKList_emits _ (toAck_of_fitted state fitted (by rw [held]; nofun)))
  | ackq =>
    refine same ?_
    unfold handleAckq
    split <;> rfl
  | recv read =>
    obtain ⟨buff, held, empty⟩ := drained
    simp only [mtcpRecv, held, empty, Nat.zero_min, Nat.lt_irrefl, and_false, if_false] at read
    exact same (congrArg (fun s : TcpStream => s.rcv.rcvbuf) (Except.ok.inj read)).symm

theorem Drained.window (drained : Drained s) (fitted : Fitted config s) :
    s.rcv.rcvWnd.toNat = config.rbm.chunkSize := by
  obtain ⟨buff, held, empty⟩ := drained
  have bounded := config.rbm.bounded
  simp only [Fitted, held] at fitted
  rw [fitted.2.2, empty, UInt32.toNat_ofNat']
  omega

end Owes

section Liveness

variable {config : Config} {s t : TcpStream} {hosts : Nat → Host} {taken : Nat → Step}

theorem open_of_wide (scale : s.ctl.wscaleMine = 7) (wide : 128 ≤ s.rcv.rcvWnd.toNat) :
    windowField s ≠ 0 := by
  intro closed
  have narrow := narrow_of_closed scale closed
  omega

variable {listener : Bool}

theorem writeAck_opens {taken} (owes : Owes config s) (state : s.state = .established)
    (listed : Listed s) (wide : 128 ≤ s.rcv.rcvWnd.toNat) (service : taken.service = some .writeAck)
    (done : stepStream config listener s taken = .ok t) : Sent Packet.Opens s t := by
  obtain ⟨left, inv⟩ := owes.inv
  have acks := toAck_of_fitted state (inv.receiving (by rw [state]; rfl)) owes.buffered
  cases taken with
  | writeAck buffers curTs =>
    simp only [stepStream, listed.1, if_true] at done
    cases done
    dsimp only [Step.service] at service
    split at service
    · rename_i room
      exact (writeTCPACKList_emits buffers acks).opens
        (writeTCPACKList_sends_one acks listed room owes.mss) (open_of_wide inv.scale wide)
    · cases service
  | writeControl output curTs | writeData buffers curTs =>
    dsimp only [Step.service] at service
    split at service <;> cases service
  | _ => cases service

theorem ackq_lists {taken} (queued : 0 < s.queues.ackq)
    (service : taken.service = some .ackq) (done : stepStream config listener s taken = .ok t) :
    Listed t := by
  cases taken with
  | ackq =>
    cases done
    exact handleAckq_listed queued
  | writeControl output curTs | writeData buffers curTs | writeAck buffers curTs =>
    dsimp only [Step.service] at service
    split at service <;> cases service
  | _ => cases service

def updateService (s : TcpStream) : Option Service :=
  if Listed s then some .writeAck else some .ackq

def updateRank (s : TcpStream) : Nat := if Listed s then 0 else 1

theorem Owes.approaches {taken} (owes : Owes config s) (state : s.state = .established)
    (drained : Drained s) (large : 128 ≤ config.rbm.chunkSize) (silent : taken.isSegment = false)
    (done : stepStream config listener s taken = .ok t) (live : t.onHashTable = true)
    (stays : t.state = .established) (unsent : ¬Sent Packet.Opens s t) :
    updateRank t < updateRank s ∨ updateRank t = updateRank s ∧ updateService t = updateService s ∧
      taken.service ≠ updateService s := by
  obtain ⟨left, inv⟩ := owes.inv
  have window := drained.window (inv.receiving (by rw [state]; rfl))
  have open_ := open_of_wide inv.scale (by omega)
  have step := established_step owes state (fun segment => by rw [silent] at segment; cases segment)
    done live stays
  by_cases listed : Listed s
  · have still : Listed t := by
      rcases step with emits | rests
      · by_cases moved : t.history = s.history
        · exact emits.listed moved listed
        · exact absurd (emits.opens moved open_) unsent
      · exact rests.listed listed
    refine .inr ⟨by simp [updateRank, listed, still], by simp [updateService, listed, still], ?_⟩
    rw [updateService, if_pos listed]
    exact fun service => unsent (writeAck_opens owes state listed (by omega) service done)
  · by_cases now : Listed t
    · exact .inl (by simp [updateRank, listed, now])
    · refine .inr ⟨by simp [updateRank, listed, now], by simp [updateService, listed, now], ?_⟩
      rw [updateService, if_neg listed]
      have queued : 0 < s.queues.ackq := by
        rcases owes.due with queued | isListed | ⟨-, narrow⟩
        · exact queued
        · exact absurd isListed listed
        · have effMss := owes.effMss
          rcases narrow with below | below <;> omega
      exact fun service => now (ackq_lists queued service done)

theorem start_ackQueued {opening host} (done : start config opening = .ok host)
    (live : host.stream.onHashTable = true) : AckQueued host.stream := by
  cases opening with
  | active iss room listener =>
    cases done
    cases room <;> nofun
  | passive iss curTs segment =>
    obtain ⟨stream, process, finish⟩ := bind_ok done
    cases finish
    rcases processTCPPacket_fate process with ⟨state, -⟩ | kept | freed
    · cases state
    · rw [AckQueued, kept.queues]
      nofun
    · rw [freed.gone] at live
      cases live

theorem EndlessRun.window_inv {opening} (endless : EndlessRun config hosts taken)
    (started : start config opening = .ok (hosts 0)) (fits : ∀ time, (taken time).Fits config)
    (time : Nat) : (∃ left, Honours config left (hosts time).stream) ∧
      ((hosts time).stream.onHashTable = true → AckQueued (hosts time).stream) := by
  induction time with
  | zero => exact ⟨⟨0, start_honours started⟩, start_ackQueued started⟩
  | succ time ih =>
    obtain ⟨⟨left, honours⟩, flagged⟩ := ih
    exact ⟨⟨_, step_honours (fits time) honours (endless.stream time)⟩,
      fun live => stepStream_ackQueued flagged (endless.stream time) live⟩

/-- While the stream stays established: after a window of 0, once all data has been read and the
buffer holds more than a segment, an acknowledgment with a window is sent, unless the count of
acknowledgments is about to overflow. -/
theorem zero_window_reopened {opening : Opening} (endless : EndlessRun config hosts taken)
    (started : start config opening = .ok (hosts 0)) (fits : ∀ time, (taken time).Fits config)
    {sent read : Nat} (order : sent < read)
    (stays : ∀ time ≥ sent, (hosts time).stream.onHashTable = true ∧
      (hosts time).stream.state = .established)
    (closed : Sent (fun packet => packet.window = 0) (hosts sent).stream (hosts (sent + 1)).stream)
    (drained : Drained (hosts read).stream) (silent : ∀ time ≥ read, (taken time).isSegment = false)
    (large : 128 ≤ config.rbm.chunkSize)
    (effMss : (hosts sent).stream.ctl.effMss.toNat < config.rbm.chunkSize)
    (counted : ∀ time, sent < time → time < read → (taken time).isSegment = true →
      (hosts time).stream.lists.ackCnt.toNat < 62) :
    ∃ time > sent, Sent Packet.Opens (hosts time).stream (hosts (time + 1)).stream := by
  by_contra never
  have unsent : ∀ time > sent, ¬Sent Packet.Opens (hosts time).stream (hosts (time + 1)).stream :=
    fun time after opens => never ⟨time, after, opens⟩
  have owes : ∀ time > sent, Owes config (hosts time).stream := by
    intro time after
    induction time with
    | zero => exact absurd after (Nat.not_lt_zero _)
    | succ time ih =>
      have now := stays (time + 1) (Nat.le_of_lt after)
      rcases Nat.lt_or_eq_of_le (Nat.le_of_lt_succ after) with later | rfl
      · have counts : (taken time).isSegment = true → (hosts time).stream.lists.ackCnt.toNat < 62 := by
          intro segment
          rcases Nat.lt_or_ge time read with before | beyond
          · exact counted time later before segment
          · rw [silent time beyond] at segment
            cases segment
        exact ((ih later).step (stays time (Nat.le_of_lt later)).2 counts (endless.stream time) now.1
          now.2 (fits time)).resolve_right (unsent time later)
      · obtain ⟨⟨left, honours⟩, flagged⟩ := endless.window_inv started fits sent
        have before := stays sent (Nat.le_refl _)
        exact owes_of_closed (fits sent) (honours before.1) (flagged before.1) before.2 effMss closed
          (endless.stream sent) now.1 now.2
  have fitted : ∀ time > sent, Fitted config (hosts time).stream := by
    intro time after
    obtain ⟨left, inv⟩ := (owes time after).inv
    exact inv.receiving (by rw [(stays time (Nat.le_of_lt after)).2]; rfl)
  have empty : ∀ time ≥ read, Drained (hosts time).stream := by
    intro time after
    obtain ⟨distance, rfl⟩ := Nat.exists_eq_add_of_le after
    induction distance with
    | zero => exact drained
    | succ distance ih =>
      have start := Nat.le_add_right read distance
      exact (ih start).step (stays _ (by omega)).2 (fitted _ (by omega)) (silent _ start)
        (endless.stream _) (stays _ (by omega)).1
  have recurs : ∀ s, Recurs (fun time => (taken time).service) (updateService s) := by
    intro s
    unfold updateService
    split <;> exact endless.fair _
  have approaches : ∀ later ≥ read, ¬False → Approaches (fun _ => False) updateRank updateService
      (hosts later).stream (hosts (later + 1)).stream (taken later).service := by
    intro later after _
    have now := stays (later + 1) (by omega)
    exact .inr ((owes later (by omega)).approaches (stays later (by omega)).2 (empty later after) large
      (silent later after) (endless.stream later) now.1 now.2 (unsent later (by omega)))
  obtain ⟨-, -, reached⟩ := eventually_of_helpful (fun time => (hosts time).stream) (fun _ => False)
    recurs approaches
  exact reached

end Liveness

/-! Runs of which the first steps are given and after which the stack's loop finds nothing to do,
with the receive buffers of `config/mtcp.conf`. -/

def smallConfig : Config :=
  { sampleConfig with rbm := { chunkSize := 256, positive := by decide, bounded := by decide } }

def advanceSmall (host : Host) (taken : Step) : Host :=
  match step smallConfig host taken with
  | .ok next => next
  | .error _ => host

def smallHosts (host : Host) (steps : List Step) : Nat → Host :=
  trace advanceSmall host (thenRounds steps)

theorem thenRounds_mem (steps : List Step) (time : Nat) :
    thenRounds steps time ∈ steps ∨ thenRounds steps time ∈ serviceRound := by
  have all : ∀ place < 14, serviceRound.getD place .rto ∈ serviceRound := by decide
  rcases Nat.lt_or_ge time steps.length with early | late
  · refine .inl ?_
    simp only [thenRounds, List.getD, List.getElem?_eq_getElem early, Option.getD_some]
    exact List.getElem_mem early
  · refine .inr ?_
    rw [thenRounds_late late]
    exact all _ (Nat.mod_lt _ (by decide))

theorem thenRounds_fits {config steps} (given : ∀ taken ∈ steps, taken.Fits config) (time : Nat) :
    (thenRounds steps time).Fits config := by
  have rounds : ∀ taken ∈ serviceRound, taken.Fits config := by simp [serviceRound, Step.Fits]
  rcases thenRounds_mem steps time with member | served
  · exact given _ member
  · exact rounds _ served

theorem smallHosts_follows {host next steps time}
    (done : step smallConfig (smallHosts host steps time) (thenRounds steps time) = .ok next) :
    smallHosts host steps (time + 1) = next := by
  change advanceSmall (smallHosts host steps time) _ = next
  rw [advanceSmall, done]

def opened (mss : UInt16) : Host :=
  match start smallConfig (.passive 0 0 { firstSyn with mssOption := some mss }) with
  | .ok host => host
  | .error _ => { stream := {}, listener := false }

def fullPayload : Segment where
  seq := 1
  ackSeq := 1
  flags := { ack := true }
  window := 65535
  payload := List.replicate 256 0

def filledAndRead : List Step :=
  [.writeControl true 0, .segment 0 none true handshakeAck, .accept true,
    .segment 0 (some (List.replicate 256 0)) true fullPayload, .writeAck 1 0, .recv 256]

def windowClosed : Packet where
  flags := { ack := true }
  seq := 1
  ackSeq := 257
  window := 0
  payload := []
  start := 0

theorem sent_of_cons {wanted packet s t}
    (history : t.history = .sent packet :: s.history) (good : wanted packet) : Sent wanted s t :=
  ⟨[.sent packet], packet, history, List.mem_singleton_self _, good⟩

theorem drained_of_map {s} (empty : s.rcv.rcvbuf.map TcpRingBuffer.mergedLen = some 0) : Drained s := by
  simpa [Drained] using empty

def filledReadAndUpdated : List Step := filledAndRead ++ [.ackq, .writeAck 1 0]

theorem filledReadAndUpdated_rests : ComesToRest smallConfig filledReadAndUpdated
    (smallHosts (opened 200) filledReadAndUpdated) where
  follows := smallHosts_follows
  fine := by decide +kernel
  idle := by decide +kernel

theorem filledReadAndUpdated_fits : ∀ taken ∈ filledReadAndUpdated, taken.Fits smallConfig := by
  simp only [filledReadAndUpdated, filledAndRead, List.cons_append, List.nil_append,
    List.forall_mem_cons, Step.Fits, List.length_replicate]
  simp [smallConfig]

theorem small_mss_reopened :
    ∃ time > 4, Sent Packet.Opens (smallHosts (opened 200) filledReadAndUpdated time).stream
      (smallHosts (opened 200) filledReadAndUpdated (time + 1)).stream := by
  have comes := filledReadAndUpdated_rests
  have established := @ComesToRest.always _ _ _
    (fun host => host.stream.onHashTable = true ∧ host.stream.state = .established) comes 4
    (by decide +kernel) (by decide)
  refine @zero_window_reopened smallConfig _ _ (.passive 0 0 { firstSyn with mssOption := some 200 })
    comes.run (by decide +kernel) (thenRounds_fits filledReadAndUpdated_fits) 4 6 (by decide) established
    (@sent_of_cons _ windowClosed _ _ (by decide +kernel) rfl) (drained_of_map (by decide +kernel))
    ?_ (by decide) (by decide +kernel) ?_
  · intro time after
    rcases Nat.lt_or_ge time 8 with soon | late
    · have all : ∀ time < 8, time ≥ 6 → (thenRounds filledReadAndUpdated time).isSegment = false := by
        decide
      exact all time soon after
    · exact thenRounds_silent late
  · intro time after before
    have isFive : time = 5 := by omega
    rw [isFive]
    nofun

theorem filledAndRead_rests :
    ComesToRest smallConfig filledAndRead (smallHosts (opened 1460) filledAndRead) where
  follows := smallHosts_follows
  fine := by decide +kernel
  idle := by decide +kernel

theorem zero_window_stays_closed :
    EndlessRun smallConfig (smallHosts (opened 1460) filledAndRead) (thenRounds filledAndRead) ∧
      start smallConfig (.passive 0 0 firstSyn) = .ok (smallHosts (opened 1460) filledAndRead 0) ∧
      Sent (fun packet => packet.window = 0) (smallHosts (opened 1460) filledAndRead 4).stream
        (smallHosts (opened 1460) filledAndRead 5).stream ∧
      (∀ time ≥ 4, (smallHosts (opened 1460) filledAndRead time).stream.state = .established) ∧
      thenRounds filledAndRead 5 = .recv 256 ∧
      Drained (smallHosts (opened 1460) filledAndRead 6).stream ∧
      (∀ time ≥ 6, (thenRounds filledAndRead time).isSegment = false) ∧
      ∀ time > 4, ¬Sent Packet.Opens (smallHosts (opened 1460) filledAndRead time).stream
        (smallHosts (opened 1460) filledAndRead (time + 1)).stream := by
  have comes := filledAndRead_rests
  refine ⟨comes.run, by decide +kernel, @sent_of_cons _ windowClosed _ _ (by decide +kernel) rfl, ?_,
    rfl, drained_of_map (by decide +kernel), fun time late => thenRounds_silent late,
    fun time after => ?_⟩
  · exact @ComesToRest.always _ _ _
      (fun host => host.stream.state = .established) comes 4 (by decide +kernel) (by decide)
  · have silent := @ComesToRest.always _ _ _ (fun host => host.stream.history =
      (smallHosts (opened 1460) filledAndRead 5).stream.history) comes 5 (by decide +kernel) (by decide)
    refine not_sent ?_
    rw [silent time after, silent (time + 1) (by omega)]
    exact .refl _ _

end Mcc
