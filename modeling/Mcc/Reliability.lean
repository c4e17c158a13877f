import Mcc.SendSequence

/-!
Which bytes leave the send buffer: only those that have been in a segment sent before and that
the segment which removes them acknowledges.
-/

namespace Mcc

open SerialNumber Grows

def Transmitted (history : List Action) (position : Nat) : Prop :=
  ∃ packet, .sent packet ∈ history ∧ packet.start ≤ position ∧
    position < packet.start + packet.payload.length

def RemovalsRight (iss : UInt32) : List Action → Prop
  | [] => True
  | .removed start count segment :: earlier =>
    (∀ position, start ≤ position → position < start + count →
      segment.flags.ack = true ∧ tcpSeqGt segment.ackSeq (plus (iss + 1) position) ∧
        Transmitted earlier position) ∧ RemovalsRight iss earlier
  | _ :: earlier => RemovalsRight iss earlier

def Removed (history : List Action) (position : Nat) : Prop :=
  ∃ start count segment, .removed start count segment ∈ history ∧ start ≤ position ∧
    position < start + count

def sentEnd : List Action → Nat
  | [] => 0
  | .sent packet :: earlier =>
    if packet.payload = [] then sentEnd earlier
    else max (packet.start + packet.payload.length) (sentEnd earlier)
  | _ :: earlier => sentEnd earlier

def Action.Silent : Action → Prop
  | .sent packet => packet.payload = []
  | _ => True

def Action.Inert : Action → Prop
  | .removed _ _ _ => False
  | action => action.Silent

theorem Action.Inert.silent {action : Action} (inert : action.Inert) : action.Silent := by
  cases action <;> first | exact inert | trivial

theorem Action.IsRaised.inert {action : Action} (raised : action.IsRaised) : action.Inert := by
  cases action <;> trivial

theorem Action.IsBare.inert {action : Action} (bare : action.IsBare) : action.Inert := by
  cases action <;> trivial

variable {older newer : List Action} {position : Nat}

theorem Transmitted.grows {allowed} (sent : Transmitted older position)
    (grows : Grows allowed older newer) : Transmitted newer position := by
  obtain ⟨packet, member, bounds⟩ := sent
  exact ⟨packet, grows.mem member, bounds⟩

theorem Removed.grows {allowed} (removed : Removed older position)
    (grows : Grows allowed older newer) : Removed newer position := by
  obtain ⟨start, count, segment, member, bounds⟩ := removed
  exact ⟨start, count, segment, grows.mem member, bounds⟩

theorem sentEnd_silent (grows : Grows Action.Silent older newer) : sentEnd newer = sentEnd older := by
  refine grows.preserves (P := (sentEnd · = sentEnd older)) (fun action rest silent others => ?_) rfl
  cases action with
  | sent packet => rw [← others, sentEnd, if_pos (show packet.payload = [] from silent)]
  | removed | raised | syn | established => exact others

theorem sentEnd_inert (grows : Grows Action.Inert older newer) : sentEnd newer = sentEnd older :=
  sentEnd_silent (grows.mono fun _ => Action.Inert.silent)

theorem Transmitted.lt_sentEnd {history} (sent : Transmitted history position) :
    position < sentEnd history := by
  obtain ⟨packet, member, above, below⟩ := sent
  induction history with
  | nil => cases member
  | cons action rest ih =>
    rcases List.mem_cons.mp member with rfl | later
    · have filled : packet.payload ≠ [] := by
        intro empty
        rw [empty, List.length_nil] at below
        omega
      rw [sentEnd, if_neg filled]
      omega
    · have earlier := ih later
      cases action with
      | sent other =>
        rw [sentEnd]
        split <;> omega
      | removed | raised | syn | established => exact earlier

variable {iss : UInt32}

theorem removalsRight_inert (grows : Grows Action.Inert older newer)
    (right : RemovalsRight iss older) : RemovalsRight iss newer := by
  refine grows.preserves (fun action rest inert others => ?_) right
  cases action <;> first | exact others | exact inert.elim

variable {count : Nat} {segment : Segment}

theorem removalsRight_removed {start}
    (grows : Grows (fun action => action.IsRaised ∨ action = .removed start count segment)
      older newer) (right : RemovalsRight iss older)
    (fine : ∀ position, start ≤ position → position < start + count →
      segment.flags.ack = true ∧ tcpSeqGt segment.ackSeq (plus (iss + 1) position) ∧
        Transmitted older position) : RemovalsRight iss newer := by
  obtain ⟨added, rfl, allowed⟩ := grows
  induction added with
  | nil => exact right
  | cons action rest ih =>
    have others := ih fun other member => allowed other (List.mem_cons_of_mem _ member)
    rcases allowed action List.mem_cons_self with raised | rfl
    · cases action <;> first | exact others | exact raised.elim
    · refine ⟨fun position above below => ?_, others⟩
      obtain ⟨flagged, covered, sent⟩ := fine position above below
      have longer : Grows (fun _ => True) older (rest ++ older) :=
        ⟨rest, rfl, fun _ _ => trivial⟩
      exact ⟨flagged, covered, sent.grows longer⟩

theorem removalsRight_split {later earlier start}
    (right : RemovalsRight iss (later ++ .removed start count segment :: earlier)) :
    ∀ position, start ≤ position → position < start + count →
      segment.flags.ack = true ∧ tcpSeqGt segment.ackSeq (plus (iss + 1) position) ∧
        Transmitted earlier position := by
  induction later with
  | nil => exact right.1
  | cons action rest ih =>
    apply ih
    cases action <;> first | exact right | exact right.2

structure Reliable (s : TcpStream) : Prop where
  right : RemovalsRight s.seqs.iss s.history
  contiguous : ∀ position < sentEnd s.history, Transmitted s.history position
  place : ∀ buf, s.seqs.sndbuf = some buf → buf.headSeq = plus (s.seqs.iss + 1) buf.removed ∧
    buf.removed + min (buf.ahead s.seqs.sndNxt) buf.len.toNat ≤ sentEnd s.history ∧
    sentEnd s.history ≤ buf.removed + buf.len.toNat ∧
    ∀ position < buf.removed, Removed s.history position
  unsent : s.onHashTable = true → s.seqs.sndbuf = none → sentEnd s.history = 0

structure Calm (s t : TcpStream) : Prop where
  iss : t.seqs.iss = s.seqs.iss
  history : Grows Action.Inert s.history t.history
  kept : t.seqs.sndbuf = none ∧ (t.onHashTable = true → s.onHashTable = true ∧ s.seqs.sndbuf = none) ∨
    t.onHashTable = s.onHashTable ∧ t.seqs.sndbuf = s.seqs.sndbuf ∧ t.seqs.sndNxt = s.seqs.sndNxt

variable {s t : TcpStream}

theorem Reliable.grown (before : Reliable s) (iss : t.seqs.iss = s.seqs.iss)
    (history : Grows Action.Inert s.history t.history)
    (kept : t.seqs.sndbuf = none ∧ (t.onHashTable = true → s.onHashTable = true ∧ s.seqs.sndbuf = none) ∨
      t.onHashTable = s.onHashTable ∧ t.seqs.sndbuf = s.seqs.sndbuf ∧ ∀ buf, s.seqs.sndbuf = some buf →
        buf.removed + min (buf.ahead t.seqs.sndNxt) buf.len.toNat ≤ sentEnd s.history) : Reliable t := by
  have sameEnd := sentEnd_inert history
  refine ⟨?_, ?_, ?_, ?_⟩
  · rw [iss]
    exact removalsRight_inert history before.right
  · intro position below
    rw [sameEnd] at below
    exact (before.contiguous position below).grows history
  · intro buf held
    rcases kept with ⟨absent, -⟩ | ⟨-, sndbuf, place⟩
    · rw [absent] at held
      cases held
    · rw [sndbuf] at held
      obtain ⟨headSeq, -, bound, logged⟩ := before.place buf held
      rw [iss, sameEnd]
      exact ⟨headSeq, place buf held, bound, fun position below => (logged position below).grows history⟩
  · intro live absent
    rw [sameEnd]
    rcases kept with ⟨-, early⟩ | ⟨onHashTable, sndbuf, -⟩
    · exact before.unsent (early live).1 (early live).2
    · exact before.unsent (onHashTable ▸ live) (sndbuf ▸ absent)

theorem Calm.reliable (calm : Calm s t) (before : Reliable s) : Reliable t := by
  refine before.grown calm.iss calm.history (calm.kept.imp_right ?_)
  rintro ⟨live, sndbuf, nxt⟩
  exact ⟨live, sndbuf, fun buf held => nxt ▸ (before.place buf held).2.1⟩

theorem Calm.trans {u} (first : Calm s t) (second : Calm t u) : Calm s u where
  iss := second.iss.trans first.iss
  history := first.history.trans second.history
  kept := by
    rcases second.kept with ⟨absent, early⟩ | ⟨live, sndbuf, nxt⟩
    · refine .inl ⟨absent, fun live => ?_⟩
      obtain ⟨liveBefore, absentBefore⟩ := early live
      rcases first.kept with ⟨-, earlier⟩ | ⟨same, sndbuf, -⟩
      · exact earlier liveBefore
      · exact ⟨same ▸ liveBefore, sndbuf ▸ absentBefore⟩
    · rw [live, sndbuf, nxt]
      exact first.kept

theorem calm_of_seqs (live : t.onHashTable = s.onHashTable) (seqs : t.seqs = s.seqs)
    (history : Grows Action.IsRaised s.history t.history) : Calm s t where
  iss := by rw [seqs]
  history := history.mono fun _ => Action.IsRaised.inert
  kept := .inr ⟨live, by rw [seqs], by rw [seqs]⟩

theorem calm_of_eq (live : t.onHashTable = s.onHashTable) (seqs : t.seqs = s.seqs)
    (history : t.history = s.history) : Calm s t :=
  calm_of_seqs live seqs (history ▸ .refl _ _)

theorem raise_calm (kind : EventKind) (before : Calm s t) : Calm s (raise kind t) :=
  before.trans (calm_of_seqs rfl rfl (raise_grows kind t))

theorem Reliable.raised (kind : EventKind) (before : Reliable s)
    (live : t.onHashTable = s.onHashTable) (seqs : t.seqs = s.seqs)
    (history : t.history = s.history) : Reliable (raise kind t) :=
  (raise_calm kind (calm_of_eq live seqs history)).reliable before

theorem Reliable.destroyed {u} (before : Reliable s) (done : destroyTCPStream t = .ok u)
    (iss : t.seqs.iss = s.seqs.iss) (history : Grows Action.Inert s.history t.history) : Reliable u := by
  unfold destroyTCPStream at done
  split at done <;> cases done
  exact Calm.reliable ⟨iss, history, .inl ⟨rfl, nofun⟩⟩ before

theorem Reliable.bufferless (before : Reliable s) (live : s.onHashTable = true)
    (absent : s.seqs.sndbuf = none) (still : t.seqs.sndbuf = none) (iss : t.seqs.iss = s.seqs.iss)
    (history : Grows Action.Inert s.history t.history) : Reliable t :=
  Calm.reliable ⟨iss, history, .inl ⟨still, fun _ => ⟨live, absent⟩⟩⟩ before

theorem Reliable.moved (before : Reliable s) (iss : t.seqs.iss = s.seqs.iss)
    (live : t.onHashTable = s.onHashTable) (sndbuf : t.seqs.sndbuf = s.seqs.sndbuf)
    (history : Grows Action.Inert s.history t.history)
    (place : ∀ buf, s.seqs.sndbuf = some buf →
      buf.removed + min (buf.ahead t.seqs.sndNxt) buf.len.toNat ≤ sentEnd s.history) : Reliable t :=
  before.grown iss history (.inr ⟨live, sndbuf, place⟩)

theorem dataAck_cases (segment : Segment) (s : TcpStream) :
    segment.ackSeq = dataAck segment s ∨ segment.ackSeq = dataAck segment s + 1 := by
  unfold dataAck
  split
  · exact .inr (by simp)
  · exact .inl rfl

def AckSent (s : TcpStream) (segment : Segment) : Prop :=
  s.seqs.sndbuf ≠ none → tcpSeqLeq (dataAck segment s) (plus (s.seqs.iss + 1) (sentEnd s.history))

variable {buf : TcpSendBuffer}

theorem ack_sent {ack last} (headSeq : buf.headSeq = plus (iss + 1) buf.removed)
    (small : buf.len.toNat ≤ 2 ^ 31 - 4) (inside : buf.ahead ack ≤ buf.len.toNat)
    (above : buf.removed ≤ last) (below : last ≤ buf.removed + buf.len.toNat)
    (sent : tcpSeqLeq ack (plus (iss + 1) last)) : buf.removed + buf.ahead ack ≤ last := by
  have position : ack = plus (iss + 1) (buf.removed + buf.ahead ack) := by
    rw [← plus_plus, ← headSeq]
    exact (plus_toNat_sub buf.headSeq ack).symm
  unfold tcpSeqLeq at sent
  rw [position, signed_plus_sub_plus (iss + 1) (by omega) (by omega)] at sent
  omega

theorem ack_covers (headSeq : buf.headSeq = plus (s.seqs.iss + 1) buf.removed)
    (small : buf.len.toNat ≤ 2 ^ 31 - 4) (inside : buf.ahead (dataAck segment s) ≤ buf.len.toNat)
    (above : buf.removed ≤ position) (below : position < buf.removed + buf.ahead (dataAck segment s)) :
    tcpSeqGt segment.ackSeq (plus (s.seqs.iss + 1) position) := by
  have data : dataAck segment s =
      plus (s.seqs.iss + 1) (buf.removed + buf.ahead (dataAck segment s)) := by
    rw [← plus_plus, ← headSeq]
    exact (plus_toNat_sub buf.headSeq _).symm
  unfold tcpSeqGt
  generalize buf.ahead (dataAck segment s) = count at inside below data
  rcases dataAck_cases segment s with same | next
  · rw [same, data, signed_plus_sub_plus _ (by omega) (by omega)]
    omega
  · have one : plus (s.seqs.iss + 1) (buf.removed + count) + 1 =
        plus (s.seqs.iss + 1) (buf.removed + count + 1) := plus_add_word _ _ 1
    rw [next, data, one, signed_plus_sub_plus _ (by omega) (by omega)]
    omega

variable {curTs : UInt32}

theorem receiveACK_reliable (inv : SendInv s.sendView) (before : Reliable s)
    (orderly : AckOrderly s segment) (flagged : segment.flags.ack = true) (sent : AckSent s segment)
    (done : receiveACK curTs segment s = .ok t) : Reliable t := by
  rcases receiveACK_cases done with rfl | ⟨buf, fast, held, inside, acked⟩
  · exact before
  have ordered : Ordered buf s.seqs := inv.ordered buf held
  have small := ordered.len_lt
  obtain ⟨headSeq, reached, bound, logged⟩ := before.place buf held
  have comparable := (orderly buf held).1
  have resend := orderly.resend held acked
  have history := acked.history
  have seqs := acked.seqs
  have recorded := acked.recorded
  have sameEnd : sentEnd t.history = sentEnd s.history :=
    sentEnd_silent (history.mono fun action allowed => by
      rcases allowed with raised | rfl
      · exact raised.inert.silent
      · trivial)
  have after : ∀ remaining, remaining = ackedBuffer (dataAck segment s) buf →
      (∀ position, buf.removed ≤ position → position < remaining.removed →
        tcpSeqGt segment.ackSeq (plus (s.seqs.iss + 1) position) ∧
          Transmitted s.history position ∧ Removed t.history position) →
      remaining.headSeq = plus (s.seqs.iss + 1) remaining.removed →
      remaining.removed + min (remaining.ahead t.seqs.sndNxt) remaining.len.toNat ≤
        sentEnd s.history →
      remaining.removed + remaining.len.toNat = buf.removed + buf.len.toNat → Reliable t := by
    rintro remaining rfl fine headAfter placed sameLast
    refine ⟨?_, ?_, ?_, ?_⟩
    · rw [seqs]
      refine removalsRight_removed history before.right fun position above below => ?_
      obtain ⟨covered, transmitted, -⟩ := fine position above (by omega)
      exact ⟨flagged, covered, transmitted⟩
    · intro position below
      rw [sameEnd] at below
      exact (before.contiguous position below).grows history
    · intro other isOther
      have same : t.seqs.iss = s.seqs.iss := by rw [seqs]
      rw [show t.seqs.sndbuf = some (ackedBuffer (dataAck segment s) buf) by rw [seqs]] at isOther
      cases isOther
      rw [same, sameEnd]
      refine ⟨headAfter, placed, by omega, fun position below => ?_⟩
      rcases Nat.lt_or_ge position buf.removed with earlier | later
      · exact (logged position earlier).grows history
      · exact (fine position later below).2.2
    · intro _ absent
      rw [seqs] at absent
      cases absent
  rcases acked_cases ordered inside comparable resend with
    ⟨positive, within, buffer, una, nxt⟩ | ⟨old, buffer, una, nxt⟩
  · obtain ⟨-, valid, head, -, len, cumLen, -⟩ := sbRemove_spec ordered.valid positive within
    rw [← buffer] at valid head len cumLen
    have counted := ordered.valid.counted
    have removed : (ackedBuffer (dataAck segment s) buf).removed =
        buf.removed + buf.ahead (dataAck segment s) := by
      unfold TcpSendBuffer.removed
      omega
    have reach := ack_sent headSeq small within (by omega) bound (sent (by rw [held]; nofun))
    have fresh : ¬tcpSeqGeq buf.headSeq (dataAck segment s) := by
      rw [tcpSeqGeq_head]
      omega
    refine after _ rfl (fun position above below => ?_) ?_ ?_ (by omega)
    · rw [removed] at below
      refine ⟨ack_covers headSeq small within above below,
        before.contiguous position (by omega), _, _, _, recorded fresh, above, ?_⟩
      omega
    · rw [head, headSeq, plus_plus, removed]
    · rw [seqs]
      dsimp only
      rcases nxt with resumed | ⟨-, kept, beyond⟩
      · rw [resumed, ahead_removed head (Nat.le_refl _)]
        omega
      · rw [kept, ahead_removed head beyond]
        omega
  · refine after _ rfl (fun position above below => ?_) ?_ ?_ ?_
    all_goals rw [buffer] at *
    · omega
    · exact headSeq
    · rw [seqs]
      dsimp only
      rcases nxt with ⟨-, kept⟩ | ⟨-, back⟩
      · rw [kept]
        exact reached
      · rw [back]
        rcases ordered.una with atHead | ⟨-, empty, -⟩
        · omega
        · rw [empty]
          simp only [UInt32.reduceToNat]
          omega

theorem Received.calm (received : Received s t) : Calm s t := by
  have status := received.status
  replace status := Status.mk.inj status
  exact calm_of_seqs status.2.2.2.1 received.seqs received.history

theorem Validated.calm (validated : Validated s t) : Calm s t := by
  have status := validated.status
  replace status := Status.mk.inj status
  exact calm_of_eq status.2.2.2.1 validated.seqs validated.history

/-- What the removal of bytes relies on when a segment comes: in `CLOSE_WAIT` it carries the ACK
flag, and a segment with ACK or SYN acknowledges only bytes that have been sent. -/
structure SafeRemoval (s : TcpStream) (segment : Segment) : Prop where
  flagged : s.state = .closeWait → segment.flags.ack = true
  sent : segment.flags.ack = true ∨ segment.flags.syn = true → AckSent s segment

theorem AckSent.congr (sent : AckSent s segment) (same : SameAck segment s t)
    (sameEnd : sentEnd t.history = sentEnd s.history) : AckSent t segment := by
  unfold AckSent
  rw [same.data, same.seqs, sameEnd]
  exact sent

variable {config : Config} {around : Surroundings}

theorem timer_calm (done : updateRetransmissionTimer curTs s = .ok t) : Calm s t := by
  obtain ⟨-, tsRto, rfl⟩ := updateRetransmissionTimer_form done
  exact calm_of_eq rfl rfl rfl

theorem Reliable.emptied (before : Reliable s) (iss : t.seqs.iss = s.seqs.iss)
    (live : t.onHashTable = s.onHashTable) (sndbuf : t.seqs.sndbuf = s.seqs.sndbuf)
    (history : t.history = s.history) (empty : ∀ buf, s.seqs.sndbuf = some buf → buf.len = 0) :
    Reliable t := by
  refine before.moved iss live sndbuf (history ▸ .refl _ _) fun buf held => ?_
  have reached := (before.place buf held).2.1
  rw [empty buf held] at *
  simp only [UInt32.reduceToNat] at *
  omega

section

variable (inv : SendInv s.sendView) (before : Reliable s) (safe : SafeSegment s segment)
  (removal : SafeRemoval s segment)
include inv before safe removal

theorem Absorbed.reliable (absorbed : Absorbed config around segment s t) : Reliable t := by
  cases absorbed
  case established state receive ack =>
    have payload := (receivePayload_spec receive).1
    have receivedOk := payload.calm.reliable before
    rcases ack with ⟨flagged, ack⟩ | ⟨-, rfl⟩
    · have same := @Received.sameAck _ _ segment payload state
      exact receiveACK_reliable (payload.sendInv inv) receivedOk ((safe.ack (.inl flagged)).congr same)
        flagged ((removal.sent (.inl flagged)).congr same (sentEnd_inert payload.calm.history)) ack
    · exact receivedOk
  case acked state ack =>
    have flagged : segment.flags.ack = true := state.elim removal.flagged And.left
    exact receiveACK_reliable inv before (safe.ack (.inl flagged)) flagged
      (removal.sent (.inl flagged)) ack
  case finWait1 acked state flagged ack receive =>
    have orderly := safe.ack (.inl flagged)
    have ackedOk := receiveACK_reliable inv before orderly flagged (removal.sent (.inl flagged)) ack
    refine (receivePayload_spec receive).1.calm.reliable ?_
    unfold finAcked
    split
    · rename_i last
      exact ackedOk.emptied rfl rfl rfl rfl (fin_acked inv (.inl state) orderly ack last.1 last.2)
    · exact ackedOk
  case finWait2 state flagged ack receive =>
    refine (receivePayload_spec receive).1.calm.reliable ?_
    exact receiveACK_reliable inv before (safe.ack (.inl flagged)) flagged
      (removal.sent (.inl flagged)) ack

theorem synTaken_reliable (state : s.state = .established) (isSyn : segment.flags.syn = true) :
    Reliable { s with seqs := { s.seqs with sndNxt := segment.ackSeq } } := by
  have inWindow := safe.syn state isSyn
  refine before.moved rfl rfl rfl (.refl _ _) fun buf held => ?_
  rw [held] at inWindow
  obtain ⟨headSeq, reached, bound, -⟩ := before.place buf held
  have inside : buf.ahead segment.ackSeq ≤ buf.len.toNat := UInt32.le_iff_toNat_le.mp inWindow
  have ack : dataAck segment s = segment.ackSeq := by simp [dataAck, state]
  have limit := removal.sent (.inr isSyn) (by simp [held])
  rw [ack] at limit
  have reach := ack_sent headSeq (inv.ordered buf held).len_lt inside (by omega) bound limit
  change buf.removed + min (buf.ahead segment.ackSeq) buf.len.toNat ≤ _
  omega

theorem Answered.reliable (answered : Answered config around segment s t) : Reliable t := by
  cases answered
  case same => exact before
  case control => exact { before with }
  case syn state isSyn =>
    exact { synTaken_reliable inv before safe removal state isSyn with }
  case absorbed absorbed => exact absorbed.reliable inv before safe removal
  case gap absorbed | unsettled absorbed | closing absorbed _ | bothFins absorbed _ |
      finLate absorbed _ _ => exact { absorbed.reliable inv before safe removal with }
  case closeWait state receive ack =>
    have acked := (Absorbed.established state receive ack).reliable inv before safe removal
    exact acked.raised .read rfl rfl rfl
  case lastAcked state flagged ack _ timer destroy =>
    have acked := receiveACK_reliable inv before (safe.ack (.inl flagged)) flagged
      (removal.sent (.inl flagged)) ack
    have calm := timer_calm timer
    exact acked.destroyed destroy calm.iss calm.history
  case timeWait state flagged ack receive =>
    have received := (Absorbed.finWait2 state flagged ack receive).reliable inv before safe removal
    exact { received with }
  case closingAcked acked _ state flagged ack isSent last timer =>
    have orderly := safe.ack (.inl flagged)
    have ackedOk := receiveACK_reliable inv before orderly flagged (removal.sent (.inl flagged)) ack
    have movedOk : Reliable { acked with seqs := { acked.seqs with
        sndUna := segment.ackSeq
        sndNxt := segment.ackSeq } } :=
      ackedOk.emptied rfl rfl rfl rfl (fin_acked inv (.inr state) orderly ack isSent last)
    exact { (timer_calm timer).reliable movedOk with }
  case waited =>
    unfold handleTimeWait
    split <;> exact { before with }
  case resetClosing destroy => exact before.destroyed destroy rfl (.refl _ _)
  case reset => exact before.raised .close rfl rfl rfl

end

theorem Ended.reliable {u} (before : Reliable s) (ended : Ended t u)
    (live : t.onHashTable = s.onHashTable) (seqs : t.seqs = s.seqs)
    (history : t.history = s.history) : Reliable u := by
  rcases ended with ⟨-, rfl⟩ | ⟨-, destroy⟩
  · exact before.raised .error live seqs history
  · exact before.destroyed destroy (by rw [seqs]) (history ▸ .refl _ _)

theorem Watched.reliable (watched : Watched s t) (before : Reliable s) : Reliable t := by
  rcases watched with rfl | rfl
  · exact before
  · exact { before with }

theorem completeActiveOpen_reliable (before : Reliable s) (live : s.onHashTable = true)
    (absent : s.seqs.sndbuf = none) (done : completeActiveOpen config around segment s = .ok t) :
    Reliable t := by
  obtain ⟨opened, opens, finish⟩ := completeActiveOpen_cases done
  have openedOk : Reliable opened := by
    refine before.bufferless live absent ?_ ?_ ?_
    · rw [opens.seqs]
      exact absent
    · rw [opens.seqs]
    · rw [opens.history]
      exact (cons trivial _).trans (cons trivial _)
  rcases finish with ⟨-, watched⟩ | ⟨-, destroy⟩
  · have raised : Reliable (raise .write opened) := openedOk.raised .write rfl rfl rfl
    exact watched.reliable { raised with }
  · exact openedOk.destroyed destroy rfl (.refl _ _)

theorem completePassiveOpen_reliable (before : Reliable s) (live : s.onHashTable = true)
    (absent : s.seqs.sndbuf = none) (done : completePassiveOpen config around segment s = .ok t) :
    Reliable t := by
  have opened : Reliable (passiveOpened segment s) :=
    before.bufferless live absent absent rfl (cons trivial _)
  rcases completePassiveOpen_cases done with watched | watched <;>
    exact watched.reliable { opened with }

theorem Handled.reliable (handled : Handled config around segment s t) (inv : SendInv s.sendView)
    (before : Reliable s) (handshake : Handshake True s) (opening : s.state.opening = true)
    (live : s.onHashTable = true) : Reliable t := by
  obtain ⟨absent, -, -⟩ := inv.early opening
  have moved : Reliable (oneAcked s) := before.bufferless live absent absent rfl (.refl _ _)
  cases handled
  case same => exact before
  case answered settled _ => exact Bool.noConfusion (opening.symm.trans settled)
  case listen state => exact absurd state handshake.opened
  case simultaneous | synAgain => exact before.bufferless live absent absent rfl (cons trivial _)
  case synResent => exact before.bufferless live absent absent rfl (.refl _ _)
  case synAcked => exact moved
  case synReset ended => exact ended.reliable moved rfl rfl rfl
  case active complete => exact completeActiveOpen_reliable moved live absent complete
  case passive complete => exact completePassiveOpen_reliable before live absent complete
  case passiveData opened state acked complete established answered =>
    obtain ⟨openedInv, noBuffer, nxt, -⟩ :=
      completePassiveOpen_sendInv inv state live (handshake.synRcvd state).1 acked complete
    refine answered.reliable openedInv (completePassiveOpen_reliable before live absent complete)
      (SafeSegment.of_bufferless established noBuffer nxt) ⟨fun waits => ?_, fun _ held => ?_⟩
    · rw [established] at waits
      cases waits
    · exact absurd noBuffer held
  case resetOpening destroy => exact before.destroyed destroy rfl (.refl _ _)

theorem SafeRemoval.congr (safe : SafeRemoval s segment) (state : t.state = s.state)
    (seqs : t.seqs = s.seqs) (history : t.history = s.history) : SafeRemoval t segment where
  flagged waiting := safe.flagged (state ▸ waiting)
  sent reads := by
    unfold AckSent
    rw [show dataAck segment t = dataAck segment s by simp [dataAck, state, seqs], seqs, history]
    exact safe.sent reads

theorem processTCPPacket_reliable (inv : SendInv s.sendView) (before : Reliable s)
    (handshake : Handshake True s) (live : s.onHashTable = true) (safe : SafeSegment s segment)
    (removal : SafeRemoval s segment) (done : processTCPPacket config around segment s = .ok t) :
    Reliable t := by
  cases opening : s.state.opening with
  | true =>
    have noted : Reliable (noteSegment around.curTs segment s) := { before with }
    exact (processTCPPacket_opening opening done).reliable inv noted handshake.noted opening live
  | false =>
    obtain ⟨checked, validated, rfl | ⟨-, answered⟩⟩ := processTCPPacket_settled opening done
    · exact validated.calm.reliable before
    · have checkedInv : SendInv checked.sendView := validated.sendView ▸ inv
      have checkedOk := validated.calm.reliable before
      refine answered.reliable ?_ ?_ ?_ ?_
      · exact checkedInv
      · exact { checkedOk with }
      · exact safe.congr validated.state validated.seqs validated.dupAcks validated.lastAckSeq
      · exact removal.congr validated.state validated.seqs validated.history

theorem Reliable.rewound (before : Reliable s) (inv : SendInv s.sendView)
    (seqs : t.seqs = { s.seqs with sndNxt := s.seqs.sndUna }) (live : t.onHashTable = s.onHashTable)
    (history : t.history = s.history) : Reliable t := by
  refine before.moved (by rw [seqs]) live (by rw [seqs]) (history ▸ .refl _ _) fun buf held => ?_
  obtain ⟨-, reached, -, -⟩ := before.place buf held
  rw [seqs]
  have una := (inv.ordered buf held).una
  change buf.ahead s.seqs.sndUna = 0 ∨ _ ∧ buf.len = 0 ∧ _ at una
  dsimp only
  rcases una with atHead | ⟨-, empty, -⟩
  · omega
  · rw [empty] at *
    simp only [UInt32.reduceToNat] at *
    omega

def FinLast (s : TcpStream) : Prop :=
  (controlFlags s).fin = true → controlDeferred s = false →
    ∀ buf, s.seqs.sndbuf = some buf → buf.len ≤ s.seqs.sndNxt - buf.headSeq

theorem controlSent_history (curTs : UInt32) (s : TcpStream) :
    Grows Action.Inert s.history (controlSent curTs s).history := by
  have same : (controlBase (removeFromControlList s)).history = s.history := by
    unfold controlBase
    split <;> rfl
  rw [← same]
  refine cons ?_ _
  rfl

theorem controlSent_same (curTs : UInt32) (s : TcpStream) :
    (controlSent curTs s).onHashTable = s.onHashTable ∧ (controlSent curTs s).seqs.iss = s.seqs.iss ∧
      (controlSent curTs s).seqs.sndbuf = s.seqs.sndbuf := by
  have view := controlSent_view curTs s
  refine ⟨congrArg SendView.live view, ?_, ?_⟩
  all_goals
    rw [controlSent_seqs]
    unfold controlBase
    split <;> rfl

theorem opening_of_syn (syn : (controlFlags s).syn = true) : s.state.opening = true := by
  cases state : s.state
  case synSent | synRcvd | listen => rfl
  case closing =>
    simp only [controlFlags, state] at syn
    split at syn <;> cases syn
  all_goals
    simp only [controlFlags, state] at syn
    cases syn

theorem controlSent_reliable (inv : SendInv s.sendView) (before : Reliable s) (safe : FinLast s)
    (ready : controlDeferred s = false) : Reliable (controlSent curTs s) := by
  obtain ⟨live, iss, sndbuf⟩ := controlSent_same curTs s
  refine before.moved iss live sndbuf (controlSent_history curTs s) fun buf held => ?_
  obtain ⟨-, reached, -, -⟩ := before.place buf held
  have settled : s.state.opening ≠ true := by
    intro opening
    rw [show s.seqs.sndbuf = none from (inv.early opening).1] at held
    cases held
  have noSyn : (controlFlags s).syn = false := Bool.eq_false_iff.mpr fun syn =>
    settled (opening_of_syn syn)
  have other : s.state ≠ .synRcvd := fun received => settled (by rw [received]; rfl)
  cases fin : (controlFlags s).fin with
  | true =>
    have all : buf.len.toNat ≤ buf.ahead s.seqs.sndNxt :=
      UInt32.le_iff_toNat_le.mp (safe fin ready buf held)
    omega
  | false =>
    rw [controlSent_seqs, controlBase, if_neg other]
    simpa [phantomLength, noSyn, fin] using reached

theorem writeTCPControlList_reliable {output} (inv : SendInv s.sendView)
    (before : Reliable s) (safe : FinLast s) (done : writeTCPControlList output curTs s = .ok t) :
    Reliable t := by
  have early : s.state = .synRcvd → s.seqs.sndbuf = none := by
    intro received
    exact (inv.early (by rw [show s.sendView.state = _ from received]; rfl)).1
  have based : Reliable (controlBase s) := by
    unfold controlBase
    split
    · rename_i received
      refine before.moved rfl rfl rfl (.refl _ _) fun buf held => ?_
      rw [early received] at held
      cases held
    · exact before
  rcases writeTCPControlList_cases done with
    ⟨-, rfl⟩ | ⟨-, ⟨-, rfl⟩ | ⟨ready, ⟨-, rfl⟩ | ⟨-, -, ⟨-, rfl⟩ | ⟨closed, destroy⟩⟩⟩⟩
  · exact { before with }
  · exact { before with }
  · exact { based with }
  · exact controlSent_reliable inv before safe ready
  · exact before.destroyed destroy (controlSent_same curTs s).2.1 (controlSent_history curTs s)

theorem Reliable.sent {payload} (before : Reliable s) (inv : SendInv s.sendView)
    (held : s.seqs.sndbuf = some buf) (room : buf.ahead s.seqs.sndNxt + count ≤ buf.len.toNat)
    (length : payload.length = count) :
    Reliable (handOver curTs { ack := true } false payload count s) := by
  obtain ⟨headSeq, reached, bound, logged⟩ := before.place buf held
  have ordered : Ordered buf s.seqs := inv.ordered buf held
  obtain ⟨-, next⟩ := ordered.sent room
  obtain ⟨packet, isPacket⟩ : ∃ p, p = packetOf { ack := true } false payload s := ⟨_, rfl⟩
  have start : packet.start = buf.removed + buf.ahead s.seqs.sndNxt := by
    rw [isPacket]
    simp [packetOf, bytePosition, held, packetSeq, TcpSendBuffer.ahead]
  have body : packet.payload.length = count := by
    rw [isPacket]
    exact length
  have history : (handOver curTs { ack := true } false payload count s).history =
      .sent packet :: s.history := by
    rw [isPacket]
    rfl
  have seqs : (handOver curTs { ack := true } false payload count s).seqs =
      { s.seqs with sndNxt := s.seqs.sndNxt + UInt32.ofNat count } :=
    congrArg SendView.seqs (handOver_view curTs payload count s)
  have grows : Grows (fun _ => True) s.history (.sent packet :: s.history) := cons trivial _
  have newEnd : sentEnd (.sent packet :: s.history) =
      max (buf.removed + buf.ahead s.seqs.sndNxt + count) (sentEnd s.history) := by
    rw [sentEnd]
    split
    · rename_i empty
      rw [empty] at body
      simp only [List.length_nil] at body
      omega
    · rw [start, body]
  refine ⟨?_, ?_, ?_, ?_⟩
  · rw [history, seqs]
    exact before.right
  · rw [history, newEnd]
    intro position below
    rcases Nat.lt_or_ge position (sentEnd s.history) with earlier | later
    · exact (before.contiguous position earlier).grows grows
    · exact ⟨packet, List.mem_cons_self, by omega, by omega⟩
  · intro other isOther
    rw [seqs] at isOther
    obtain rfl : buf = other := by simpa [held] using isOther
    rw [history, seqs, newEnd]
    dsimp only
    rw [next]
    exact ⟨headSeq, by omega, by omega, fun position below => (logged position below).grows grows⟩
  · intro _ absent
    rw [seqs] at absent
    rw [show s.seqs.sndbuf = none from absent] at held
    cases held

theorem flushPass_reliable {output result} (before : Reliable s)
    (inv : SendInv s.sendView) (done : flushPass output curTs s = .ok result) : Reliable result.1 := by
  obtain ⟨buf, held⟩ := flushPass_held done
  obtain ⟨inside, ⟨rfl, -⟩ | rfl | rfl | ⟨count, -, -, short, supply, rfl⟩⟩ :=
    flushPass_cases held done
  · exact before
  · exact before
  · exact { before with }
  · refine before.sent inv held (flush_room inside short) ?_
    rw [List.length_take]
    omega

theorem writeTCPACKList_reliable (buffers : Nat) (curTs : UInt32) (before : Reliable s) :
    Reliable (writeTCPACKList buffers curTs s) := by
  have served := serveACKs_served buffers curTs s
  have status := served.status
  replace status := Status.mk.inj status
  have calm : Calm s (serveACKs buffers curTs s) :=
    ⟨by rw [served.seqs], served.history.mono fun _ => Action.IsBare.inert,
      .inr ⟨status.2.2.2.1, by rw [served.seqs], by rw [served.seqs]⟩⟩
  exact { calm.reliable before with }

theorem Reliable.written {after} (before : Reliable s)
    (seqs : t.seqs = { s.seqs with sndbuf := some after }) (history : t.history = s.history)
    (headSeq : after.headSeq = plus (s.seqs.iss + 1) after.removed)
    (reached : after.removed + min (after.ahead s.seqs.sndNxt) after.len.toNat ≤ sentEnd s.history)
    (bound : sentEnd s.history ≤ after.removed + after.len.toNat)
    (logged : ∀ position < after.removed, Removed s.history position) : Reliable t := by
  refine ⟨?_, ?_, ?_, ?_⟩
  · rw [seqs, history]
    exact before.right
  · rw [history]
    exact before.contiguous
  · intro buf held
    rw [seqs] at held
    cases held
    rw [seqs, history]
    exact ⟨headSeq, reached, bound, logged⟩
  · intro _ absent
    rw [seqs] at absent
    cases absent

theorem written_reliable {chunk data after sndlen} (inv : SendInv s.sendView) (before : Reliable s)
    (fits : (Step.write chunk data).Fits config) (writable : s.state.writable = true)
    (held : s.socket = true) (source : s.seqs.sndbuf = some buf ∨ s.seqs.sndbuf = none ∧
      ∃ memory, chunk = some memory ∧ buf = sbInit config.sbm memory (s.seqs.iss + 1))
    (positive : 0 < sndlen) (supply : sndlen ≤ data.length)
    (put : sbPut buf data sndlen = .ok (after, sndlen))
    (seqs : t.seqs = { s.seqs with sndbuf := some after }) (history : t.history = s.history) :
    Reliable t := by
  have ordered := source_ordered inv fits writable held source
  obtain ⟨live, notSent, fresh⟩ := inv.unfinished writable held
  obtain ⟨-, head, longer, removed⟩ := sbPut_whole ordered.valid positive supply put
  have ahead : after.ahead s.seqs.sndNxt = buf.ahead s.seqs.sndNxt := by
    rw [TcpSendBuffer.ahead, head]
    rfl
  rcases source with present | ⟨absent, memory, rfl, rfl⟩
  · have nxtLe := ordered.nxt_le
    rw [show s.seqs.isFinSent = false from notSent] at nxtLe
    simp only [Bool.toNat_false] at nxtLe
    obtain ⟨headSeq, reached, bound, logged⟩ := before.place buf present
    refine before.written seqs history ?_ ?_ ?_ ?_
    · rw [head, removed, headSeq]
    · rw [ahead, removed]
      omega
    · omega
    · rw [removed]
      exact logged
  · have nxt : s.seqs.sndNxt = s.seqs.iss + 1 := (fresh absent).1
    have nothing := before.unsent live absent
    have start : after.removed = 0 := removed
    have first : after.headSeq = s.seqs.iss + 1 := head
    refine before.written seqs history ?_ ?_ ?_ ?_
    · rw [start, first, plus_zero]
    · rw [start, nothing, TcpSendBuffer.ahead, first, nxt]
      simp
    · omega
    · omega

def SafeRelease (s : TcpStream) : Step → Prop
  | .segment _ _ _ segment => SafeRemoval s segment
  | .writeControl _ _ => FinLast s
  | _ => True

theorem stepStream_reliable {listener taken} (inv : SendInv s.sendView)
    (before : Reliable s) (handshake : Handshake True s) (fits : taken.Fits config)
    (safe : SafeSend s taken) (release : SafeRelease s taken)
    (done : stepStream config listener s taken = .ok t) : Reliable t := by
  have final : ∀ {later : TcpStream}, later.onHashTable = s.onHashTable →
      later.seqs = { s.seqs with fss := finalSequence s.seqs } → later.history = s.history →
      Reliable later := by
    intro later live seqs history
    refine Calm.reliable ⟨?_, history ▸ .refl _ _, .inr ⟨live, ?_, ?_⟩⟩ before
    all_goals rw [seqs]
  cases stepStream_stepped done
  case segment live done => exact processTCPPacket_reliable inv before handshake live safe release done
  case rtoUnopened destroy | rtoReset destroy | timewaitExpire destroy | closeqReset destroy |
      resetqReset destroy | destroyq destroy =>
    exact before.destroyed destroy rfl (.refl _ _)
  case rtoLost ended | rtoFailed ended | connectionTimeout ended =>
    exact ended.reliable before rfl rfl rfl
  case rtoData | rtoFinData | rtoFin | rtoSyn => exact before.rewound inv rfl rfl rfl
  case writeControl done => exact writeTCPControlList_reliable inv before release done
  case writeData done =>
    refine (@writeTCPDataList_preserves s t _ (fun u => Reliable u ∧ SendInv u.sendView) _
      (fun sending now passed => ?_) (fun now => ?_) ⟨before, inv⟩ done).1
    · exact ⟨flushPass_reliable now.1 now.2 passed,
        flushPass_sendInv now.2 (settled_of_sending sending) passed⟩
    · exact ⟨{ now.1 with }, now.2.unlisted⟩
  case writeAck => exact writeTCPACKList_reliable _ _ before
  case closeqTaken | closeqDeferred | closeqWaiting | closeqControl => exact final rfl rfl rfl
  case written held state source positive supply put moved =>
    exact written_reliable inv before fits (writable_of_state state) held source positive supply put
      rfl rfl
  case recv done =>
    rcases mtcpRecv_cases done with rfl | ⟨rcv, -, rfl | rfl⟩ <;> exact { before with }
  all_goals exact { before with }

def SafeReleaseStep (config : Config) (host : Host) (taken : Step) : Prop :=
  SafeSendStep config host taken ∧ SafeRelease host.stream taken

theorem step_reliable {host next taken}
    (inv : (Handshake True host.stream ∧ SendInv host.stream.sendView) ∧ Reliable host.stream)
    (safe : SafeReleaseStep config host taken) (done : step config host taken = .ok next) :
    (Handshake True next.stream ∧ SendInv next.stream.sendView) ∧ Reliable next.stream := by
  refine ⟨step_sendInv inv.1 safe.1 done, ?_⟩
  obtain ⟨stream, stepped, finish⟩ := bind_ok done
  cases finish
  exact stepStream_reliable inv.1.2 inv.2 inv.1.1 safe.1.1 safe.1.2 safe.2 stepped

theorem start_reliable {opening host} (valid : opening.Valid)
    (done : start config opening = .ok host) : Reliable host.stream := by
  cases opening with
  | active iss room listener =>
    cases done
    cases room <;> exact ⟨trivial, nofun, nofun, fun _ _ => rfl⟩
  | passive iss curTs segment =>
    cases start_passive valid.1 done
    exact ⟨trivial, nofun, nofun, fun _ _ => rfl⟩

/-- In every safe run a byte leaves the send buffer only after it has been sent, on a segment that
acknowledges it, and with a record. -/
theorem sender_reliable {config : Config} {opening : Opening} {host after : Host}
    {steps : List Step} (valid : opening.Valid) (started : start config opening = .ok host)
    (safe : Along config (SafeReleaseStep config) host steps) (done : run config host steps = .ok after) :
    (∀ later earlier start count segment,
      after.stream.history = later ++ .removed start count segment :: earlier →
      ∀ position, start ≤ position → position < start + count →
        segment.flags.ack = true ∧ tcpSeqGt segment.ackSeq (plus (after.stream.seqs.iss + 1) position) ∧
          Transmitted earlier position) ∧
      ∀ buf, after.stream.seqs.sndbuf = some buf → ∀ position < buf.removed,
        Removed after.stream.history position := by
  have begun : (Handshake True host.stream ∧ SendInv host.stream.sendView) ∧ Reliable host.stream :=
    ⟨⟨(start_handshake valid started).mono fun _ _ => trivial, start_sendInv valid started⟩,
      start_reliable valid started⟩
  have reliable : Reliable after.stream := (run_preserves step_reliable begun safe done).2
  refine ⟨?_, fun buf held => (reliable.place buf held).2.2.2⟩
  intro later earlier start count segment split
  have right := reliable.right
  rw [split] at right
  exact removalsRight_split right

theorem sender_reliable_ten : ∃ host after later earlier segment,
    start sampleConfig (.active 100 true false) = .ok host ∧
      run sampleConfig host (sampleWrite ++ [.writeData 1 2, sampleAck 111]) = .ok after ∧
      after.stream.history = later ++ .removed 0 10 segment :: earlier ∧
      ∀ position < 10, segment.flags.ack = true ∧
        tcpSeqGt segment.ackSeq (plus 101 position) ∧ Transmitted earlier position := by
  refine ⟨_, _, [], _, _, rfl, rfl, rfl, ?_⟩
  have reliable := @sender_reliable sampleConfig (.active 100 true false) _ _
    (sampleWrite ++ [.writeData 1 2, sampleAck 111]) trivial rfl
    (.cons ⟨⟨trivial, trivial⟩, trivial⟩ rfl (.cons ⟨⟨trivial, nofun⟩, nofun⟩ rfl
      (.cons ⟨⟨trivial, ⟨fun _ _ => ⟨fun _ => rfl, nofun⟩, nofun, nofun⟩⟩,
        ⟨nofun, fun _ held => absurd rfl held⟩⟩ rfl
        (.cons ⟨⟨trivial, nofun⟩, nofun⟩ rfl (.cons ⟨⟨rfl, trivial⟩, trivial⟩ rfl
          (.cons ⟨⟨trivial, trivial⟩, trivial⟩ rfl (.cons ⟨⟨trivial, trivial⟩, trivial⟩ rfl
            (.cons ⟨⟨trivial, ⟨nofun, fun _ buf held => by cases held; decide, nofun⟩⟩,
              ⟨nofun, fun _ _ => by decide⟩⟩ rfl .nil)))))))) rfl
  exact fun position below => reliable.1 [] _ 0 10 _ rfl position (Nat.zero_le _) (by omega)

/-- Bytes that were never sent leave the buffer when they are acknowledged, in `CLOSE_WAIT` without
the ACK flag. -/
theorem sender_unreliable :
    (∃ host after later earlier segment,
      start sampleConfig (.active 100 true false) = .ok host ∧
        run sampleConfig host (sampleWrite ++ [sampleAck 111]) = .ok after ∧
        after.stream.history = later ++ .removed 0 10 segment :: earlier ∧
        ¬Transmitted earlier 0) ∧
      ∃ host after later earlier segment,
        start sampleConfig (.active 100 true false) = .ok host ∧
          run sampleConfig host (sampleWrite ++ [.writeData 1 2,
            .segment 3 none false (sampleSegment { fin := true }),
            .segment 4 none false { sampleSegment {} with seq := 502, ackSeq := 111 }]) =
            .ok after ∧
          after.stream.history = later ++ .removed 0 10 segment :: earlier ∧
          segment.flags.ack = false := by
  refine ⟨⟨_, _, [], _, _, rfl, rfl, rfl, fun sent => ?_⟩, ⟨_, _, [], _, _, rfl, rfl, rfl, rfl⟩⟩
  exact absurd sent.lt_sentEnd (by decide)

end Mcc
