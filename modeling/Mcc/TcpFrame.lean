import Mcc.TcpCalls

/-!
What the functions of a connection leave alone, and the few fields each of them changes. The
proofs about whole runs use these facts and do not unfold the functions again.
-/

namespace Mcc

open SerialNumber RingBuffer

def Along (config : Config) (allowed : Host → Step → Prop) : Host → List Step → Prop
  | _, [] => True
  | host, taken :: rest =>
    allowed host taken ∧ ∀ next, step config host taken = .ok next → Along config allowed next rest

variable {config : Config} {allowed : Host → Step → Prop}

theorem Along.nil {host} : Along config allowed host [] := trivial

theorem Along.cons {host next taken rest} (good : allowed host taken)
    (stepped : step config host taken = .ok next) (along : Along config allowed next rest) :
    Along config allowed host (taken :: rest) := by
  refine ⟨good, fun other done => ?_⟩
  rw [stepped] at done
  cases done
  exact along

theorem Along.mono {weaker} (weaken : ∀ {host taken}, allowed host taken → weaker host taken) :
    ∀ {steps host}, Along config allowed host steps → Along config weaker host steps := by
  intro steps
  induction steps with
  | nil => exact fun _ => trivial
  | cons taken rest ih =>
    exact fun along => ⟨weaken along.1, fun next stepped => ih (along.2 next stepped)⟩

theorem Along.of_forall {steps} (all : ∀ taken ∈ steps, ∀ host, allowed host taken) (host : Host) :
    Along config allowed host steps := by
  induction steps generalizing host with
  | nil => exact trivial
  | cons taken rest ih =>
    refine ⟨all taken List.mem_cons_self host, fun next _ => ih ?_ next⟩
    exact fun other member => all other (List.mem_cons_of_mem _ member)

theorem run_preserves {kept : Host → Prop}
    (stepKept : ∀ {host taken next}, kept host → allowed host taken →
      step config host taken = .ok next → kept next) :
    ∀ {steps host after}, kept host → Along config allowed host steps →
      run config host steps = .ok after → kept after := by
  intro steps
  induction steps with
  | nil =>
    intro host after before along done
    cases done
    exact before
  | cons taken rest ih =>
    intro host after before along done
    obtain ⟨next, stepped, done⟩ := bind_ok (show step config host taken >>= _ = _ from done)
    exact ih (stepKept before along.1 stepped) (along.2 next stepped) done

def Grows (allowed : Action → Prop) (older newer : List Action) : Prop :=
  ∃ added, newer = added ++ older ∧ ∀ action ∈ added, allowed action

theorem Grows.refl (allowed : Action → Prop) (history : List Action) : Grows allowed history history :=
  ⟨[], rfl, by simp⟩

variable {allowed : Action → Prop} {older newer : List Action}

theorem Grows.trans {first second third}
    (earlier : Grows allowed first second) (later : Grows allowed second third) :
    Grows allowed first third := by
  obtain ⟨added, rfl, addedAllowed⟩ := earlier
  obtain ⟨more, rfl, moreAllowed⟩ := later
  refine ⟨more ++ added, by simp, ?_⟩
  intro action member
  rcases List.mem_append.mp member with inMore | inAdded
  · exact moreAllowed action inMore
  · exact addedAllowed action inAdded

theorem Grows.mono {wider} (wide : ∀ action, allowed action → wider action)
    (grows : Grows allowed older newer) : Grows wider older newer := by
  obtain ⟨added, rfl, addedAllowed⟩ := grows
  exact ⟨added, rfl, fun action member => wide action (addedAllowed action member)⟩

theorem Grows.cons {action} (good : allowed action)
    (history : List Action) : Grows allowed history (action :: history) :=
  ⟨[action], rfl, by simpa using good⟩

theorem Grows.mem {action} (grows : Grows allowed older newer)
    (member : action ∈ older) : action ∈ newer := by
  obtain ⟨added, rfl, -⟩ := grows
  exact List.mem_append_right added member

theorem Grows.preserves {P : List Action → Prop} (grows : Grows allowed older newer)
    (step : ∀ action rest, allowed action → P rest → P (action :: rest)) (kept : P older) : P newer := by
  obtain ⟨added, rfl, all⟩ := grows
  induction added with
  | nil => exact kept
  | cons action rest ih =>
    refine step action _ (all action List.mem_cons_self) (ih fun other member => ?_)
    exact all other (List.mem_cons_of_mem _ member)

def Action.IsRaised : Action → Prop
  | .raised _ => True
  | _ => False

theorem raise_grows (kind : EventKind) (s : TcpStream) :
    Grows Action.IsRaised s.history (raise kind s).history := by
  unfold raise
  cases s.socket with
  | true => exact Grows.cons trivial s.history
  | false => exact .refl _ s.history

structure Status where
  socket : Bool
  closed : Bool
  haveReset : Bool
  onHashTable : Bool
  queues : Queues
  destroyed : Nat

@[simp] def TcpStream.status (s : TcpStream) : Status where
  socket := s.socket
  closed := s.closed
  haveReset := s.haveReset
  onHashTable := s.onHashTable
  queues := s.queues
  destroyed := s.destroyed

structure Steady (s t : TcpStream) : Prop where
  status : t.status = s.status
  state : t.state = s.state
  closeReason : t.closeReason = s.closeReason
  mss : t.ctl.mss = s.ctl.mss

theorem Steady.refl (s : TcpStream) : Steady s s := ⟨rfl, rfl, rfl, rfl⟩

variable {s t u : TcpStream}

theorem Steady.trans (first : Steady s t) (second : Steady t u) : Steady s u  where
  status := second.status.trans first.status
  state := second.state.trans first.state
  closeReason := second.closeReason.trans first.closeReason
  mss := second.mss.trans first.mss

structure Unmoved (s t : TcpStream) : Prop extends Steady s t where
  seqs : t.seqs = s.seqs

theorem Unmoved.refl (s : TcpStream) : Unmoved s s := ⟨Steady.refl s, rfl⟩

theorem Unmoved.trans (first : Unmoved s t) (second : Unmoved t u) : Unmoved s u :=
  ⟨first.toSteady.trans second.toSteady, second.seqs.trans first.seqs⟩

variable {curTs : UInt32}

theorem updateRetransmissionTimer_form (done : updateRetransmissionTimer curTs s = .ok t) :
    s.ctl.rto ≠ 0 ∧ ∃ tsRto, t = { s with
      ctl := { s.ctl with nrtx := 0, tsRto }
      lists := { s.lists with
        onRtoList := tcpSeqGt s.seqs.sndNxt s.seqs.sndUna && !s.lists.onTimewaitList } } := by
  unfold updateRetransmissionTimer at done
  split at done
  · cases done
  · rename_i rto
    dsimp only at done
    split at done
    · rename_i outstanding
      cases done
      refine ⟨rto, curTs + s.ctl.rto, ?_⟩
      simp [addtoRTOList, removeFromRTOList, outstanding]
    · rename_i outstanding
      cases done
      refine ⟨rto, s.ctl.tsRto, ?_⟩
      simp [removeFromRTOList, outstanding]

theorem updateWindow_form (segment : Segment) (ackSeq : UInt32) (s : TcpStream) :
    ∃ peerWnd sndWl1 sndWl2 history, updateWindow segment ackSeq s = { s with
        ctl := { s.ctl with peerWnd }
        rcv := { s.rcv with sndWl1, sndWl2 }
        history } ∧
      (peerWnd = s.ctl.peerWnd ∨ peerWnd = scaledWindow segment s.ctl) ∧
      Grows Action.IsRaised s.history history := by
  unfold updateWindow
  dsimp only
  split
  · split
    · exact ⟨_, _, _, _, rfl, .inr rfl, raise_grows .write _⟩
    · exact ⟨_, _, _, _, rfl, .inr rfl, .refl _ _⟩
  · exact ⟨_, _, _, _, rfl, .inl rfl, .refl _ _⟩

theorem countDuplicate_form (segment : Segment) (ackSeq rightWndEdge : UInt32) (s : TcpStream) :
    ∃ dupAcks lastAckSeq dup, countDuplicate segment ackSeq rightWndEdge s =
        ({ s with rcv := { s.rcv with dupAcks, lastAckSeq } }, dup) ∧
      (dup = true → tcpSeqLt ackSeq s.seqs.sndNxt ∧ ackSeq = s.rcv.lastAckSeq ∧
        segment.payload = [] ∧ dupAcks = s.rcv.dupAcks + 1) := by
  unfold countDuplicate
  split
  · rename_i duplicate
    exact ⟨_, s.rcv.lastAckSeq, _, rfl, fun _ => ⟨duplicate.1, duplicate.2.1, duplicate.2.2.1, rfl⟩⟩
  · exact ⟨_, _, _, rfl, nofun⟩

theorem fastRetransmit_form {ackSeq dup} (done : fastRetransmit ackSeq dup s = .ok t) :
    ∃ sndNxt cwnd ssthresh nrtx onSendList, t = { s with
        seqs := { s.seqs with sndNxt }
        ctl := { s.ctl with cwnd, ssthresh, nrtx }
        lists := { s.lists with onSendList } } ∧
      (sndNxt = s.seqs.sndNxt ∧ onSendList = s.lists.onSendList ∨
        dup = true ∧ s.rcv.dupAcks = 3 ∧ onSendList = true ∧
          sndNxt = if tcpSeqLt ackSeq s.seqs.sndNxt then ackSeq else s.seqs.sndNxt) := by
  unfold fastRetransmit at done
  split at done
  · rename_i third
    unfold addtoSendList at done
    split at done <;> cases done
    exact ⟨_, _, _, _, _, rfl, .inr ⟨third.1, third.2, rfl, rfl⟩⟩
  · split at done <;> cases done <;> exact ⟨_, _, _, _, _, rfl, .inl ⟨rfl, rfl⟩⟩

theorem recoverAfterLoss_spec (ackSeq : UInt32) (buf : TcpSendBuffer) (s : TcpStream) :
    recoverAfterLoss ackSeq buf s = { s with
      seqs := { s.seqs with
        sndNxt := if tcpSeqGt ackSeq s.seqs.sndNxt then ackSeq else s.seqs.sndNxt }
      lists := { s.lists with
        onSendList :=
          s.lists.onSendList && !(tcpSeqGt ackSeq s.seqs.sndNxt && decide (buf.len = 0)) } } := by
  unfold recoverAfterLoss
  by_cases beyond : tcpSeqGt ackSeq s.seqs.sndNxt <;> by_cases empty : buf.len = 0 <;>
    simp [beyond, empty, removeFromSendList]

theorem measureRTT_form (done : measureRTT curTs s = .ok t) :
    ∃ rcv rto, (rcv = s.rcv ∨ ∃ mrtt, rcv = estimate mrtt s.seqs s.rcv) ∧
      t = { s with rcv, ctl := { s.ctl with rto } } := by
  unfold measureRTT at done
  split at done
  · dsimp only at done
    split at done <;> cases done
    exact ⟨_, _, .inr ⟨_, rfl⟩, rfl⟩
  · cases done
    exact ⟨_, _, .inl rfl, rfl⟩

theorem growWindow_form {packets} (done : growWindow packets s = .ok t) :
    ∃ cwnd, t = { s with ctl := { s.ctl with cwnd } } := by
  unfold growWindow at done
  dsimp only at done
  repeat' split at done
  all_goals first
    | cases done; done
    | cases done; exact ⟨_, rfl⟩

theorem removeAcked_form (segment : Segment) (ackSeq : UInt32) (buf : TcpSendBuffer) (s : TcpStream) :
    ∃ sndWnd history, removeAcked segment ackSeq buf s = { s with
        seqs := { s.seqs with
          sndbuf := some (sbRemove buf (ackSeq - buf.headSeq).toNat).1
          sndUna := ackSeq }
        ctl := { s.ctl with sndWnd }
        history } ∧
      Grows Action.IsRaised
        (.removed buf.removed
          ((sbRemove buf (ackSeq - buf.headSeq).toNat).1.removed - buf.removed) segment :: s.history)
        history := by
  unfold removeAcked
  dsimp only
  split
  · exact ⟨_, _, rfl, raise_grows .write _⟩
  · exact ⟨_, _, rfl, .refl _ _⟩

variable {segment : Segment}

theorem acknowledge_spec {ackSeq buf} (done : acknowledge curTs segment ackSeq buf s = .ok t) :
    tcpSeqGeq buf.headSeq ackSeq ∧ t = s ∨
      ¬tcpSeqGeq buf.headSeq ackSeq ∧ Steady s t ∧
        t.seqs = { s.seqs with
          sndbuf := some (sbRemove buf (ackSeq - buf.headSeq).toNat).1
          sndUna := ackSeq } ∧
        t.lists = { s.lists with
          onRtoList := tcpSeqGt s.seqs.sndNxt ackSeq && !s.lists.onTimewaitList } ∧
        Grows Action.IsRaised
          (.removed buf.removed
            ((sbRemove buf (ackSeq - buf.headSeq).toNat).1.removed - buf.removed) segment ::
            s.history)
          t.history := by
  unfold acknowledge at done
  split at done
  · rename_i old
    cases done
    exact .inl ⟨old, rfl⟩
  · rename_i fresh
    split at done
    · cases done
    · obtain ⟨measured, measure, rest⟩ := bind_ok done
      obtain ⟨grown, grow, timed⟩ := bind_ok rest
      obtain ⟨sndWnd, history, removed, grows⟩ := removeAcked_form segment ackSeq buf grown
      rw [removed] at timed
      obtain ⟨-, tsRto, rfl⟩ := updateRetransmissionTimer_form timed
      obtain ⟨rcv, rto, -, rfl⟩ := measureRTT_form measure
      obtain ⟨cwnd, rfl⟩ := growWindow_form grow
      exact .inr ⟨fresh, ⟨rfl, rfl, rfl, rfl⟩, rfl, rfl, grows⟩

theorem acknowledge_preserves {kept : TcpStream → Prop} {ackSeq : UInt32} {buf : TcpSendBuffer}
    (measure : ∀ {u v}, kept u → measureRTT curTs u = .ok v → kept v)
    (grow : ∀ {packets u v}, kept u → growWindow packets u = .ok v → kept v)
    (remove : ∀ {u}, kept u → kept (removeAcked segment ackSeq buf u))
    (timer : ∀ {u v}, kept u → updateRetransmissionTimer curTs u = .ok v → kept v)
    (before : kept s) (done : acknowledge curTs segment ackSeq buf s = .ok t) : kept t := by
  unfold acknowledge at done
  split at done
  · cases done
    exact before
  · split at done
    · cases done
    · obtain ⟨measured, measures, rest⟩ := bind_ok done
      obtain ⟨grown, grows, timed⟩ := bind_ok rest
      exact timer (remove (grow (measure before measures) grows)) timed

def ackedNxt (fast : Bool) (ackSeq sndNxt : UInt32) : UInt32 :=
  let resumed := if fast then ackSeq else sndNxt
  if tcpSeqGt ackSeq resumed then ackSeq else resumed

def ackedBuffer (ackSeq : UInt32) (buf : TcpSendBuffer) : TcpSendBuffer :=
  if tcpSeqGeq buf.headSeq ackSeq then buf
  else (sbRemove buf (ackSeq - buf.headSeq).toNat).1

def ackedUna (ackSeq : UInt32) (buf : TcpSendBuffer) (sndUna : UInt32) : UInt32 :=
  if tcpSeqGeq buf.headSeq ackSeq then sndUna else ackSeq

/-- What `ProcessACK` does with an acknowledgment number not beyond the send buffer; `fast` tells of
the third duplicate. -/
structure Acknowledged (segment : Segment) (buf : TcpSendBuffer) (fast : Bool) (s t : TcpStream) :
    Prop where
  steady : Steady s t
  third : fast = true → tcpSeqLt (dataAck segment s) s.seqs.sndNxt ∧
    dataAck segment s = s.rcv.lastAckSeq ∧ segment.payload = [] ∧ s.rcv.dupAcks + 1 = 3
  seqs : t.seqs = { s.seqs with
    sndNxt := ackedNxt fast (dataAck segment s) s.seqs.sndNxt
    sndUna := ackedUna (dataAck segment s) buf s.seqs.sndUna
    sndbuf := some (ackedBuffer (dataAck segment s) buf) }
  onSendList : t.lists.onSendList = ((s.lists.onSendList || fast) &&
    !(tcpSeqGt (dataAck segment s) (if fast then dataAck segment s else s.seqs.sndNxt) &&
      decide (buf.len = 0)))
  lists : { t.lists with
      onSendList := s.lists.onSendList
      onRtoList := s.lists.onRtoList } = s.lists
  history : Grows
    (fun action => action.IsRaised ∨ action = .removed buf.removed
      ((ackedBuffer (dataAck segment s) buf).removed - buf.removed) segment)
    s.history t.history
  recorded : ¬tcpSeqGeq buf.headSeq (dataAck segment s) → .removed buf.removed
    ((ackedBuffer (dataAck segment s) buf).removed - buf.removed) segment ∈ t.history

theorem resend_spec {ackSeq edge}
    (done : fastRetransmit ackSeq
      (countDuplicate segment ackSeq edge (updateWindow segment ackSeq s)).2
      (countDuplicate segment ackSeq edge (updateWindow segment ackSeq s)).1 = .ok t) :
    Steady s t ∧ t.ctl.sndWnd = s.ctl.sndWnd ∧
      Grows Action.IsRaised s.history t.history ∧
      ∃ fast, (fast = true → tcpSeqLt ackSeq s.seqs.sndNxt ∧ ackSeq = s.rcv.lastAckSeq ∧
          segment.payload = [] ∧ s.rcv.dupAcks + 1 = 3) ∧
        t.seqs = { s.seqs with sndNxt := if fast then ackSeq else s.seqs.sndNxt } ∧
        t.lists = { s.lists with onSendList := s.lists.onSendList || fast } := by
  obtain ⟨dupAcks, lastAckSeq, dup, counted, counts⟩ :=
    countDuplicate_form segment ackSeq edge (updateWindow segment ackSeq s)
  obtain ⟨peerWnd, sndWl1, sndWl2, history, windowed, -, grows⟩ := updateWindow_form segment ackSeq s
  rw [counted, windowed] at done
  rw [windowed] at counts
  obtain ⟨sndNxt, cwnd, ssthresh, nrtx, onSendList, rfl, cases⟩ := fastRetransmit_form done
  refine ⟨⟨rfl, rfl, rfl, rfl⟩, rfl, grows, ?_⟩
  rcases cases with ⟨rfl, rfl⟩ | ⟨isDup, three, rfl, rfl⟩
  · refine ⟨false, nofun, rfl, ?_⟩
    rw [Bool.or_false]
  · obtain ⟨below, last, empty, count⟩ := counts isDup
    refine ⟨true, fun _ => ⟨below, last, empty, count.symm.trans three⟩, ?_, ?_⟩
    · rw [if_pos below]
      rfl
    · rw [Bool.or_true]

theorem processACK_spec {buf} (held : s.seqs.sndbuf = some buf)
    (done : processACK curTs segment s = .ok t) :
    t = s ∧ tcpSeqGt (dataAck segment s) (buf.headSeq + buf.len) ∨
      ¬tcpSeqGt (dataAck segment s) (buf.headSeq + buf.len) ∧
        ∃ fast, Acknowledged segment buf fast s t := by
  unfold processACK at done
  rw [held] at done
  dsimp only at done
  split at done
  · rename_i beyond
    cases done
    exact .inl ⟨rfl, beyond⟩
  · rename_i inside
    obtain ⟨resent, fastDone, acked⟩ := bind_ok done
    obtain ⟨steady, -, history, fast, third, seqs, lists⟩ := resend_spec fastDone
    have widened := fun action (raised : Action.IsRaised action) =>
      Or.inl (b := action = .removed buf.removed
        ((ackedBuffer (dataAck segment s) buf).removed - buf.removed) segment) raised
    rw [recoverAfterLoss_spec] at acked
    refine .inr ⟨inside, fast, ?_⟩
    rcases acknowledge_spec acked with
      ⟨old, rfl⟩ | ⟨fresh, moved, seqsAfter, listsAfter, historyAfter⟩
    · exact {
        steady := { steady with }
        third
        seqs := by simp [seqs, ackedNxt, ackedUna, ackedBuffer, old, held]
        onSendList := by simp [seqs, lists]
        lists := by simp [lists]
        history := history.mono widened
        recorded := fun fresh => absurd old fresh }
    · have removedBytes : ackedBuffer (dataAck segment s) buf =
          (sbRemove buf (dataAck segment s - buf.headSeq).toNat).1 := if_neg fresh
      rw [← removedBytes] at historyAfter
      exact {
        steady := by
          refine Steady.trans ?_ moved
          exact { steady with }
        third
        seqs := by simp [seqsAfter, seqs, ackedNxt, ackedUna, ackedBuffer, fresh]
        onSendList := by simp [listsAfter, seqs, lists]
        lists := by simp [listsAfter, lists]
        history := (history.mono widened).trans
          ((Grows.cons (.inr rfl) resent.history).trans (historyAfter.mono widened))
        recorded := fun _ => historyAfter.mem List.mem_cons_self }

theorem storePayload_form {buff after moved} (done : storePayload segment buff s = .ok (after, moved)) :
    ∃ stored ret kept history, rbPut buff segment.payload segment.payloadlen segment.seq =
        .ok (stored, ret) ∧ discardPayload s.state stored = .ok kept ∧ after = { s with
        rcv := { s.rcv with
          rcvbuf := some kept
          rcvNxt := plus kept.headSeq kept.mergedLen
          rcvWnd := UInt32.ofInt (kept.size - kept.mergedLen) }
        history } ∧ Grows Action.IsRaised s.history history := by
  unfold storePayload at done
  obtain ⟨⟨stored, ret⟩, put, rest⟩ := bind_ok done
  obtain ⟨kept, discard, rest⟩ := bind_ok rest
  dsimp only at rest
  split at rest
  · cases rest
    exact ⟨_, _, _, _, put, discard, rfl, .refl _ _⟩
  · cases rest
    split
    · exact ⟨_, _, _, _, put, discard, rfl, raise_grows .read _⟩
    · exact ⟨_, _, _, _, put, discard, rfl, .refl _ _⟩

structure Received (s t : TcpStream) : Prop where
  status : t.status = s.status
  seqs : t.seqs = s.seqs
  ctl : t.ctl = s.ctl
  state : t.state = s.state ∧ t.closeReason = s.closeReason ∨ t.state = .closed ∧ t.closeReason = .noMem
  lists : { t.lists with onAckList := s.lists.onAckList, ackCnt := s.lists.ackCnt } = s.lists
  rcv : { t.rcv with
    rcvbuf := s.rcv.rcvbuf, rcvNxt := s.rcv.rcvNxt, rcvWnd := s.rcv.rcvWnd } = s.rcv
  history : Grows Action.IsRaised s.history t.history

theorem Received.refl (s : TcpStream) : Received s s :=
  ⟨rfl, rfl, rfl, .inl ⟨rfl, rfl⟩, rfl, rfl, .refl _ _⟩

variable {around : Surroundings}

theorem receivePayload_cases (done : receivePayload config around segment s = .ok t) :
    segment.payload = [] ∧ t = s ∨ segment.payload ≠ [] ∧ ∃ stored inOrder,
      t = enqueueACK (if inOrder then .aggregate else .now) stored ∧
      (stored = s ∨
        (∃ buff, (s.rcv.rcvbuf = some buff ∨ s.rcv.rcvbuf = none ∧ ∃ chunk,
            around.chunk = some chunk ∧ buff = rbInit config.rbm chunk (s.rcv.irs + 1)) ∧
          ¬tcpSeqLt (segment.seq + segment.payloadlen) s.rcv.rcvNxt ∧
          ¬tcpSeqGt (segment.seq + segment.payloadlen) (s.rcv.rcvNxt + s.rcv.rcvWnd) ∧
          storePayload segment buff s = .ok (stored, inOrder)) ∨
        s.rcv.rcvbuf = none ∧ around.chunk = none ∧
          stored = raise .error { s with state := .closed, closeReason := .noMem }) := by
  unfold receivePayload at done
  split at done
  · cases done
    exact .inl ⟨‹_›, rfl⟩
  · obtain ⟨⟨stored, inOrder⟩, process, finish⟩ := bind_ok done
    cases finish
    refine .inr ⟨‹_›, stored, inOrder, rfl, ?_⟩
    unfold processTCPPayload at process
    dsimp only at process
    split at process
    · cases process
      exact .inl rfl
    · split at process
      · cases process
        exact .inl rfl
      · split at process
        · exact .inr (.inl ⟨_, .inl ‹_›, ‹_›, ‹_›, process⟩)
        · split at process
          · cases process
            exact .inr (.inr ⟨‹_›, ‹_›, rfl⟩)
          · exact .inr (.inl ⟨_, .inr ⟨‹_›, _, ‹_›, rfl⟩, ‹_›, ‹_›, process⟩)

theorem receivePayload_spec (done : receivePayload config around segment s = .ok t) :
    Received s t ∧ (segment.payload = [] → t = s) := by
  rcases receivePayload_cases done with ⟨-, rfl⟩ | ⟨present, stored, inOrder, rfl, outcome⟩
  · exact ⟨.refl _, fun _ => rfl⟩
  · refine ⟨?_, fun absent => absurd absent present⟩
    have lists : { (enqueueACK (if inOrder then .aggregate else .now) stored).lists with
        onAckList := stored.lists.onAckList, ackCnt := stored.lists.ackCnt } = stored.lists := by
      cases inOrder <;> simp [enqueueACK]
    rcases outcome with rfl | ⟨buff, -, -, -, store⟩ | ⟨-, -, rfl⟩
    · exact ⟨rfl, rfl, rfl, .inl ⟨rfl, rfl⟩, lists, rfl, .refl _ _⟩
    · obtain ⟨_, _, _, _, -, -, rfl, grows⟩ := storePayload_form store
      exact ⟨rfl, rfl, rfl, .inl ⟨rfl, rfl⟩, lists, rfl, grows⟩
    · exact ⟨rfl, rfl, rfl, .inr ⟨rfl, rfl⟩, lists, rfl, raise_grows .error _⟩

structure Validated (s t : TcpStream) : Prop extends Unmoved s t where
  ctl : t.ctl = s.ctl
  history : t.history = s.history
  rcv : { t.rcv with
    tsRecent := s.rcv.tsRecent, tsLastTsUpd := s.rcv.tsLastTsUpd,
    tsLastackRcvd := s.rcv.tsLastackRcvd, tsTwExpire := s.rcv.tsTwExpire } = s.rcv
  lists : t.lists = s.lists ∨ (∃ opt, t.lists = (enqueueACK opt s).lists) ∨
    s.state ≠ .established ∧ { t.lists with
      onControlList := s.lists.onControlList
      onRtoList := s.lists.onRtoList
      onTimewaitList := s.lists.onTimewaitList } = s.lists

theorem Validated.refl (s : TcpStream) : Validated s s :=
  ⟨.refl s, rfl, rfl, rfl, .inl rfl⟩

theorem validateWindow_spec (config : Config) (curTs : UInt32) (segment : Segment)
    (s : TcpStream) : Validated s (validateWindow config curTs segment s).1 ∧
      ((validateWindow config curTs segment s).2 = true →
        (validateWindow config curTs segment s).1.lists = s.lists) := by
  unfold validateWindow
  split
  · exact ⟨.refl s, fun _ => rfl⟩
  · split
    · exact ⟨.refl s, nofun⟩
    · split
      · split <;> exact ⟨⟨⟨⟨rfl, rfl, rfl, rfl⟩, rfl⟩, rfl, rfl, rfl, .inr (.inl ⟨_, rfl⟩)⟩, nofun⟩
      · split <;> exact ⟨⟨⟨⟨rfl, rfl, rfl, rfl⟩, rfl⟩, rfl, rfl, rfl, .inr (.inr ⟨‹_›, rfl⟩)⟩, nofun⟩

theorem validateSequence_spec (config : Config) (curTs : UInt32) (segment : Segment)
    (s : TcpStream) : Validated s (validateSequence config curTs segment s).1 ∧
      ((validateSequence config curTs segment s).2 = true →
        (validateSequence config curTs segment s).1.lists = s.lists) := by
  unfold validateSequence
  split
  · split
    · exact ⟨.refl s, nofun⟩
    · split
      · exact ⟨⟨⟨⟨rfl, rfl, rfl, rfl⟩, rfl⟩, rfl, rfl, rfl, .inr (.inl ⟨_, rfl⟩)⟩, nofun⟩
      · obtain ⟨⟨unmoved, ctl, history, rcv, lists⟩, valid⟩ :=
          validateWindow_spec config curTs segment { s with rcv := { s.rcv with
            tsLastTsUpd := _, tsRecent := _, tsLastackRcvd := _ } }
        refine ⟨⟨{ unmoved with }, ctl, history, ?_, lists⟩, valid⟩
        simpa using congrArg (fun r : RecvVars => { r with
          tsRecent := s.rcv.tsRecent, tsLastTsUpd := s.rcv.tsLastTsUpd,
          tsLastackRcvd := s.rcv.tsLastackRcvd }) rcv
  · exact validateWindow_spec config curTs segment s

section

variable (validated : Validated s t)
include validated

theorem Validated.irs : t.rcv.irs = s.rcv.irs := by
  simpa using congrArg RecvVars.irs validated.rcv

theorem Validated.lastAckSeq : t.rcv.lastAckSeq = s.rcv.lastAckSeq := by
  simpa using congrArg RecvVars.lastAckSeq validated.rcv

theorem Validated.dupAcks : t.rcv.dupAcks = s.rcv.dupAcks := by
  simpa using congrArg RecvVars.dupAcks validated.rcv

end

theorem acceptSegment_passes (state : s.state = .closed ∨ s.state = .listen) :
    acceptSegment config around segment s =
      handleState config around segment (noteSegment around.curTs segment s) := by
  have passes : processRST segment (noteSegment around.curTs segment s) =
      .ok (noteSegment around.curTs segment s, false) := by
    rw [processRST, show (noteSegment around.curTs segment s).state = s.state from rfl]
    rcases state with now | now <;> rw [now]
  rw [acceptSegment, passes]
  exact ite_self _

theorem receiveACK_cases (done : receiveACK curTs segment s = .ok t) :
    t = s ∨ ∃ buf fast, s.seqs.sndbuf = some buf ∧
      ¬tcpSeqGt (dataAck segment s) (buf.headSeq + buf.len) ∧ Acknowledged segment buf fast s t := by
  unfold receiveACK at done
  split at done
  · exact .inl (Except.ok.inj done).symm
  · rename_i buf held
    rcases processACK_spec held done with ⟨same, -⟩ | ⟨inside, fast, acked⟩
    · exact .inl same
    · exact .inr ⟨buf, fast, held, inside, acked⟩

theorem receiveFlaggedACK_cases (done : receiveFlaggedACK curTs segment s = .ok t) :
    segment.flags.ack = true ∧ receiveACK curTs segment s = .ok t ∨
      segment.flags.ack = false ∧ t = s := by
  unfold receiveFlaggedACK at done
  split at done
  · exact .inl ⟨‹_›, done⟩
  · exact .inr ⟨Bool.eq_false_iff.mpr ‹_›, (Except.ok.inj done).symm⟩

structure SameAck (segment : Segment) (s t : TcpStream) : Prop where
  data : dataAck segment t = dataAck segment s
  seqs : t.seqs = s.seqs
  dupAcks : t.rcv.dupAcks = s.rcv.dupAcks
  lastAckSeq : t.rcv.lastAckSeq = s.rcv.lastAckSeq

theorem Received.sameAck (received : Received s t) (state : s.state = .established) :
    SameAck segment s t where
  data := by
    rcases received.state with ⟨same, -⟩ | ⟨closed, -⟩
    · simp [dataAck, same, state]
    · simp [dataAck, closed, state]
  seqs := received.seqs
  dupAcks := by simpa using congrArg RecvVars.dupAcks received.rcv
  lastAckSeq := by simpa using congrArg RecvVars.lastAckSeq received.rcv

def Ended (s t : TcpStream) : Prop :=
  s.socket = true ∧ t = raise .error s ∨ s.socket = false ∧ destroyTCPStream s = .ok t

theorem ended_of_ite (done : (if s.socket then .ok (raise .error s) else destroyTCPStream s) = .ok t) :
    Ended s t := by
  split at done
  · exact .inl ⟨‹_›, (Except.ok.inj done).symm⟩
  · exact .inr ⟨Bool.eq_false_iff.mpr ‹_›, done⟩

structure ActiveOpened (segment : Segment) (s t : TcpStream) : Prop where
  status : t.status = s.status
  state : t.state = .established
  seqs : t.seqs = { s.seqs with sndNxt := segment.ackSeq }
  lists : t.lists = { s.lists with onRtoList := false }
  history : t.history = .established s.seqs.sndUna segment.ackSeq segment.seq (segment.seq + 1) ::
    .syn segment.seq :: s.history

def Watched (s t : TcpStream) : Prop :=
  t = s ∨ t = { s with lists := { s.lists with onTimeoutList := true } }

theorem watched_of_ok {timed} [Decidable timed]
    (done : (if timed then addtoTimeoutList s else .ok s) = .ok t) : Watched s t := by
  split at done
  · unfold addtoTimeoutList at done
    split at done <;> cases done
    exact .inr rfl
  · exact .inl (Except.ok.inj done).symm

theorem completeActiveOpen_cases (done : completeActiveOpen config around segment s = .ok t) :
    ∃ opened, ActiveOpened segment s opened ∧
      (s.socket = true ∧ Watched (addtoControlList (raise .write opened)) t ∨
        s.socket = false ∧ destroyTCPStream { opened with closeReason := .activeClose } = .ok t) := by
  unfold completeActiveOpen at done
  obtain ⟨opened, opens, rest⟩ := bind_ok done
  obtain ⟨-, tsRto, rfl⟩ := updateRetransmissionTimer_form opens
  dsimp only at rest
  split at rest
  · refine ⟨_, ?_, .inl ⟨‹_›, watched_of_ok rest⟩⟩
    exact ⟨rfl, rfl, rfl, rfl, rfl⟩
  · refine ⟨_, ?_, .inr ⟨Bool.eq_false_iff.mpr ‹_›, rest⟩⟩
    exact ⟨rfl, rfl, rfl, rfl, rfl⟩

def passiveOpened (segment : Segment) (s : TcpStream) : TcpStream :=
  traceEstablished (removeFromRTOList { s with
    state := .established
    seqs := { s.seqs with sndUna := s.seqs.sndUna + 1, sndNxt := segment.ackSeq }
    ctl := { s.ctl with cwnd := initialCwnd s.ctl, nrtx := 0 }
    rcv := { s.rcv with rcvNxt := s.rcv.irs + 1 } })

theorem completePassiveOpen_cases (done : completePassiveOpen config around segment s = .ok t) :
    Watched { passiveOpened segment s with
        queues := { s.queues with acceptq := s.queues.acceptq + 1 } } t ∨
      Watched (addtoControlList { passiveOpened segment s with
        state := .closed, closeReason := .notAccepted }) t := by
  unfold completePassiveOpen at done
  split at done
  · cases done
  · cases room : around.acceptRoom with
    | true =>
      rw [room] at done
      exact .inl (watched_of_ok done)
    | false =>
      rw [room] at done
      exact .inr (watched_of_ok done)

theorem sendTCPPacket_cases (output : Bool) (curTs : UInt32) (flags : Flags) (wack : Bool)
    (payload : List UInt8) (payloadlen : UInt16) (s : TcpStream) :
    (sendTCPPacket output curTs flags wack payload payloadlen s).1 = s ∧
        (sendTCPPacket output curTs flags wack payload payloadlen s).2 < 0 ∧
        (output = true → s.ctl.mss.toNat < payloadlen.toNat + calculateOptionLength flags) ∨
      output = true ∧ payloadlen.toNat + calculateOptionLength flags ≤ s.ctl.mss.toNat ∧
        sendTCPPacket output curTs flags wack payload payloadlen s =
          (handOver curTs flags wack (payload.take payloadlen.toNat)
            (payloadlen.toNat + phantomLength flags) s,
            ((payloadlen.toNat + phantomLength flags : Nat) : Int)) := by
  unfold sendTCPPacket
  split
  · rename_i large
    exact .inl ⟨rfl, (by decide : (-1 : Int) < 0), fun _ => large⟩
  · split
    · rename_i off
      exact .inl ⟨rfl, (by decide : (-2 : Int) < 0), fun on => by rw [off] at on; cases on⟩
    · rename_i fits on
      exact .inr ⟨by simpa using on, by omega, rfl⟩

theorem toNat_min (a b : UInt32) : (min a b).toNat = min a.toNat b.toNat := by
  change (if a ≤ b then a else b).toNat = min a.toNat b.toNat
  split <;> rename_i order <;> rw [UInt32.le_iff_toNat_le] at order <;> omega

theorem nextPayloadlen_le (len : UInt32) (s : TcpStream) : (nextPayloadlen len s).toNat ≤ len.toNat := by
  unfold nextPayloadlen
  dsimp only
  rw [UInt32.toNat_toUInt16, toNat_min, toNat_min]
  omega

theorem flushPass_cases {output buf result}
    (held : s.seqs.sndbuf = some buf) (done : flushPass output curTs s = .ok result) :
    s.seqs.sndNxt - buf.headSeq ≤ buf.len ∧
      (result = (s, .drained) ∧ buf.len - (s.seqs.sndNxt - buf.headSeq) = 0 ∨
        result = (s, .blocked) ∨ result = (enqueueACK .wack s, .blocked) ∨
        ∃ count : UInt16, output = true ∧ 12 ≤ s.ctl.mss.toNat ∧
          count.toNat ≤ (buf.len - (s.seqs.sndNxt - buf.headSeq)).toNat ∧
          count.toNat ≤ (buf.data.drop (buf.head + (s.seqs.sndNxt - buf.headSeq).toNat)).length ∧
          result = (handOver curTs { ack := true } false
            ((buf.data.drop (buf.head + (s.seqs.sndNxt - buf.headSeq).toNat)).take count.toNat)
            count.toNat s, .sent)) := by
  unfold flushPass at done
  rw [held] at done
  dsimp only at done
  have short := nextPayloadlen_le (buf.len - (s.seqs.sndNxt - buf.headSeq)) s
  generalize nextPayloadlen (buf.len - (s.seqs.sndNxt - buf.headSeq)) s = count at done short
  generalize buf.data.drop (buf.head + (s.seqs.sndNxt - buf.headSeq).toNat) = payload at done ⊢
  split at done
  · cases done
  · split at done
    · cases done
    · split at done
      · cases done
      · rename_i inside
        refine ⟨UInt32.not_lt.mp inside, ?_⟩
        rcases sendTCPPacket_cases output curTs { ack := true } false payload count s with
          ⟨same, negative, -⟩ | ⟨on, fits, sent⟩
        · repeat' split at done
          all_goals try cases done
          · exact .inl ⟨rfl, ‹_›⟩
          · exact .inr (.inr (.inl rfl))
          · exact .inr (.inl rfl)
          · rw [same]
            exact .inr (.inl rfl)
        · rw [sent] at done
          repeat' split at done
          all_goals try cases done
          · exact .inl ⟨rfl, ‹_›⟩
          · exact .inr (.inr (.inl rfl))
          · exact .inr (.inl rfl)
          · exact absurd ‹_› (Int.not_lt.mpr (Int.natCast_nonneg _))
          · have least := Nat.le_trans (Nat.le_add_left 12 _) fits
            exact .inr (.inr (.inr ⟨count, on, least, short, Nat.not_lt.mp ‹_›, rfl⟩))

theorem flushPass_held {output result}
    (done : flushPass output curTs s = .ok result) : ∃ buf, s.seqs.sndbuf = some buf := by
  cases held : s.seqs.sndbuf with
  | none =>
    rw [flushPass, held] at done
    cases done
  | some buf => exact ⟨buf, rfl⟩

theorem flushPass_keeps {output : Bool} {result : TcpStream × FlushPass} {kept : TcpStream → Prop}
    (done : flushPass output curTs s = .ok result) (same : kept s) (wack : kept (enqueueACK .wack s))
    (sent : ∀ payload count, kept (handOver curTs { ack := true } false payload count s)) :
    kept result.1 := by
  obtain ⟨buf, held⟩ := flushPass_held done
  rcases (flushPass_cases held done).2 with ⟨rfl, -⟩ | rfl | rfl | ⟨count, -, -, -, -, rfl⟩
  · exact same
  · exact same
  · exact wack
  · exact sent ..

theorem flushLoop_preserves {kept : TcpStream → Prop}
    (pass : ∀ output s result, kept s → flushPass output curTs s = .ok result → kept result.1) :
    ∀ buffers s packets result, kept s → flushLoop curTs buffers s packets = .ok result →
      kept result.1 := by
  intro buffers
  induction buffers with
  | zero =>
    intro s packets result before done
    obtain ⟨⟨after, last⟩, passed, finish⟩ := bind_ok done
    cases finish
    exact pass false s _ before passed
  | succ buffers ih =>
    intro s packets result before done
    obtain ⟨⟨after, last⟩, passed, finish⟩ := bind_ok done
    have between := pass true s _ before passed
    cases last with
    | drained | blocked => cases finish; exact between
    | sent => exact ih after (packets + 1) result between finish

def Action.IsSent : Action → Prop
  | .sent _ => True
  | _ => False

def Action.IsBare : Action → Prop
  | .sent packet => packet.payload = []
  | _ => False

theorem Action.IsBare.isSent {action : Action} (bare : action.IsBare) : action.IsSent := by
  cases action <;> trivial

structure Flushed (s t : TcpStream) : Prop where
  steady : Steady s t
  seqs : t.seqs = { s.seqs with sndNxt := t.seqs.sndNxt }
  irs : t.rcv.irs = s.rcv.irs
  ctl : { t.ctl with tsLastackSent := s.ctl.tsLastackSent, tsRto := s.ctl.tsRto } = s.ctl
  lists : { t.lists with
    onAckList := s.lists.onAckList, isWack := s.lists.isWack
    onRtoList := s.lists.onRtoList } = s.lists
  history : Grows Action.IsSent s.history t.history

theorem Flushed.refl (s : TcpStream) : Flushed s s :=
  ⟨.refl s, rfl, rfl, rfl, rfl, .refl _ _⟩

theorem handOver_flushed (curTs : UInt32) (payload : List UInt8) (count : Nat) (s : TcpStream) :
    Flushed s (handOver curTs { ack := true } false payload count s) where
  steady := ⟨rfl, rfl, rfl, rfl⟩
  seqs := by simp [handOver]
  irs := rfl
  ctl := rfl
  lists := by
    simp only [handOver, addtoRTOList]
    split <;> rfl
  history := Grows.cons trivial _

theorem flushPass_flushed {output : Bool} {result : TcpStream × FlushPass}
    (done : flushPass output curTs s = .ok result) : Flushed s result.1 :=
  flushPass_keeps done (.refl s) ⟨⟨rfl, rfl, rfl, rfl⟩, rfl, rfl, rfl, rfl, .refl _ _⟩
    fun payload count => handOver_flushed curTs payload count s

def TcpState.sending : TcpState → Bool
  | .established | .closeWait | .finWait1 | .lastAck => true
  | _ => false

theorem serveData_cases {buffers result} (done : serveData buffers curTs s = .ok result) :
    result.1 = s ∨ s.state.sending = true ∧ flushTCPSendingBuffer buffers curTs s = .ok result := by
  unfold serveData at done
  cases state : s.state <;> rw [state] at done <;> dsimp only at done
  case established =>
    split at done
    · cases done
      exact .inl rfl
    · exact .inr ⟨rfl, done⟩
  case closeWait | finWait1 | lastAck => exact .inr ⟨rfl, done⟩
  all_goals
    cases done
    exact .inl rfl

theorem writeTCPDataList_preserves {kept : TcpStream → Prop} {buffers : Nat}
    (pass : ∀ {output u result}, u.state.sending = true → kept u →
      flushPass output curTs u = .ok result → kept result.1)
    (finish : ∀ {packets u}, kept u → kept (finishData packets u)) (before : kept s)
    (done : writeTCPDataList buffers curTs s = .ok t) : kept t := by
  obtain ⟨⟨after, ret⟩, serve, ends⟩ := bind_ok done
  have served : kept after := by
    rcases serveData_cases serve with same | ⟨sending, flush⟩
    · exact (show after = s from same) ▸ before
    · unfold flushTCPSendingBuffer at flush
      split at flush
      · cases flush
      · split at flush
        · cases flush
          exact before
        · have both := @flushLoop_preserves curTs (fun u => kept u ∧ u.state.sending = true)
            fun _ u _ now passed => ⟨pass now.2 now.1 passed,
              (flushPass_flushed passed).steady.state ▸ now.2⟩
          exact (both buffers s 0 _ ⟨before, sending⟩ flush).1
  cases ends
  split
  · exact served
  · exact finish served

section

variable (curTs : UInt32)

theorem handOver_bare (wack : Bool) (s : TcpStream) :
    Flushed s (handOver curTs { ack := true } wack [] 0 s) ∧
      (handOver curTs { ack := true } wack [] 0 s).seqs = s.seqs ∧
      (handOver curTs { ack := true } wack [] 0 s).lists = s.lists ∧
      Grows Action.IsBare s.history (handOver curTs { ack := true } wack [] 0 s).history := by
  have seqs : (handOver curTs { ack := true } wack [] 0 s).seqs = s.seqs := by
    simp [handOver]
  refine ⟨⟨⟨rfl, rfl, rfl, rfl⟩, by rw [seqs], rfl, rfl, rfl, Grows.cons trivial _⟩, seqs, rfl,
    Grows.cons ?_ _⟩
  rfl

theorem sendACK_spec (output : Bool) (curTs : UInt32) (wack : Bool) (s : TcpStream) :
    Flushed s (sendTCPPacket output curTs { ack := true } wack [] 0 s).1 ∧
      (sendTCPPacket output curTs { ack := true } wack [] 0 s).1.seqs = s.seqs ∧
      (sendTCPPacket output curTs { ack := true } wack [] 0 s).1.lists = s.lists ∧
      Grows Action.IsBare s.history
        (sendTCPPacket output curTs { ack := true } wack [] 0 s).1.history := by
  rcases sendTCPPacket_cases output curTs { ack := true } wack [] 0 s with
    ⟨same, -, -⟩ | ⟨-, -, sent⟩
  · rw [same]
    exact ⟨.refl s, rfl, rfl, .refl _ _⟩
  · rw [sent]
    exact handOver_bare curTs wack s

structure AckServed (s t : TcpStream) : Prop extends Unmoved s t where
  irs : t.rcv.irs = s.rcv.irs
  ctl : { t.ctl with tsLastackSent := s.ctl.tsLastackSent, tsRto := s.ctl.tsRto } = s.ctl
  lists : { t.lists with
    onAckList := s.lists.onAckList, isWack := s.lists.isWack
    ackCnt := s.lists.ackCnt } = s.lists
  history : Grows Action.IsBare s.history t.history

theorem AckServed.refl (s : TcpStream) : AckServed s s :=
  ⟨.refl s, rfl, rfl, rfl, .refl _ _⟩

theorem AckServed.trans (first : AckServed s t) (second : AckServed t u) : AckServed s u  where
  toUnmoved := first.toUnmoved.trans second.toUnmoved
  irs := second.irs.trans first.irs
  ctl := by
    have firstCtl := first.ctl
    rw [← second.ctl] at firstCtl
    rw [← firstCtl]
  lists := by
    have firstLists := first.lists
    have secondLists := second.lists
    rw [← secondLists] at firstLists
    rw [← firstLists]
  history := first.history.trans second.history

theorem ackLoop_preserves {kept : TcpStream → Prop}
    (send : ∀ {u} output, kept u → kept (sendBare output curTs { ack := true } u).1)
    (count : ∀ {u} ackCnt, kept u → kept { u with lists := { u.lists with ackCnt } }) (rounds : Nat) :
    ∀ {s} buffers, kept s → kept (ackLoop curTs rounds buffers s).1 := by
  induction rounds with
  | zero => exact fun _ before => before
  | succ rounds ih =>
    intro s buffers before
    have sent := send (0 < buffers) before
    unfold ackLoop
    dsimp only
    split
    · exact sent
    · exact ih _ (count _ sent)

theorem serveACKs_preserves {kept : TcpStream → Prop}
    (send : ∀ {u} output wack, kept u → kept (sendTCPPacket output curTs { ack := true } wack [] 0 u).1)
    (relist : ∀ {u} onAckList isWack ackCnt, kept u →
      kept { u with lists := { u.lists with onAckList, isWack, ackCnt } })
    (buffers : Nat) (before : kept s) : kept (serveACKs buffers curTs s) := by
  unfold serveACKs
  split
  · have looped := ackLoop_preserves curTs (fun output now => send output false now)
      (fun {u} ackCnt now => relist u.lists.onAckList u.lists.isWack ackCnt now)
      s.lists.ackCnt.toNat buffers before
    generalize ackLoop curTs s.lists.ackCnt.toNat buffers s = result at looped ⊢
    obtain ⟨acked, left⟩ := result
    have asked : kept (sendWack left curTs acked) := by
      unfold sendWack
      split
      · exact relist _ _ _ (send (0 < left) true looped)
      · exact looped
    exact relist _ _ _ asked
  · exact relist _ _ _ before

theorem sendACK_served (output wack : Bool) (s : TcpStream) :
    AckServed s (sendTCPPacket output curTs { ack := true } wack [] 0 s).1 := by
  obtain ⟨flushed, seqs, lists, history⟩ := sendACK_spec output curTs wack s
  exact ⟨⟨flushed.steady, seqs⟩, flushed.irs, flushed.ctl, by rw [lists], history⟩

theorem serveACKs_served (buffers : Nat) (curTs : UInt32) (s : TcpStream) :
    AckServed s (serveACKs buffers curTs s) := by
  refine serveACKs_preserves curTs (fun output wack before => before.trans ?_)
    (fun _ _ _ before => before.trans ?_) buffers (AckServed.refl s)
  · exact sendACK_served curTs output wack _
  · exact ⟨⟨⟨rfl, rfl, rfl, rfl⟩, rfl⟩, rfl, rfl, rfl, .refl _ _⟩

theorem mtcpRecv_cases {len} (done : mtcpRecv len s = .ok t) :
    t = s ∨ ∃ rcv : RecvVars, rcv.irs = s.rcv.irs ∧
      (t = { s with rcv } ∨ t = { s with
        rcv
        queues := { s.queues with onAckq := true, ackq := s.queues.ackq + 1 } }) := by
  unfold mtcpRecv at done
  split at done
  · cases done
    exact .inl rfl
  · split at done
    · obtain ⟨⟨after, count⟩, remove, rest⟩ := bind_ok done
      dsimp only at rest
      split at rest <;> cases rest
      · refine .inr ⟨_, ?_, .inr rfl⟩
        rfl
      · refine .inr ⟨_, ?_, .inl rfl⟩
        rfl
    · cases done
      exact .inl rfl

theorem addtoSendList_ok (done : addtoSendList s = .ok t) :
    s.seqs.sndbuf ≠ none ∧ t = { s with lists := { s.lists with onSendList := true } } := by
  unfold addtoSendList at done
  split at done
  · cases done
  · rename_i buf held
    cases done
    exact ⟨by rw [held]; nofun, rfl⟩

theorem retransmit_cases (done : retransmit s = .ok t) :
    (s.state = .established ∨ s.state = .closeWait) ∧ s.seqs.sndbuf ≠ none ∧
        t = { s with
          seqs := { s.seqs with sndNxt := s.seqs.sndUna }
          lists := { s.lists with onSendList := true } } ∨
      (s.state = .finWait1 ∨ s.state = .closing ∨ s.state = .lastAck) ∧
        (t = { s with
            seqs := { s.seqs with sndNxt := s.seqs.sndUna }
            lists := { s.lists with
              onSendList := true, onControlList := false, controlListWaiting := true } } ∨
          t = addtoControlList { s with seqs := { s.seqs with sndNxt := s.seqs.sndUna } }) ∨
      (s.state = .synSent ∨ s.state = .synRcvd) ∧
        t = addtoControlList { s with seqs := { s.seqs with sndNxt := s.seqs.sndUna } } ∨
      s.state = .synRcvd ∧ destroyTCPStream s = .ok t := by
  unfold retransmit at done
  dsimp only at done
  split at done
  case h_1 state | h_2 state =>
    obtain ⟨present, after⟩ := addtoSendList_ok done
    exact .inl ⟨by simp [state], present, after⟩
  case h_3 state | h_4 state | h_5 state =>
    refine .inr (.inl ⟨by simp [state], ?_⟩)
    split at done
    · exact .inl (addtoSendList_ok done).2
    · exact .inr (Except.ok.inj done).symm
  case h_6 state => exact .inr (.inr (.inl ⟨.inl state, (Except.ok.inj done).symm⟩))
  case h_7 state =>
    split at done
    · exact .inr (.inr (.inr ⟨state, done⟩))
    · exact .inr (.inr (.inl ⟨.inr state, (Except.ok.inj done).symm⟩))
  all_goals cases done

theorem handleRTO_cases (done : handleRTO s = .ok t) :
    t = s ∨ s.closeReason = .notClosed ∧
      (s.state.number < TcpState.established.number ∧
          destroyTCPStream { s with state := .closed, closeReason := .connFail } = .ok t ∨
        Ended { s with state := .closed, closeReason := .connLost } t ∨
        s.state = .synSent ∧
          Ended { backOff s with state := .closed, closeReason := .connFail } t ∨
        retransmit (backOff s) = .ok t) := by
  unfold handleRTO at done
  split at done
  · cases done
  · split at done
    · exact .inl (Except.ok.inj done).symm
    · rename_i alive
      refine .inr ⟨not_not.mp alive, ?_⟩
      split at done
      · unfold giveUp at done
        split at done
        · exact .inl ⟨‹_›, done⟩
        · exact .inr (.inl (ended_of_ite done))
      · dsimp only at done
        split at done
        · rename_i failed
          exact .inr (.inr (.inl ⟨failed.1, ended_of_ite done⟩))
        · exact .inr (.inr (.inr done))

def controlSent (curTs : UInt32) (s : TcpStream) : TcpStream :=
  handOver curTs (controlFlags s) false [] (phantomLength (controlFlags s))
    (controlBase (removeFromControlList s))

theorem controlSent_steady (s : TcpStream) : Steady s (controlSent curTs s) := by
  unfold controlSent controlBase
  split <;> exact ⟨rfl, rfl, rfl, rfl⟩

theorem controlSent_lists (s : TcpStream) : (controlSent curTs s).lists = { s.lists with
      onControlList := false
      onRtoList := s.lists.onRtoList ||
        (phantomLength (controlFlags s) ≠ 0 && !s.lists.onTimewaitList) } := by
  by_cases bare : phantomLength (controlFlags s) = 0 <;> unfold controlSent controlBase <;> split <;>
    simp [handOver, bare, addtoRTOList, removeFromControlList]

theorem controlSent_seqs (s : TcpStream) : (controlSent curTs s).seqs = { (controlBase s).seqs with
      sndNxt := (controlBase s).seqs.sndNxt + UInt32.ofNat (phantomLength (controlFlags s))
      isFinSent := s.seqs.isFinSent || (controlFlags s).fin } := by
  have state : (removeFromControlList s).state = s.state := rfl
  unfold controlSent handOver controlBase
  rw [state]
  split <;> simp [removeFromControlList]

end

theorem writeTCPControlList_cases {output} (done : writeTCPControlList output curTs s = .ok t) :
    s.state = .listen ∧ t = removeFromControlList s ∨
      s.state ≠ .listen ∧
        (controlDeferred s = true ∧ t = addtoControlList s ∨
          controlDeferred s = false ∧
            ((output = true → s.ctl.mss.toNat < calculateOptionLength (controlFlags s)) ∧
                t = addtoControlList (controlBase s) ∨
              output = true ∧ calculateOptionLength (controlFlags s) ≤ s.ctl.mss.toNat ∧
                (s.state ≠ .closed ∧ t = controlSent curTs s ∨
                  s.state = .closed ∧ destroyTCPStream (controlSent curTs s) = .ok t))) := by
  have flags : controlFlags (removeFromControlList s) = controlFlags s := rfl
  have deferred : controlDeferred (removeFromControlList s) = controlDeferred s := rfl
  have state : (removeFromControlList s).state = s.state := rfl
  have based : addtoControlList (controlBase (removeFromControlList s)) =
      addtoControlList (controlBase s) := by
    unfold controlBase
    rw [state]
    split <;> rfl
  have mss : (controlBase (removeFromControlList s)).ctl.mss = s.ctl.mss := by
    unfold controlBase
    split <;> rfl
  unfold writeTCPControlList sendControlPacket at done
  rw [flags, deferred, state] at done
  obtain ⟨⟨after, ret⟩, control, finish⟩ := bind_ok done
  split at control
  · cases control
    cases finish
    exact .inl ⟨‹_›, rfl⟩
  · refine .inr ⟨‹_›, ?_⟩
    split at control
    · cases control
      cases finish
      exact .inl ⟨‹_›, rfl⟩
    · refine .inr ⟨Bool.eq_false_iff.mpr ‹_›, ?_⟩
      unfold sendBare at control
      rcases sendTCPPacket_cases output curTs (controlFlags s) false [] 0
          (controlBase (removeFromControlList s)) with ⟨same, failed, short⟩ | ⟨on, fits, sent⟩
      · rw [mss] at short
        dsimp only at control
        rw [if_neg (by omega)] at control
        cases control
        cases finish
        refine .inl ⟨?_, ?_⟩
        · intro on
          simpa using short on
        · rw [if_pos failed, same, based]
      · rw [mss] at fits
        have length : handOver curTs (controlFlags s) false (List.take (UInt16.toNat 0) [])
            (UInt16.toNat 0 + phantomLength (controlFlags s))
            (controlBase (removeFromControlList s)) = controlSent curTs s := by
          simp [controlSent]
        rw [length] at sent
        refine .inr ⟨on, by simpa using fits, ?_⟩
        have nonnegative : ¬((UInt16.toNat 0 + phantomLength (controlFlags s) : Nat) : Int) < 0 :=
          Int.not_lt.mpr (Int.natCast_nonneg _)
        rw [sent] at control
        dsimp only at control
        split at control
        · rename_i closed
          obtain ⟨destroyed, destroy, kept⟩ := bind_ok control
          cases kept
          cases finish
          rw [if_neg nonnegative]
          exact .inr ⟨closed.1, destroy⟩
        · rename_i other
          cases control
          cases finish
          rw [if_neg nonnegative]
          exact .inl ⟨fun closed => other ⟨closed, Int.natCast_nonneg _⟩, rfl⟩

theorem writeTCPControlList_preserves {kept : TcpStream → Prop} {output}
    (waits : ∀ sndNxt onControlList, kept { s with
      seqs := { s.seqs with sndNxt }, lists := { s.lists with onControlList } })
    (sends : ∀ {u}, kept u →
      kept (handOver curTs (controlFlags s) false [] (phantomLength (controlFlags s)) u))
    (destroys : ∀ {u}, kept u → destroyTCPStream u = .ok t → kept t)
    (done : writeTCPControlList output curTs s = .ok t) : kept t := by
  have sent : kept (controlSent curTs s) := by
    refine sends ?_
    unfold controlBase
    split <;> exact waits _ _
  rcases writeTCPControlList_cases done with
    ⟨-, rfl⟩ | ⟨-, ⟨-, rfl⟩ | ⟨-, ⟨-, rfl⟩ | ⟨-, -, ⟨-, rfl⟩ | ⟨-, destroy⟩⟩⟩⟩
  · exact waits _ _
  · exact waits _ _
  · unfold controlBase
    split <;> exact waits _ _
  · exact sent
  · exact destroys sent destroy

end Mcc
