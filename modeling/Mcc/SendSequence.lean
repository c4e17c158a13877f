import Mcc.SendOrder

/-!
The send sequence variables over whole runs: timers, list services, queues and calls keep them in
order as well, so that the assertions of `FlushTCPSendingBuffer` hold.
-/

namespace Mcc

open TcpStream

open SerialNumber TcpSendBuffer
open UInt32 (reduceToNat toNat_add toNat_sub)

variable {buf : TcpSendBuffer}

theorem Ordered.sent {seqs count} (ordered : Ordered buf seqs)
    (room : buf.ahead seqs.sndNxt + count ≤ buf.len.toNat) :
    Ordered buf { seqs with sndNxt := seqs.sndNxt + UInt32.ofNat count } ∧
      buf.ahead (seqs.sndNxt + UInt32.ofNat count) = buf.ahead seqs.sndNxt + count := by
  have lenLt := ordered.len_lt
  have next : buf.ahead (seqs.sndNxt + UInt32.ofNat count) = buf.ahead seqs.sndNxt + count := by
    unfold ahead at *
    simp only [toNat_sub, toNat_add, UInt32.toNat_ofNat'] at *
    omega
  refine ⟨⟨ordered.valid, ?_, ?_, ordered.una⟩, next⟩
  · exact Nat.le_trans (Nat.le_add_right_of_le ordered.una_le) (Nat.le_of_eq next.symm)
  · exact Nat.le_trans (Nat.le_of_eq next) (Nat.le_add_right_of_le room)

namespace SendInv

variable {v : SendView}

theorem rewound {onSendList} (inv : SendInv v) (settled : v.state.opening = false)
    (present : v.state.writable = true → v.seqs.sndbuf ≠ none) :
    SendInv { v with seqs := { v.seqs with sndNxt := v.seqs.sndUna }, onSendList } := by
  refine inv.moved settled ?_ (.inl rfl) id ?_ (fun buf held => ⟨buf, held, rfl, rfl⟩) ?_
  · intro buf held
    have ordered := inv.ordered buf held
    exact ⟨ordered.valid, Nat.le_refl _, Nat.le_trans ordered.una_le ordered.nxt_le, ordered.una⟩
  · exact fun absent writable => absurd absent (present writable)
  · intro _ _ buf held
    rcases (inv.ordered buf held).una with atHead | ⟨-, empty, -⟩
    · exact .inl (Nat.le_trans (Nat.le_of_eq atHead) (Nat.zero_le _))
    · exact .inr empty

theorem sent {count} (inv : SendInv v) (settled : v.state.opening = false)
    (held : v.seqs.sndbuf = some buf) (room : buf.ahead v.seqs.sndNxt + count ≤ buf.len.toNat) :
    SendInv { v with
      seqs := { v.seqs with sndNxt := v.seqs.sndNxt + UInt32.ofNat count } } := by
  obtain ⟨ordered, next⟩ := (inv.ordered buf held).sent room
  refine inv.moved settled ?_ (.inl rfl) id ?_ (fun buf held => ⟨buf, held, rfl, rfl⟩) ?_
  · intro other same
    obtain rfl : buf = other := by simpa [held] using same
    exact ordered
  · exact fun absent => absurd held (by simp [show v.seqs.sndbuf = none from absent])
  · intro _ _ other same
    obtain rfl : buf = other := by simpa [held] using same
    exact .inl (Nat.le_trans (Nat.le_of_eq next) room)

theorem finSent (inv : SendInv v) (finishing : v.state.finishing = true)
    (place : ∀ buf, v.seqs.sndbuf = some buf → buf.ahead v.seqs.sndNxt ≤ buf.len.toNat)
    (idle : v.state = .finWait1 ∨ v.state = .lastAck → v.onSendList = false ∧ v.sendq = 0) :
    SendInv { v with
      seqs := { v.seqs with sndNxt := v.seqs.sndNxt + 1, isFinSent := true } } := by
  refine inv.moved ?_ ?_ (.inr finishing) id ?_ (fun buf held => ⟨buf, held, rfl, rfl⟩) ?_
  · cases state : v.state <;> rw [state] at finishing <;> first | rfl | cases finishing
  · intro buf held
    have ordered := inv.ordered buf held
    have lenLt := ordered.len_lt
    have atNxt := place buf held
    have next : buf.ahead (v.seqs.sndNxt + 1) = buf.ahead v.seqs.sndNxt + 1 := by
      unfold ahead at *
      simp only [toNat_sub, toNat_add, reduceToNat] at *
      omega
    have unaLe := ordered.una_le
    refine ⟨ordered.valid, ?_, ?_, ?_⟩
    · dsimp only
      omega
    · dsimp only [Bool.toNat_true]
      omega
    · exact ordered.una.imp_right fun last => ⟨rfl, last.2⟩
  · intro _ writable
    cases state : v.state <;> rw [state] at finishing writable <;> contradiction
  · intro state listed
    obtain ⟨unlisted, drained⟩ := idle state
    rw [show v.onSendList = false from unlisted, drained] at listed
    rcases listed with listed | listed <;> cases listed

theorem relisted {onSendList sendq} (inv : SendInv v)
    (before : onSendList = true ∨ 0 < sendq → v.onSendList = true ∨ 0 < v.sendq) :
    SendInv { v with onSendList, sendq } where
  __ := inv
  flushable state listed := inv.flushable state (before listed)

theorem finalized {closeq closeqInt fss} (inv : SendInv v) (queued : 0 < v.closeq ∨ 0 < v.closeqInt)
    (final : ∀ buf, v.seqs.sndbuf = some buf → fss = buf.headSeq + buf.len) :
    SendInv { v with seqs := { v.seqs with fss }, closeq, closeqInt } := by
  have released := inv.released (queued.imp_right .inl)
  exact { inv with
    ordered := fun buf held => { inv.ordered buf held with }
    received := fun state => by
      obtain ⟨-, -, noClose, noCloseInt⟩ := inv.received state
      rw [noClose, noCloseInt] at queued
      rcases queued with queued | queued <;> cases queued
    released := fun _ => released
    final := fun _ => final }

theorem closing (inv : SendInv v) (released : v.socket = false ∧ v.acceptq = 0)
    (final : ∀ buf, v.seqs.sndbuf = some buf → v.seqs.fss = buf.headSeq + buf.len) :
    SendInv { v with state := closingState v.state } := by
  cases writable : v.state.writable with
  | false =>
    have same : closingState v.state = v.state := by
      cases state : v.state <;> rw [state] at writable <;> first | rfl | cases writable
    rw [same]
    exact inv
  | true =>
    have later : closingState v.state = .finWait1 ∨ closingState v.state = .lastAck := by
      cases state : v.state <;> rw [state] at writable <;>
        first | exact .inl rfl | exact .inr rfl | cases writable
    have open' : 0 < v.destroyq → v.live = true → False := by
      intro queued live
      rcases inv.doomed queued live with state | state <;> rw [state] at writable <;>
        cases writable
    have short : ∀ buf, v.seqs.sndbuf = some buf → buf.ahead v.seqs.sndNxt ≤ buf.len.toNat := by
      intro buf held
      cases live : v.live with
      | false =>
        rw [(inv.dead live).1] at held
        cases held
      | true =>
        have bound := (inv.ordered buf held).nxt_le
        rw [(inv.writable live writable).1] at bound
        exact bound
    generalize closingState v.state = state at later ⊢
    rcases later with rfl | rfl
    all_goals exact { inv with
      early := nofun
      received := nofun
      writable := nofun
      released := fun _ => released
      final := fun _ => final
      flushable := fun _ _ buf held => .inl (short buf held)
      dead := fun gone => ⟨(inv.dead gone).1, nofun⟩
      doomed := fun queued live => (open' queued live).elim }

end SendInv

variable {s t : TcpStream}

theorem Ended.sendInv {u} (ended : Ended t u) (inv : SendInv s.sendView)
    (view : t.sendView = { s.sendView with state := .closed }) : SendInv u.sendView := by
  rcases ended with ⟨-, rfl⟩ | ⟨-, destroy⟩
  · have same : (raise .error t).sendView = t.sendView := rfl
    rw [same, view]
    exact inv.closed
  · have seqs : t.seqs = s.seqs := congrArg SendView.seqs view
    have onSendList : t.lists.onSendList = s.lists.onSendList := congrArg SendView.onSendList view
    refine destroy_sendInv inv destroy ?_
    rw [view, seqs, onSendList]
    rfl

theorem controlSent_view (curTs : UInt32) (s : TcpStream) :
    (controlSent curTs s).sendView = { s.sendView with seqs := (controlSent curTs s).seqs } := by
  rw [(controlSent_steady curTs s).sendView, controlSent_lists]
  rfl

/-- What the order relies on when a FIN leaves: it has not been counted in `snd_nxt` yet, and no
data waits in `sendq`. -/
def FinOrderly (s : TcpStream) : Prop :=
  s.state = .finWait1 ∨ s.state = .lastAck → controlDeferred s = false →
    s.queues.sendq = 0 ∧ (s.seqs.isFinSent = true → s.seqs.sndNxt ≠ s.seqs.fss + 1)

theorem fin_place (inv : SendInv s.sendView) (finishing : s.state.finishing = true)
    (uncounted : s.seqs.isFinSent = true → s.seqs.sndNxt ≠ s.seqs.fss + 1) :
    ∀ buf, s.seqs.sndbuf = some buf → buf.ahead s.seqs.sndNxt ≤ buf.len.toNat := by
  intro buf held
  have ordered := inv.ordered buf held
  have bound := ordered.nxt_le
  have final : s.seqs.fss = buf.headSeq + buf.len := inv.final (.inr finishing) buf held
  change buf.ahead s.seqs.sndNxt ≤ buf.len.toNat + s.seqs.isFinSent.toNat at bound
  cases sent : s.seqs.isFinSent with
  | false =>
    rw [sent] at bound
    exact bound
  | true =>
    have other := uncounted sent
    rw [final] at other
    have different : s.seqs.sndNxt.toNat ≠ (buf.headSeq + buf.len + 1).toNat :=
      fun same => other (UInt32.toNat_inj.mp same)
    rw [sent] at bound
    unfold ahead at *
    simp only [toNat_sub, toNat_add, reduceToNat, Bool.toNat_true] at *
    have headBound := buf.headSeq.toNat_lt
    have nxtBound := s.seqs.sndNxt.toNat_lt
    omega

variable {curTs : UInt32}

theorem controlSent_fin (inv : SendInv s.sendView) (finishing : s.state.finishing = true)
    (isFin : (controlFlags s).fin = true)
    (uncounted : s.seqs.isFinSent = true → s.seqs.sndNxt ≠ s.seqs.fss + 1)
    (idle : s.state = .finWait1 ∨ s.state = .lastAck →
      s.lists.onSendList = false ∧ s.queues.sendq = 0) : SendInv (controlSent curTs s).sendView := by
  have seqs : (controlSent curTs s).seqs =
      { s.seqs with sndNxt := s.seqs.sndNxt + 1, isFinSent := true } := by
    have other : s.state ≠ .synRcvd := by
      intro received
      rw [received] at finishing
      cases finishing
    rw [controlSent_seqs, controlBase, if_neg other]
    simp [phantomLength, isFin]
  rw [controlSent_view, seqs]
  exact inv.finSent finishing (fin_place inv finishing uncounted) idle

theorem controlSent_sendInv (inv : SendInv s.sendView) (safe : FinOrderly s)
    (deferred : controlDeferred s = false) : SendInv (controlSent curTs s).sendView := by
  have unchanged : s.state ≠ .synRcvd → (controlFlags s).syn = false →
      (controlFlags s).fin = false → SendInv (controlSent curTs s).sendView := by
    intro other noSyn noFin
    have seqs : (controlSent curTs s).seqs = s.seqs := by
      rw [controlSent_seqs, controlBase, if_neg other]
      simp [phantomLength, noSyn, noFin]
    rw [controlSent_view, seqs]
    exact inv
  have early : s.state.opening = true → SendInv (controlSent curTs s).sendView := by
    intro opening
    obtain ⟨absent, notSent, -⟩ := inv.early opening
    have noFin : (controlFlags s).fin = false := by
      cases state : s.state <;> rw [state] at opening <;> first | cases opening; done | skip
      all_goals simp [controlFlags, state]
    rw [controlSent_view]
    refine inv.opening opening ?_ ?_ <;> rw [controlSent_seqs]
    · unfold controlBase
      split <;> exact absent
    · simpa [noFin] using (show s.seqs.isFinSent = false from notSent)
  cases state : s.state
  case listen | synSent | synRcvd => exact early (by rw [state]; rfl)
  case established | closeWait | finWait2 | timeWait | closed =>
    exact unchanged (by simp [state]) (by simp [controlFlags, state])
      (by simp [controlFlags, state])
  case finWait1 | lastAck =>
    obtain ⟨drained, uncounted⟩ := safe (by simp [state]) deferred
    refine controlSent_fin inv (by rw [state]; rfl) (by simp [controlFlags, state]) uncounted
      fun _ => ⟨?_, drained⟩
    simp only [controlDeferred, state, Bool.or_eq_false_iff] at deferred
    exact deferred.1
  case closing =>
    cases passed : s.seqs.isFinSent && decide (s.seqs.sndNxt ≠ s.seqs.fss) with
    | true =>
      refine unchanged (by simp [state]) ?_ ?_ <;> simp only [controlFlags, state, passed] <;>
        rfl
    | false =>
      refine controlSent_fin inv (by rw [state]; rfl) ?_ ?_ (by simp [state])
      · simp only [controlFlags, state, passed]
        rfl
      · intro sent counted
        rw [sent, counted] at passed
        have apart : s.seqs.fss + 1 ≠ s.seqs.fss := by
          intro same
          have values := congrArg UInt32.toNat same
          simp only [toNat_add, reduceToNat] at values
          omega
        simp [apart] at passed

theorem writeTCPControlList_sendInv {output} (inv : SendInv s.sendView) (safe : FinOrderly s)
    (done : writeTCPControlList output curTs s = .ok t) : SendInv t.sendView := by
  rcases writeTCPControlList_cases done with
    ⟨-, rfl⟩ | ⟨-, ⟨-, rfl⟩ | ⟨ready, ⟨-, rfl⟩ | ⟨-, -, ⟨-, rfl⟩ | ⟨closed, destroy⟩⟩⟩⟩
  · exact inv
  · exact inv
  · unfold controlBase
    split
    · rename_i received
      have opening : s.sendView.state.opening = true := by
        rw [show s.sendView.state = _ from received]
        rfl
      obtain ⟨absent, notSent, -⟩ := inv.early opening
      exact inv.opening opening absent notSent
    · exact inv
  · exact controlSent_sendInv inv safe ready
  · refine destroy_sendInv inv destroy ?_
    rw [controlSent_view, controlSent_lists]
    simp [sendView, closed]

theorem handOver_view (curTs : UInt32) (payload : List UInt8) (count : Nat) (s : TcpStream) :
    (handOver curTs { ack := true } false payload count s).sendView = { s.sendView with
      seqs := { s.seqs with sndNxt := s.seqs.sndNxt + UInt32.ofNat count } } := by
  have flushed := handOver_flushed curTs payload count s
  have onSendList : (handOver curTs { ack := true } false payload count s).lists.onSendList =
      s.lists.onSendList := by simpa using congrArg Lists.onSendList flushed.lists
  rw [flushed.steady.sendView, onSendList]
  simp [sendView, handOver]

theorem flush_room {nxt count} (inside : nxt - buf.headSeq ≤ buf.len)
    (short : count ≤ (buf.len - (nxt - buf.headSeq)).toNat) : buf.ahead nxt + count ≤ buf.len.toNat := by
  rw [UInt32.toNat_sub_of_le _ _ inside] at short
  have bound := UInt32.le_iff_toNat_le.mp inside
  unfold ahead
  omega

theorem flushPass_sendInv {output result} (inv : SendInv s.sendView) (settled : s.state.opening = false)
    (done : flushPass output curTs s = .ok result) : SendInv result.1.sendView := by
  obtain ⟨buf, held⟩ := flushPass_held done
  obtain ⟨inside, ⟨rfl, -⟩ | rfl | rfl | ⟨count, -, -, short, -, rfl⟩⟩ := flushPass_cases held done
  · exact inv
  · exact inv
  · exact inv
  · rw [handOver_view]
    exact inv.sent settled held (flush_room inside short)

theorem writeTCPACKList_sendInv (buffers : Nat) (curTs : UInt32) (inv : SendInv s.sendView) :
    SendInv (writeTCPACKList buffers curTs s).sendView := by
  have served := serveACKs_served buffers curTs s
  have onSendList : (serveACKs buffers curTs s).lists.onSendList = s.lists.onSendList := by
    simpa using congrArg Lists.onSendList served.lists
  have view : (writeTCPACKList buffers curTs s).sendView = s.sendView := by
    have same : (writeTCPACKList buffers curTs s).sendView = (serveACKs buffers curTs s).sendView :=
      rfl
    rw [same, served.toSteady.sendView, served.seqs, onSendList]
    rfl
  rw [view]
  exact inv

theorem sbPut_whole {data sndlen after} (valid : buf.Valid)
    (above : 0 < sndlen) (supply : sndlen ≤ data.length)
    (put : sbPut buf data sndlen = .ok (after, sndlen)) :
    after.Valid ∧ after.headSeq = buf.headSeq ∧ buf.len.toNat ≤ after.len.toNat ∧
      after.removed = buf.removed := by
  have room := sbPut_room valid above put
  obtain ⟨result, result_eq, validAfter, headSeq, -, len, cumLen, -⟩ :=
    sbPut_spec valid supply above room
  rw [result_eq] at put
  cases put
  have counted := valid.counted
  refine ⟨validAfter, headSeq, by omega, ?_⟩
  simp only [removed]
  omega

theorem SendInv.unfinished {v} (inv : SendInv v) (writable : v.state.writable = true)
    (held : v.socket = true) : v.live = true ∧ v.seqs.isFinSent = false ∧
      (v.seqs.sndbuf = none → v.seqs.sndNxt = v.seqs.iss + 1 ∧ v.seqs.sndUna = v.seqs.iss + 1) := by
  cases live : v.live with
  | false => exact Bool.noConfusion (held.symm.trans ((inv.dead live).2 writable).1)
  | true => exact ⟨rfl, inv.writable live writable⟩

theorem SendInv.written {v after sendq} (inv : SendInv v)
    (writable : v.state.writable = true) (held : v.socket = true)
    (ordered : Ordered after { v.seqs with sndbuf := some after }) :
    SendInv { v with seqs := { v.seqs with sndbuf := some after }, sendq } := by
  obtain ⟨live, notSent, -⟩ := inv.unfinished writable held
  have busy : ¬(0 < v.closeq ∨ 0 < v.closeqInt ∨ v.state.finishing = true) := by
    intro late
    have free := (inv.released late).1
    rw [held] at free
    cases free
  exact { inv with
    ordered := fun buf isBuf => by cases isBuf; exact ordered
    early := fun opening => by
      cases state : v.state <;> rw [state] at writable opening <;> contradiction
    writable := fun _ _ => ⟨notSent, nofun⟩
    final := fun late => (busy (.inr late)).elim
    flushable := fun state => by
      rcases state with state | state <;> rw [show v.state = _ from state] at writable <;>
        cases writable
    dead := fun gone => by rw [show v.live = false from gone] at live; cases live }

theorem written_order {after seqs} (ordered : Ordered buf seqs)
    (notSent : seqs.isFinSent = false) (valid : after.Valid) (headSeq : after.headSeq = buf.headSeq)
    (longer : buf.len.toNat ≤ after.len.toNat) : Ordered after { seqs with sndbuf := some after } := by
  have same : ∀ seq, after.ahead seq = buf.ahead seq := by
    intro seq
    rw [ahead, headSeq]
    rfl
  have bound := ordered.nxt_le
  refine ⟨valid, ?_, ?_, .inl ?_⟩
  · simp only [same]
    exact ordered.una_le
  · simp only [same]
    omega
  · rcases ordered.una with atHead | ⟨sent, -⟩
    · rw [same]
      exact atHead
    · rw [notSent] at sent
      cases sent

variable {config : Config}

namespace SendInv

variable {v : SendView}

theorem freed {closeq destroyq} (inv : SendInv v) (held : v.socket = true)
    (doomed : 0 < destroyq → v.live = true → v.state = .closed ∨ v.state = .synSent) :
    SendInv { v with socket := false, closeq, destroyq } where
  __ := inv
  received state := Bool.noConfusion (held.symm.trans (inv.received state).1)
  accept := ⟨inv.accept.1, nofun⟩
  released _ := ⟨rfl, inv.accept.2 held⟩
  dead gone := ⟨(inv.dead gone).1, fun _ => ⟨rfl, inv.accept.2 held⟩⟩
  doomed := doomed

theorem accepted {socket} (inv : SendInv v) (queued : v.acceptq ≠ 0) :
    SendInv { v with socket, acceptq := v.acceptq - 1 } := by
  have early : v.state.opening = true → False := fun opening => queued (inv.early opening).2.2
  have bound := inv.accept.1
  exact { inv with
    early := fun opening => (early opening).elim
    received := fun state => (early (by rw [show v.state = _ from state]; rfl)).elim
    accept := ⟨by dsimp only; omega, fun _ => by dsimp only; omega⟩
    released := fun late => absurd (inv.released late).2 queued
    dead := fun gone =>
      ⟨(inv.dead gone).1, fun writable => absurd ((inv.dead gone).2 writable).2 queued⟩ }

theorem unaccepted (inv : SendInv v) : SendInv { v with acceptq := 0 } where
  __ := inv
  early opening := ⟨(inv.early opening).1, (inv.early opening).2.1, rfl⟩
  accept := ⟨Nat.zero_le 1, fun _ => rfl⟩
  released late := ⟨(inv.released late).1, rfl⟩
  dead gone := ⟨(inv.dead gone).1, fun writable => ⟨((inv.dead gone).2 writable).1, rfl⟩⟩

theorem undoomed {destroyq} (inv : SendInv v) (fewer : destroyq ≤ v.destroyq) :
    SendInv { v with destroyq } where
  __ := inv
  received state := by
    obtain ⟨socket, drained, closeq, closeqInt⟩ := inv.received state
    exact ⟨socket, Nat.le_zero.mp (drained ▸ fewer), closeq, closeqInt⟩
  doomed queued := inv.doomed (Nat.lt_of_lt_of_le queued fewer)

end SendInv

theorem destroy_live (done : destroyTCPStream s = .ok t) : s.onHashTable = true := by
  unfold destroyTCPStream at done
  split at done
  · assumption
  · cases done

theorem settled_of_sending (sending : s.state.sending = true) : s.state.opening = false := by
  cases state : s.state <;> rw [state] at sending <;> first | rfl | cases sending

theorem writable_of_state (state : s.state = .established ∨ s.state = .closeWait) :
    s.state.writable = true := by
  rcases state with state | state <;> rw [state] <;> rfl

theorem closeqTaken_sendInv (inv : SendInv s.sendView) (queued : s.queues.closeq ≠ 0) :
    (∀ count, SendInv { s.sendView with
        seqs := { s.seqs with fss := finalSequence s.seqs }
        closeq := s.queues.closeq - 1
        closeqInt := count }) ∧
      SendInv { s.sendView with
        seqs := { s.seqs with fss := finalSequence s.seqs }
        closeq := s.queues.closeq - 1
        state := closingState s.state } := by
  have waiting : 0 < s.queues.closeq := Nat.pos_of_ne_zero queued
  have final : ∀ buf, s.seqs.sndbuf = some buf → finalSequence s.seqs = buf.headSeq + buf.len := by
    intro buf held
    simp [finalSequence, held]
  have taken : ∀ count, SendInv { s.sendView with
      seqs := { s.seqs with fss := finalSequence s.seqs }
      closeq := s.queues.closeq - 1
      closeqInt := count } := fun count => inv.finalized (.inl waiting) final
  exact ⟨taken, (taken s.queues.closeqInt).closing (inv.released (.inl waiting)) final⟩

theorem source_ordered {chunk data} (inv : SendInv s.sendView)
    (fits : (Step.write chunk data).Fits config) (writable : s.state.writable = true)
    (held : s.socket = true) (source : s.seqs.sndbuf = some buf ∨ s.seqs.sndbuf = none ∧
      ∃ memory, chunk = some memory ∧ buf = sbInit config.sbm memory (s.seqs.iss + 1)) :
    Ordered buf s.seqs := by
  rcases source with present | ⟨absent, memory, rfl, rfl⟩
  · exact inv.ordered buf present
  · obtain ⟨nxt, una⟩ : s.seqs.sndNxt = s.seqs.iss + 1 ∧ s.seqs.sndUna = s.seqs.iss + 1 :=
      (inv.unfinished writable held).2.2 absent
    have start : (sbInit config.sbm memory (s.seqs.iss + 1)).ahead (s.seqs.iss + 1) = 0 := by
      simp [ahead, sbInit]
    refine ⟨sbInit_valid config.sbm _ fits, ?_, ?_, .inl ?_⟩
    · rw [nxt, una]
    · rw [nxt, start]
      exact Nat.zero_le _
    · rw [una, start]

def SafeSend (s : TcpStream) : Step → Prop
  | .segment _ _ _ segment => SafeSegment s segment
  | .writeControl _ _ => FinOrderly s
  | _ => True

theorem stepStream_sendInv {listener taken} (inv : SendInv s.sendView)
    (handshake : Handshake True s) (fits : taken.Fits config) (safe : SafeSend s taken)
    (done : stepStream config listener s taken = .ok t) : SendInv t.sendView := by
  cases stepStream_stepped done
  case segment live done => exact processTCPPacket_sendInv inv handshake live safe done
  case rtoUnopened destroy | timewaitExpire destroy | resetqReset destroy =>
    exact destroy_sendInv inv destroy rfl
  case rtoLost ended | rtoFailed ended | connectionTimeout ended => exact ended.sendInv inv rfl
  case rtoData state present =>
    refine inv.rewound ?_ fun _ => present
    rcases state with state | state <;> simp [sendView, state, TcpState.opening]
  case rtoFinData state | rtoFin state =>
    refine inv.rewound ?_ ?_ <;> rcases state with state | state | state <;>
      simp [sendView, state, TcpState.opening, TcpState.writable]
  case rtoSyn state =>
    have opening : s.sendView.state.opening = true := by
      rcases state with state | state <;> simp [sendView, state, TcpState.opening]
    obtain ⟨absent, notSent, -⟩ := inv.early opening
    exact inv.opening opening absent notSent
  case rtoReset state destroy =>
    rw [destroy_sendView destroy]
    exact inv.destroyed (by simp [sendView, state, TcpState.writable])
  case writeControl done => exact writeTCPControlList_sendInv inv safe done
  case writeData done =>
    refine @writeTCPDataList_preserves s t _ (fun u => SendInv u.sendView) _
      (fun sending before passed => ?_) (fun before => ?_) inv done
    · exact flushPass_sendInv before (settled_of_sending sending) passed
    · exact before.unlisted
  case writeAck => exact writeTCPACKList_sendInv _ _ inv
  case sendq queued => exact inv.relisted fun _ => .inr (Nat.pos_of_ne_zero queued)
  case closeqTaken queued | closeqDeferred queued => exact (closeqTaken_sendInv inv queued).1 _
  case closeqReset queued destroy =>
    rw [destroy_sendView destroy]
    exact ((closeqTaken_sendInv inv queued).1 s.queues.closeqInt).buried rfl
  case closeqWaiting queued | closeqControl queued => exact (closeqTaken_sendInv inv queued).2
  case closeqIntTaken queued | closeqIntControl queued =>
    have waiting := Nat.pos_of_ne_zero queued
    have final := inv.final (.inl waiting)
    have taken : SendInv { s.sendView with closeqInt := s.queues.closeqInt - 1 } :=
      inv.finalized (.inr waiting) final
    first
    | exact taken
    | exact taken.closing (inv.released (.inr (.inl waiting))) final
  case resetqControl | resetqIntControl => exact inv.closed
  case destroyq queued destroy =>
    rw [destroy_sendView destroy]
    refine (inv.undoomed (Nat.sub_le _ 1)).destroyed fun writable => ?_
    have live := destroy_live destroy
    rcases inv.doomed (Nat.pos_of_ne_zero queued) live with state | state <;>
      rw [show s.sendView.state = _ from state] at writable <;> cases writable
  case written held state source above supply put moved =>
    have writable := writable_of_state state
    have ordered := source_ordered inv fits writable held source
    obtain ⟨valid, headSeq, longer, -⟩ := sbPut_whole ordered.valid above supply put
    have order := written_order ordered (inv.unfinished writable held).2.1 valid headSeq longer
    rcases moved with rfl | rfl <;> exact inv.written writable held order
  case recv done => rcases mtcpRecv_cases done with rfl | ⟨rcv, -, rfl | rfl⟩ <;> exact inv
  case closeDestroy held state => exact inv.freed held fun _ _ => state
  case close held | closeQueued held _ | abort held | abortQueued held =>
    exact inv.freed held inv.doomed
  case abortDestroy held => exact inv.closed.freed held fun _ _ => .inl rfl
  case accept queued => exact inv.accepted queued
  case closeListener => exact inv.unaccepted
  all_goals exact inv

def Flushable (s : TcpStream) : Prop :=
  ∃ buf, s.seqs.sndbuf = some buf ∧ Ordered buf s.seqs ∧ buf.ahead s.seqs.sndNxt ≤ buf.len.toNat

theorem flushPass_ok (output : Bool) (curTs : UInt32) (flushable : Flushable s) :
    ∃ result, flushPass output curTs s = .ok result := by
  obtain ⟨buf, held, ordered, inside⟩ := flushable
  have lenLt := ordered.len_lt
  have unaLe := ordered.una_le
  have atHead : buf.ahead buf.headSeq = 0 := by simp [ahead]
  have notBefore : ¬tcpSeqLt s.seqs.sndNxt buf.headSeq := by
    rw [tcpSeqLt_ahead buf, atHead]
    omega
  have notUnacked : ¬tcpSeqLt s.seqs.sndNxt s.seqs.sndUna := by
    rw [tcpSeqLt_ahead buf]
    omega
  have within : s.seqs.sndNxt - buf.headSeq ≤ buf.len := UInt32.le_iff_toNat_le.mpr inside
  have notBeyond : ¬buf.len < s.seqs.sndNxt - buf.headSeq := UInt32.not_lt.mpr within
  have supply : ¬(buf.data.drop (buf.head + (s.seqs.sndNxt - buf.headSeq).toNat)).length <
      (nextPayloadlen (buf.len - (s.seqs.sndNxt - buf.headSeq)) s).toNat := by
    have short := nextPayloadlen_le (buf.len - (s.seqs.sndNxt - buf.headSeq)) s
    rw [UInt32.toNat_sub_of_le _ _ within] at short
    obtain ⟨chunk, -, headEq, tailEq, tailLe, -⟩ := ordered.valid
    unfold ahead at inside
    rw [List.length_drop]
    omega
  unfold flushPass
  rw [held]
  dsimp only
  rw [if_neg notBefore, if_neg notUnacked, if_neg notBeyond]
  split
  · exact ⟨_, rfl⟩
  · split
    · split <;> exact ⟨_, rfl⟩
    · split
      · exact ⟨_, rfl⟩
      · exact ⟨_, rfl⟩

theorem flushPass_flushable {output result}
    (flushable : Flushable s) (done : flushPass output curTs s = .ok result) : Flushable result.1 := by
  obtain ⟨buf, held, ordered, inside⟩ := flushable
  obtain ⟨within, ⟨rfl, -⟩ | rfl | rfl | ⟨count, -, -, short, -, rfl⟩⟩ := flushPass_cases held done
  · exact ⟨buf, held, ordered, inside⟩
  · exact ⟨buf, held, ordered, inside⟩
  · exact ⟨buf, held, ordered, inside⟩
  · have room := flush_room within short
    obtain ⟨order, next⟩ := ordered.sent room
    have seqs := congrArg SendView.seqs (handOver_view curTs
      ((buf.data.drop (buf.head + (s.seqs.sndNxt - buf.headSeq).toNat)).take count.toNat)
      count.toNat s)
    simp only [sendView] at seqs
    unfold Flushable
    rw [seqs]
    exact ⟨buf, held, order, Nat.le_trans (Nat.le_of_eq next) room⟩

theorem flushLoop_ok (curTs : UInt32) : ∀ buffers s packets, Flushable s →
    ∃ result, flushLoop curTs buffers s packets = .ok result := by
  intro buffers
  induction buffers with
  | zero =>
    intro s packets flushable
    obtain ⟨result, pass⟩ := flushPass_ok false curTs flushable
    exact ⟨_, by simp only [flushLoop, pass, bind, Except.bind]; rfl⟩
  | succ buffers ih =>
    intro s packets flushable
    obtain ⟨⟨after, last⟩, pass⟩ := flushPass_ok true curTs flushable
    have still := flushPass_flushable flushable pass
    cases last with
    | drained | blocked => exact ⟨_, by simp only [flushLoop, pass, bind, Except.bind]; rfl⟩
    | sent =>
      obtain ⟨result, rest⟩ := ih after (packets + 1) still
      exact ⟨result, by simp only [flushLoop, pass, bind, Except.bind]; exact rest⟩

theorem writeTCPDataList_ok (buffers : Nat) (curTs : UInt32) (inv : SendInv s.sendView)
    (held : s.seqs.sndbuf = some buf) (listed : s.lists.onSendList = true) :
    ∃ t, writeTCPDataList buffers curTs s = .ok t := by
  have ordered : Ordered buf s.seqs := inv.ordered buf held
  have live : s.onHashTable = true := by
    cases gone : s.onHashTable
    · have absent : s.seqs.sndbuf = none := (inv.dead gone).1
      rw [held] at absent
      cases absent
    · rfl
  have short : s.state.sending = true → buf.ahead s.seqs.sndNxt ≤ buf.len.toNat ∨ buf.len = 0 := by
    intro sending
    cases writable : s.state.writable with
    | true =>
      have bound := ordered.nxt_le
      rw [show s.seqs.isFinSent = false from (inv.writable live writable).1] at bound
      exact .inl bound
    | false =>
      refine inv.flushable ?_ (.inl listed) buf held
      change s.state = _ ∨ s.state = _
      cases state : s.state <;> rw [state] at sending writable <;> simp_all [TcpState.sending,
        TcpState.writable]
  have flush : s.state.sending = true → ∃ result, flushTCPSendingBuffer buffers curTs s = .ok result := by
    intro sending
    rw [flushTCPSendingBuffer, held]
    dsimp only
    split
    · exact ⟨_, rfl⟩
    · rename_i nonzero
      refine flushLoop_ok curTs buffers s 0 ⟨buf, held, ordered, ?_⟩
      exact (short sending).resolve_right nonzero
  have serve : ∃ result, serveData buffers curTs s = .ok result := by
    unfold serveData
    cases state : s.state <;> dsimp only
    case established =>
      split
      · exact ⟨_, rfl⟩
      · exact flush (by rw [state]; rfl)
    case closeWait | finWait1 | lastAck => exact flush (by rw [state]; rfl)
    all_goals exact ⟨_, rfl⟩
  obtain ⟨result, served⟩ := serve
  exact ⟨_, by simp only [writeTCPDataList, served, bind, Except.bind]; rfl⟩

theorem Ordered.leq {seqs} (ordered : Ordered buf seqs) :
    tcpSeqLeq seqs.sndUna seqs.sndNxt ∧
      tcpSeqLeq seqs.sndNxt (buf.headSeq + buf.len + if seqs.isFinSent then 1 else 0) ∧
      tcpSeqLeq buf.headSeq seqs.sndNxt := by
  have lenLt := ordered.len_lt
  have unaLe := ordered.una_le
  have nxtLe := ordered.nxt_le
  have leq : ∀ {first second : UInt32}, buf.ahead first ≤ buf.ahead second →
      buf.ahead second ≤ buf.ahead first + 2 ^ 31 → tcpSeqLeq first second := by
    intro first second order near
    have notAbove : ¬tcpSeqGt first second := by
      rw [tcpSeqGt_ahead buf]
      omega
    exact Int.not_lt.mp notAbove
  have atHead : buf.ahead buf.headSeq = 0 := by simp [ahead]
  have atEnd : buf.ahead (buf.headSeq + buf.len + if seqs.isFinSent then 1 else 0) =
      buf.len.toNat + seqs.isFinSent.toNat := by
    have headBound := buf.headSeq.toNat_lt
    unfold ahead
    cases seqs.isFinSent <;>
      simp only [toNat_sub, toNat_add, reduceToNat, Bool.toNat_true,
        Bool.toNat_false, Bool.false_eq_true, if_true, if_false] <;> omega
  have finLe : seqs.isFinSent.toNat ≤ 1 := Bool.toNat_le _
  exact ⟨leq unaLe (by omega), leq (by omega) (by omega), leq (by omega) (by omega)⟩

def SafeSendStep (config : Config) (host : Host) (taken : Step) : Prop :=
  taken.Fits config ∧ SafeSend host.stream taken

theorem step_sendInv {host next taken} (inv : Handshake True host.stream ∧ SendInv host.stream.sendView)
    (safe : SafeSendStep config host taken) (done : step config host taken = .ok next) :
    Handshake True next.stream ∧ SendInv next.stream.sendView := by
  obtain ⟨stream, stepped, finish⟩ := bind_ok done
  cases finish
  refine ⟨stepStream_handshake inv.1 ?_ stepped, stepStream_sendInv inv.2 inv.1 safe.1 safe.2 stepped⟩
  rintro curTs chunk acceptRoom segment rfl
  exact safe.2.handshake

theorem start_sendInv {opening host} (valid : opening.Valid) (done : start config opening = .ok host) :
    SendInv host.stream.sendView := by
  cases opening with
  | active iss room listener =>
    cases done
    cases room
    all_goals exact {
      ordered := nofun
      early := fun _ => ⟨rfl, rfl, rfl⟩
      received := nofun
      writable := nofun
      accept := ⟨Nat.zero_le 1, fun _ => rfl⟩
      released := by rintro (queued | queued | finishing) <;> contradiction
      final := fun _ => nofun
      flushable := fun _ _ => nofun
      dead := nofun
      doomed := fun _ _ => .inr rfl }
  | passive iss curTs segment =>
    cases start_passive valid.1 done
    exact {
      ordered := nofun
      early := fun _ => ⟨rfl, rfl, rfl⟩
      received := fun _ => ⟨rfl, rfl, rfl, rfl⟩
      writable := nofun
      accept := ⟨Nat.zero_le 1, fun _ => rfl⟩
      released := by rintro (queued | queued | finishing) <;> contradiction
      final := fun _ => nofun
      flushable := fun _ _ => nofun
      dead := nofun
      doomed := nofun }

theorem run_sendInv {opening host after steps}
    (valid : opening.Valid) (started : start config opening = .ok host)
    (safe : Along config (SafeSendStep config) host steps) (done : run config host steps = .ok after) :
    Handshake True after.stream ∧ SendInv after.stream.sendView :=
  run_preserves step_sendInv
    ⟨(start_handshake valid started).mono fun _ _ => trivial, start_sendInv valid started⟩ safe done

/-- In every safe run the send sequence variables stay in order, and the service of the send list
does not fail. -/
theorem send_sequence_ordered {config : Config} {opening : Opening} {host after : Host}
    {steps : List Step} {buf : TcpSendBuffer} (valid : opening.Valid)
    (started : start config opening = .ok host) (safe : Along config (SafeSendStep config) host steps)
    (done : run config host steps = .ok after) (held : after.stream.seqs.sndbuf = some buf) :
    tcpSeqLeq after.stream.seqs.sndUna after.stream.seqs.sndNxt ∧
      tcpSeqLeq after.stream.seqs.sndNxt
        (buf.headSeq + buf.len + if after.stream.seqs.isFinSent then 1 else 0) ∧
      tcpSeqLeq buf.headSeq after.stream.seqs.sndNxt ∧
      (after.stream.lists.onSendList = true → ∀ buffers curTs,
        ∃ t, writeTCPDataList buffers curTs after.stream = .ok t) := by
  have inv := (run_sendInv valid started safe done).2
  obtain ⟨una, nxt, head⟩ := (inv.ordered buf held).leq
  exact ⟨una, nxt, head, fun listed buffers curTs =>
    writeTCPDataList_ok buffers curTs inv held listed⟩

def sampleWrite : List Step :=
  [.connectq, .writeControl true 0,
    .segment 1 none false (sampleSegment { syn := true, ack := true }), .writeControl true 1,
    .write (some (List.replicate 64 0)) (List.replicate 10 7), .sendq]

theorem send_sequence_ordered_flush : ∃ host after buf,
    start sampleConfig (.active 100 true false) = .ok host ∧
      run sampleConfig host (sampleWrite ++ [.writeData 1 2]) = .ok after ∧
      after.stream.seqs.sndbuf = some buf ∧ after.stream.seqs.sndNxt = buf.headSeq + buf.len ∧
      tcpSeqLeq after.stream.seqs.sndUna after.stream.seqs.sndNxt ∧
      tcpSeqLeq after.stream.seqs.sndNxt
        (buf.headSeq + buf.len + if after.stream.seqs.isFinSent then 1 else 0) ∧
      tcpSeqLeq buf.headSeq after.stream.seqs.sndNxt := by
  refine ⟨_, _, _, rfl, rfl, rfl, rfl, ?_⟩
  have ordered := @send_sequence_ordered sampleConfig (.active 100 true false) _ _
    (sampleWrite ++ [.writeData 1 2]) _ trivial rfl
    (.cons ⟨trivial, trivial⟩ rfl (.cons ⟨trivial, nofun⟩ rfl
      (.cons ⟨trivial, ⟨fun _ _ => ⟨fun _ => rfl, nofun⟩, nofun, nofun⟩⟩ rfl
        (.cons ⟨trivial, nofun⟩ rfl (.cons ⟨rfl, trivial⟩ rfl (.cons ⟨trivial, trivial⟩ rfl
          (.cons ⟨trivial, trivial⟩ rfl .nil))))))) rfl rfl
  exact ⟨ordered.1, ordered.2.1, ordered.2.2.1⟩

def sampleAck (ackSeq : UInt32) : Step :=
  .segment 3 none false { sampleSegment { ack := true } with ackSeq := ackSeq }

/-- A SYN in `ESTABLISHED` moves `snd_nxt` anywhere; an old third duplicate moves it before the
buffer; a FIN that is sent again counts again. -/
theorem send_sequence_broken :
    (∃ host, start sampleConfig (.active 100 true false) = .ok host ∧
      run sampleConfig host (sampleWrite ++
        [.segment 2 none false { sampleSegment { syn := true } with seq := 501, ackSeq := 5000 },
          .writeControl true 3, .writeData 1 4]) = .error .assertion) ∧
    (∃ host, start sampleConfig (.active 100 true false) = .ok host ∧
      run sampleConfig host (sampleWrite ++
        [.writeData 1 2, sampleAck 111, .write none (List.replicate 10 8), .sendq, .writeData 1 3,
          sampleAck 105, sampleAck 105, sampleAck 105, sampleAck 105, .writeData 1 4]) =
        .error .assertion) ∧
    (∃ host after buf, start sampleConfig (.active 100 true false) = .ok host ∧
      run sampleConfig host (sampleWrite ++
        [.writeData 1 2, .close true, .closeq, .writeControl true 3,
          .segment 4 none false { sampleSegment { ack := true } with seq := 7 },
          .writeControl true 5]) = .ok after ∧
      after.stream.seqs.sndbuf = some buf ∧ after.stream.seqs.isFinSent = true ∧
      ¬tcpSeqLeq after.stream.seqs.sndNxt (buf.headSeq + buf.len + 1)) := by
  refine ⟨⟨_, rfl, rfl⟩, ⟨_, rfl, rfl⟩, ⟨_, _, _, rfl, rfl, rfl, rfl, ?_⟩⟩
  decide

end Mcc
