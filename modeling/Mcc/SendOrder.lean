import Mcc.Handshake

/-!
The order of `snd_una`, `snd_nxt` and the end of the send buffer, and that received segments
keep it.
-/

namespace Mcc

open SerialNumber
open UInt32 (reduceToNat toNat_add toNat_sub)

def TcpSendBuffer.ahead (buf : TcpSendBuffer) (seq : UInt32) : Nat := (seq - buf.headSeq).toNat

open TcpSendBuffer

/-- `snd_una` and `snd_nxt` relative to the send buffer. `snd_una` is the first byte of it, except
after the FIN has been acknowledged. -/
structure Ordered (buf : TcpSendBuffer) (seqs : SendSeq) : Prop where
  valid : buf.Valid
  una_le : buf.ahead seqs.sndUna ≤ buf.ahead seqs.sndNxt
  nxt_le : buf.ahead seqs.sndNxt ≤ buf.len.toNat + seqs.isFinSent.toNat
  una : buf.ahead seqs.sndUna = 0 ∨ seqs.isFinSent = true ∧ buf.len = 0 ∧ buf.ahead seqs.sndUna = 1

variable {buf : TcpSendBuffer} {seqs : SendSeq}

theorem Ordered.len_lt (ordered : Ordered buf seqs) : buf.len.toNat ≤ 2 ^ 31 - 4 :=
  Nat.le_trans ordered.valid.len_le ordered.valid.small

variable {ack : UInt32}

theorem ack_position (inside : ¬tcpSeqGt ack (buf.headSeq + buf.len))
    (comparable : ack ≠ buf.headSeq + buf.len + 0x80000000) :
    buf.ahead ack ≤ buf.len.toNat ∨ 2 ^ 31 + buf.len.toNat < buf.ahead ack := by
  have different : ack.toNat ≠ (buf.headSeq + buf.len + 0x80000000).toNat :=
    fun same => comparable (UInt32.toNat_inj.mp same)
  unfold tcpSeqGt signed at inside
  unfold ahead
  simp only [toNat_sub, toNat_add, reduceToNat] at *
  have ackBound := ack.toNat_lt
  have headBound := buf.headSeq.toNat_lt
  split at inside <;> omega

theorem tcpSeqGeq_head : tcpSeqGeq buf.headSeq ack ↔ buf.ahead ack = 0 ∨ 2 ^ 31 < buf.ahead ack := by
  unfold tcpSeqGeq signed ahead
  simp only [toNat_sub]
  have ackBound := ack.toNat_lt
  have headBound := buf.headSeq.toNat_lt
  split <;> omega

theorem tcpSeqGt_ahead (buf : TcpSendBuffer) {first second} :
    tcpSeqGt first second ↔
      (buf.ahead second < buf.ahead first ∧ buf.ahead first < buf.ahead second + 2 ^ 31) ∨
        buf.ahead first + 2 ^ 31 < buf.ahead second := by
  unfold tcpSeqGt signed ahead
  simp only [toNat_sub]
  have secondBound := second.toNat_lt
  have headBound := buf.headSeq.toNat_lt
  split <;> omega

theorem tcpSeqLt_ahead (buf : TcpSendBuffer) {first second} :
    tcpSeqLt first second ↔
      (buf.ahead first < buf.ahead second ∧ buf.ahead second ≤ buf.ahead first + 2 ^ 31) ∨
        buf.ahead second + 2 ^ 31 ≤ buf.ahead first := by
  unfold tcpSeqLt signed ahead
  simp only [toNat_sub]
  have secondBound := second.toNat_lt
  have headBound := buf.headSeq.toNat_lt
  split <;> omega

theorem ahead_end (buf : TcpSendBuffer) : buf.ahead (buf.headSeq + buf.len) = buf.len.toNat := by
  unfold ahead
  simp only [toNat_sub, toNat_add]
  have headBound := buf.headSeq.toNat_lt
  have lenBound := buf.len.toNat_lt
  omega

theorem acked_cases {fast} (ordered : Ordered buf seqs) (inside : ¬tcpSeqGt ack (buf.headSeq + buf.len))
    (comparable : ack ≠ buf.headSeq + buf.len + 0x80000000)
    (resend : fast = true → tcpSeqLt ack seqs.sndNxt ∧ ¬tcpSeqLt ack seqs.sndUna) :
    (0 < buf.ahead ack ∧ buf.ahead ack ≤ buf.len.toNat ∧
      ackedBuffer ack buf = (sbRemove buf (buf.ahead ack)).1 ∧
      ackedUna ack buf seqs.sndUna = ack ∧
      (ackedNxt fast ack seqs.sndNxt = ack ∨
        fast = false ∧ ackedNxt fast ack seqs.sndNxt = seqs.sndNxt ∧
          buf.ahead ack ≤ buf.ahead seqs.sndNxt)) ∨
    ((buf.ahead ack = 0 ∨ 2 ^ 31 < buf.ahead ack) ∧ ackedBuffer ack buf = buf ∧
      ackedUna ack buf seqs.sndUna = seqs.sndUna ∧
      (fast = false ∧ ackedNxt fast ack seqs.sndNxt = seqs.sndNxt ∨
        fast = true ∧ ackedNxt fast ack seqs.sndNxt = seqs.sndUna)) := by
  have position := ack_position inside comparable
  have lenLt := ordered.len_lt
  have nxtLe := ordered.nxt_le
  have unaLe := ordered.una_le
  have finLe : seqs.isFinSent.toNat ≤ 1 := Bool.toNat_le _
  by_cases fresh : 0 < buf.ahead ack ∧ buf.ahead ack ≤ buf.len.toNat
  · have notOld : ¬tcpSeqGeq buf.headSeq ack := by
      rw [tcpSeqGeq_head]
      omega
    refine .inl ⟨fresh.1, fresh.2, if_neg notOld, if_neg notOld, ?_⟩
    cases fast with
    | true => exact .inl (by simp [ackedNxt])
    | false =>
      by_cases beyond : tcpSeqGt ack seqs.sndNxt
      · exact .inl (by simp [ackedNxt, beyond])
      · refine .inr ⟨rfl, by simp [ackedNxt, beyond], ?_⟩
        rw [tcpSeqGt_ahead buf] at beyond
        omega
  · have old : buf.ahead ack = 0 ∨ 2 ^ 31 < buf.ahead ack := by omega
    have isOld : tcpSeqGeq buf.headSeq ack := tcpSeqGeq_head.mpr old
    refine .inr ⟨old, if_pos isOld, if_pos isOld, ?_⟩
    cases fast with
    | true =>
      obtain ⟨below, above⟩ := resend rfl
      rw [tcpSeqLt_ahead buf] at above
      have una := ordered.una
      have atUna : buf.ahead ack = buf.ahead seqs.sndUna := by omega
      have same : ack = seqs.sndUna := by
        have words : ack - buf.headSeq = seqs.sndUna - buf.headSeq := UInt32.toNat_inj.mp atUna
        have sums := congrArg (· + buf.headSeq) words
        simpa using sums
      exact .inr ⟨rfl, by simp [ackedNxt, same]⟩
    | false =>
      have beyond : ¬tcpSeqGt ack seqs.sndNxt := by
        rw [tcpSeqGt_ahead buf]
        omega
      exact .inl ⟨rfl, by simp [ackedNxt, beyond]⟩

theorem ahead_removed {after : TcpSendBuffer} {count : Nat} {seq : UInt32}
    (headSeq : after.headSeq = plus buf.headSeq count) (beyond : count ≤ buf.ahead seq) :
    after.ahead seq = buf.ahead seq - count := by
  unfold ahead at *
  rw [headSeq]
  simp only [toNat_sub, toNat_plus] at *
  have headBound := buf.headSeq.toNat_lt
  omega

theorem Ordered.acked {fast : Bool} (ordered : Ordered buf seqs)
    (inside : ¬tcpSeqGt ack (buf.headSeq + buf.len))
    (comparable : ack ≠ buf.headSeq + buf.len + 0x80000000)
    (resend : fast = true → tcpSeqLt ack seqs.sndNxt ∧ ¬tcpSeqLt ack seqs.sndUna) :
    Ordered (ackedBuffer ack buf) { seqs with
        sndNxt := ackedNxt fast ack seqs.sndNxt
        sndUna := ackedUna ack buf seqs.sndUna
        sndbuf := some (ackedBuffer ack buf) } ∧
      (ackedBuffer ack buf).headSeq + (ackedBuffer ack buf).len = buf.headSeq + buf.len ∧
      (ack = buf.headSeq + buf.len → (ackedBuffer ack buf).len = 0) ∧
      (fast = true ∨ buf.ahead seqs.sndNxt ≤ buf.len.toNat ∨ buf.len = 0 →
        (ackedBuffer ack buf).ahead (ackedNxt fast ack seqs.sndNxt) ≤
          (ackedBuffer ack buf).len.toNat ∨ (ackedBuffer ack buf).len = 0) := by
  have nxtLe := ordered.nxt_le
  have unaLe := ordered.una_le
  have lenLt := ordered.len_lt
  rcases acked_cases ordered inside comparable resend with
    ⟨above, held, buffer, una, nxt⟩ | ⟨old, buffer, una, nxt⟩
  · obtain ⟨-, valid, headSeq, -, len, -, -⟩ := sbRemove_spec ordered.valid above held
    rw [← buffer] at valid headSeq len
    generalize ackedBuffer ack buf = after at valid headSeq len ⊢
    rw [una]
    have atAck : after.ahead ack = 0 := by rw [ahead_removed headSeq (Nat.le_refl _)]; omega
    have same : after.headSeq + after.len = buf.headSeq + buf.len := by
      apply UInt32.toNat_inj.mp
      rw [headSeq]
      simp only [toNat_add, toNat_plus, len]
      omega
    have next : after.ahead (ackedNxt fast ack seqs.sndNxt) = buf.ahead seqs.sndNxt - buf.ahead ack ∨
        after.ahead (ackedNxt fast ack seqs.sndNxt) = 0 := by
      rcases nxt with resumed | ⟨-, kept, beyond⟩
      · rw [resumed, atAck]
        exact .inr rfl
      · rw [kept, ahead_removed headSeq beyond]
        exact .inl rfl
    refine ⟨⟨valid, ?_, ?_, .inl atAck⟩, same, ?_, ?_⟩
    · exact atAck ▸ Nat.zero_le _
    · dsimp only
      omega
    · intro isEnd
      apply UInt32.toNat_inj.mp
      have all : buf.ahead ack = buf.len.toNat := by rw [isEnd, ahead_end]
      rw [len, all]
      simp
    · rintro (resent | short | empty)
      · rcases nxt with resumed | ⟨slow, -⟩
        · rw [resumed, atAck]
          exact .inl (Nat.zero_le _)
        · rw [resent] at slow
          cases slow
      · omega
      · rw [empty] at held
        exact absurd held (Nat.not_le.mpr above)
  · rw [buffer, una]
    have emptied : ack = buf.headSeq + buf.len → buf.len = 0 := by
      intro isEnd
      have all : buf.ahead ack = buf.len.toNat := by rw [isEnd, ahead_end]
      apply UInt32.toNat_inj.mp
      simp only [reduceToNat]
      omega
    rcases nxt with ⟨slow, kept⟩ | ⟨resent, back⟩
    · rw [kept]
      refine ⟨⟨ordered.valid, unaLe, nxtLe, ordered.una⟩, rfl, emptied, ?_⟩
      rintro (resent | short)
      · rw [slow] at resent
        cases resent
      · exact short
    · rw [back]
      refine ⟨⟨ordered.valid, Nat.le_refl _, Nat.le_trans unaLe nxtLe, ordered.una⟩, rfl, emptied,
        fun _ => ?_⟩
      rcases ordered.una with atHead | ⟨-, empty, -⟩
      · rw [atHead]
        exact .inl (Nat.zero_le _)
      · exact .inr empty

def TcpState.finishing : TcpState → Bool
  | .finWait1 | .finWait2 | .closing | .lastAck | .timeWait => true
  | _ => false

def TcpState.writable : TcpState → Bool
  | .established | .closeWait => true
  | _ => false

structure SendView where
  state : TcpState
  seqs : SendSeq
  onSendList : Bool
  socket : Bool
  live : Bool
  sendq : Nat
  closeq : Nat
  closeqInt : Nat
  acceptq : Nat
  destroyq : Nat

def TcpStream.sendView (s : TcpStream) : SendView where
  state := s.state
  seqs := s.seqs
  onSendList := s.lists.onSendList
  socket := s.socket
  live := s.onHashTable
  sendq := s.queues.sendq
  closeq := s.queues.closeq
  closeqInt := s.queues.closeqInt
  acceptq := s.queues.acceptq
  destroyq := s.queues.destroyq

open TcpStream

structure SendInv (v : SendView) : Prop where
  ordered : ∀ buf, v.seqs.sndbuf = some buf → Ordered buf v.seqs
  early : v.state.opening = true → v.seqs.sndbuf = none ∧ v.seqs.isFinSent = false ∧ v.acceptq = 0
  received : v.state = .synRcvd → v.socket = false ∧ v.destroyq = 0 ∧ v.closeq = 0 ∧ v.closeqInt = 0
  writable : v.live = true → v.state.writable = true → v.seqs.isFinSent = false ∧
    (v.seqs.sndbuf = none → v.seqs.sndNxt = v.seqs.iss + 1 ∧ v.seqs.sndUna = v.seqs.iss + 1)
  accept : v.acceptq ≤ 1 ∧ (v.socket = true → v.acceptq = 0)
  released : 0 < v.closeq ∨ 0 < v.closeqInt ∨ v.state.finishing = true → v.socket = false ∧ v.acceptq = 0
  -- from the moment `fss` is set nothing is added to the buffer
  final : 0 < v.closeqInt ∨ v.state.finishing = true → ∀ buf, v.seqs.sndbuf = some buf →
    v.seqs.fss = buf.headSeq + buf.len
  flushable : v.state = .finWait1 ∨ v.state = .lastAck → v.onSendList = true ∨ 0 < v.sendq →
    ∀ buf, v.seqs.sndbuf = some buf → buf.ahead v.seqs.sndNxt ≤ buf.len.toNat ∨ buf.len = 0
  dead : v.live = false →
    v.seqs.sndbuf = none ∧ (v.state.writable = true → v.socket = false ∧ v.acceptq = 0)
  doomed : 0 < v.destroyq → v.live = true → v.state = .closed ∨ v.state = .synSent

open SendInv

namespace SendInv

variable {v : SendView}

theorem closed (inv : SendInv v) : SendInv { v with state := .closed } where
  __ := inv
  early := nofun
  received := nofun
  writable := nofun
  released := by
    rintro (queued | queued | finishing)
    · exact inv.released (.inl queued)
    · exact inv.released (.inr (.inl queued))
    · cases finishing
  final := by
    rintro (queued | finishing)
    · exact inv.final (.inl queued)
    · cases finishing
  flushable := by rintro (state | state) <;> cases state
  dead gone := ⟨(inv.dead gone).1, nofun⟩
  doomed _ _ := .inl rfl

theorem unlisted (inv : SendInv v) : SendInv { v with onSendList := false } where
  __ := inv
  flushable := by
    rintro state (listed | queued)
    · cases listed
    · exact inv.flushable state (.inr queued)

theorem destroyed (inv : SendInv v)
    (unheld : v.state.writable = true → v.socket = false ∧ v.acceptq = 0) :
    SendInv { v with
      seqs := { v.seqs with sndbuf := none }
      onSendList := false
      live := false } where
  __ := inv
  ordered := nofun
  early opening := ⟨rfl, (inv.early opening).2⟩
  writable := nofun
  final _ := nofun
  flushable _ _ := nofun
  dead _ := ⟨rfl, unheld⟩
  doomed _ := nofun

theorem buried (inv : SendInv v) (absent : seqs.sndbuf = none) :
    SendInv { v with state := .closed, seqs, onSendList := false, live := false } where
  __ := inv.closed
  ordered := by rw [absent]; nofun
  early := nofun
  writable := nofun
  final _ := by rw [absent]; nofun
  flushable _ _ := by rw [absent]; nofun
  dead _ := ⟨absent, nofun⟩
  doomed _ := nofun

theorem moved {onSendList} (inv : SendInv v) (settled : v.state.opening = false)
    (ordered : ∀ buf, seqs.sndbuf = some buf → Ordered buf seqs)
    (fin : seqs.isFinSent = v.seqs.isFinSent ∨ v.state.finishing = true)
    (absent : v.seqs.sndbuf = none → seqs.sndbuf = none)
    (unmoved : seqs.sndbuf = none → v.state.writable = true →
      v.seqs.sndbuf = none ∧ seqs.sndNxt = v.seqs.sndNxt ∧ seqs.sndUna = v.seqs.sndUna ∧
        seqs.iss = v.seqs.iss)
    (final : ∀ buf, seqs.sndbuf = some buf → ∃ old, v.seqs.sndbuf = some old ∧
      seqs.fss = v.seqs.fss ∧ buf.headSeq + buf.len = old.headSeq + old.len)
    (flushable : v.state = .finWait1 ∨ v.state = .lastAck → onSendList = true ∨ 0 < v.sendq →
      ∀ buf, seqs.sndbuf = some buf → buf.ahead seqs.sndNxt ≤ buf.len.toNat ∨ buf.len = 0) :
    SendInv { v with seqs, onSendList } where
  __ := inv
  ordered := ordered
  early opening := by rw [settled] at opening; cases opening
  received state := by rw [state] at settled; cases settled
  writable live writable := by
    obtain ⟨notSent, fresh⟩ := inv.writable live writable
    refine ⟨?_, fun gone => ?_⟩
    · rcases fin with same | finishing
      · rw [← notSent]
        exact same
      · cases state : v.state <;> rw [state] at finishing writable <;> contradiction
    · obtain ⟨before, nxt, una, iss⟩ := unmoved gone writable
      obtain ⟨freshNxt, freshUna⟩ := fresh before
      exact ⟨by rw [nxt, iss, freshNxt], by rw [una, iss, freshUna]⟩
  final late buf held := by
    obtain ⟨old, before, fss, same⟩ := final buf held
    rw [fss, same]
    exact inv.final late old before
  flushable := flushable
  dead gone := ⟨absent (inv.dead gone).1, (inv.dead gone).2⟩

theorem opening {onSendList} (inv : SendInv v) (opening : v.state.opening = true)
    (absent : seqs.sndbuf = none) (notSent : seqs.isFinSent = false) :
    SendInv { v with seqs, onSendList } where
  __ := inv
  ordered := by rw [absent]; nofun
  early _ := ⟨absent, notSent, (inv.early opening).2.2⟩
  writable _ writable := by
    cases state : v.state <;> rw [state] at opening writable <;> contradiction
  final _ := by rw [absent]; nofun
  flushable _ _ := by rw [absent]; nofun
  dead gone := ⟨absent, (inv.dead gone).2⟩

theorem advanced (state : TcpState) (inv : SendInv v) (finishing : v.state.finishing = true)
    (later : state = .finWait2 ∨ state = .closing ∨ state = .timeWait) : SendInv { v with state } := by
  have released := inv.released (.inr (.inr finishing))
  have final := inv.final (.inr finishing)
  have doomed : 0 < v.destroyq → v.live = true → False := by
    intro queued live
    rcases inv.doomed queued live with before | before <;> rw [before] at finishing <;>
      cases finishing
  rcases later with rfl | rfl | rfl
  all_goals exact { inv with
    early := nofun
    received := nofun
    writable := nofun
    released := fun _ => released
    final := fun _ => final
    flushable := fun quiet => by rcases quiet with quiet | quiet <;> cases quiet
    dead := fun gone => ⟨(inv.dead gone).1, nofun⟩
    doomed := fun queued live => (doomed queued live).elim }

theorem entered {onSendList live acceptq} (state : TcpState)
    (writable : state.writable = true) (absent : seqs.sndbuf = none)
    (notSent : seqs.isFinSent = false) (nxt : seqs.sndNxt = seqs.iss + 1)
    (una : seqs.sndUna = seqs.iss + 1) (accept : acceptq ≤ 1 ∧ (v.socket = true → acceptq = 0))
    (released : 0 < v.closeq ∨ 0 < v.closeqInt → v.socket = false ∧ acceptq = 0)
    (dead : live = false → v.socket = false ∧ acceptq = 0) (doomed : live = true → v.destroyq = 0) :
    SendInv { v with state, seqs, onSendList, live, acceptq } := by
  have opening : state.opening = false := by cases state <;> first | rfl | cases writable
  have finishing : state.finishing = false := by cases state <;> first | rfl | cases writable
  exact {
    ordered := by rw [absent]; nofun
    early := fun early => by rw [opening] at early; cases early
    received := fun isRcvd => by rw [show state = _ from isRcvd] at opening; cases opening
    writable := fun _ _ => ⟨notSent, fun _ => ⟨nxt, una⟩⟩
    accept
    released := by
      rintro (queued | queued | late)
      · exact released (.inl queued)
      · exact released (.inr queued)
      · rw [finishing] at late
        cases late
    final := fun _ => by rw [absent]; nofun
    flushable := fun _ _ => by rw [absent]; nofun
    dead := fun gone => ⟨absent, fun _ => dead gone⟩
    doomed := fun queued alive => absurd (doomed alive) (Nat.ne_of_gt queued) }

theorem closeWait (inv : SendInv v)
    (fresh : v.live = true → v.destroyq = 0 ∧ v.seqs.isFinSent = false ∧
      (v.seqs.sndbuf = none → v.seqs.sndNxt = v.seqs.iss + 1 ∧ v.seqs.sndUna = v.seqs.iss + 1))
    (unheld : v.live = false → v.socket = false ∧ v.acceptq = 0) :
    SendInv { v with state := .closeWait } where
  __ := inv.closed
  early := nofun
  received := nofun
  writable live _ := (fresh live).2
  flushable := by rintro (state | state) <;> cases state
  dead gone := ⟨(inv.dead gone).1, fun _ => unheld gone⟩
  doomed queued live := absurd (fresh live).1 (Nat.ne_of_gt queued)

end SendInv

variable {s t : TcpStream}

theorem Steady.sendView (steady : Steady s t) : t.sendView =
    { s.sendView with seqs := t.seqs, onSendList := t.lists.onSendList } := by
  obtain ⟨status, state, -, -⟩ := steady
  obtain ⟨socket, -, -, live, queues, -⟩ := Status.mk.inj status
  simp [TcpStream.sendView, state, socket, live, queues]

/-- What the order relies on when an acknowledgment comes: it is not exactly half the sequence
space away from the end of the buffer, and no third duplicate lies before `snd_una`. -/
def AckOrderly (s : TcpStream) (segment : Segment) : Prop :=
  ∀ buf, s.seqs.sndbuf = some buf → dataAck segment s ≠ buf.headSeq + buf.len + 0x80000000 ∧
    (s.rcv.dupAcks + 1 = 3 → dataAck segment s = s.rcv.lastAckSeq → segment.payload = [] →
      ¬tcpSeqLt (dataAck segment s) s.seqs.sndUna)

variable {segment : Segment}

theorem AckOrderly.congr (orderly : AckOrderly s segment) (same : SameAck segment s t) :
    AckOrderly t segment := by
  unfold AckOrderly
  rw [same.data, same.seqs, same.dupAcks, same.lastAckSeq]
  exact orderly

theorem AckOrderly.resend {buf fast} (orderly : AckOrderly s segment) (held : s.seqs.sndbuf = some buf)
    (acked : Acknowledged segment buf fast s t) (third : fast = true) :
    tcpSeqLt (dataAck segment s) s.seqs.sndNxt ∧ ¬tcpSeqLt (dataAck segment s) s.seqs.sndUna := by
  obtain ⟨below, last, empty, count⟩ := acked.third third
  exact ⟨below, (orderly buf held).2 count last empty⟩

variable {curTs : UInt32}

theorem receiveACK_sendInv (inv : SendInv s.sendView) (settled : s.state.opening = false)
    (orderly : AckOrderly s segment) (done : receiveACK curTs segment s = .ok t) :
    SendInv t.sendView ∧ Steady s t ∧ t.seqs.fss = s.seqs.fss ∧
      t.seqs.isFinSent = s.seqs.isFinSent ∧ (t.seqs.sndbuf = none → t = s) ∧
      ∀ buf, s.seqs.sndbuf = some buf → ∀ after, t.seqs.sndbuf = some after →
        dataAck segment s = buf.headSeq + buf.len → after.len = 0 := by
  unfold receiveACK at done
  split at done
  · rename_i absent
    cases done
    exact ⟨inv, .refl s, rfl, rfl, fun _ => rfl, fun buf held => absurd held (by simp [absent])⟩
  · rename_i buf held
    have ordered := inv.ordered buf held
    rcases processACK_spec held done with ⟨rfl, beyond⟩ | ⟨inside, fast, acked⟩
    · refine ⟨inv, .refl _, rfl, rfl, fun _ => rfl, fun other same after _ isEnd => ?_⟩
      obtain rfl : buf = other := by simpa [held] using same
      rw [isEnd, tcpSeqGt_ahead buf] at beyond
      omega
    · obtain ⟨orderedAfter, sameEnd, emptied, short⟩ :=
        ordered.acked inside (orderly buf held).1 (orderly.resend held acked)
      have seqs := acked.seqs
      refine ⟨?_, acked.steady, by rw [seqs], by rw [seqs], by rw [seqs]; nofun, ?_⟩
      · rw [acked.steady.sendView]
        refine inv.moved settled ?_ ?_ ?_ ?_ ?_ ?_
        · intro after isAfter
          rw [seqs] at isAfter ⊢
          cases isAfter
          exact orderedAfter
        · exact .inl (by rw [seqs]; rfl)
        · exact fun absent => absurd held (by simp [show s.seqs.sndbuf = none from absent])
        · exact fun gone => absurd gone (by rw [seqs]; nofun)
        · intro after isAfter
          rw [seqs] at isAfter
          cases isAfter
          exact ⟨buf, held, by rw [seqs]; rfl, sameEnd⟩
        · intro state listed after isAfter
          rw [seqs] at isAfter ⊢
          cases isAfter
          apply short
          cases fast with
          | true => exact .inl rfl
          | false =>
            have before : s.lists.onSendList = true ∨ 0 < s.queues.sendq := by
              refine listed.imp_left fun on => ?_
              rw [acked.onSendList] at on
              simp only [Bool.or_false, Bool.and_eq_true] at on
              exact on.1
            exact .inr (inv.flushable state before buf held)
      · intro other same after isAfter isEnd
        obtain rfl : buf = other := by simpa [held] using same
        rw [seqs] at isAfter
        cases isAfter
        exact emptied isEnd

theorem Received.sendView (received : Received s t) :
    t.sendView = s.sendView ∨ t.sendView = { s.sendView with state := .closed } := by
  obtain ⟨status, seqs, -, state, lists, -, -⟩ := received
  obtain ⟨socket, -, -, live, queues, -⟩ := Status.mk.inj status
  have onSendList : t.lists.onSendList = s.lists.onSendList := by
    simpa using congrArg Lists.onSendList lists
  rcases state with ⟨same, -⟩ | ⟨closed, -⟩
  · exact .inl (by simp [TcpStream.sendView, seqs, same, socket, live, queues, onSendList])
  · exact .inr (by simp [TcpStream.sendView, seqs, closed, socket, live, queues, onSendList])

theorem Received.sendInv (inv : SendInv s.sendView) (received : Received s t) : SendInv t.sendView := by
  rcases received.sendView with same | closed
  · rw [same]
    exact inv
  · rw [closed]
    exact inv.closed

/-- A SYN in `ESTABLISHED` sets `snd_nxt` to its acknowledgment number, which must lie in the
send buffer. -/
def SynOrderly (s : TcpStream) (segment : Segment) : Prop :=
  s.state = .established → segment.flags.syn = true → match s.seqs.sndbuf with
    | some buf => segment.ackSeq - buf.headSeq ≤ buf.len
    | none => segment.ackSeq = s.seqs.sndNxt

variable {config : Config} {around : Surroundings}

structure SafeSegment (s : TcpStream) (segment : Segment) : Prop where
  handshake : OrderlySegment s segment
  ack : segment.flags.ack = true ∨ s.state = .closeWait → AckOrderly s segment
  syn : SynOrderly s segment

theorem established_sendInv {received} (inv : SendInv s.sendView)
    (state : s.state = .established) (safe : SafeSegment s segment)
    (receive : receivePayload config around segment s = .ok received)
    (ack : segment.flags.ack = true ∧ receiveACK around.curTs segment received = .ok t ∨
      segment.flags.ack = false ∧ t = received) :
    SendInv t.sendView ∧ Steady received t ∧ t.seqs.isFinSent = received.seqs.isFinSent ∧
      (t.seqs.sndbuf = none → t = received) := by
  have payload := (receivePayload_spec receive).1
  have settled := payload.settles.settled (by rw [state]; rfl)
  rcases ack with ⟨flagged, ack⟩ | ⟨-, rfl⟩
  · have orderly := (safe.ack (.inl flagged)).congr (payload.sameAck state)
    obtain ⟨ackedInv, steady, -, isFinSent, absent, -⟩ :=
      receiveACK_sendInv (payload.sendInv inv) settled orderly ack
    exact ⟨ackedInv, steady, isFinSent, absent⟩
  · exact ⟨payload.sendInv inv, .refl _, rfl, fun _ => rfl⟩

theorem destroy_sendView (done : destroyTCPStream s = .ok t) :
    t.sendView = { s.sendView with
      seqs := { s.seqs with sndbuf := none }
      onSendList := false
      live := false } := by
  unfold destroyTCPStream at done
  split at done <;> cases done
  rfl

theorem destroy_sendInv {u} (inv : SendInv s.sendView) (done : destroyTCPStream t = .ok u)
    (same : t.sendView = { s.sendView with
      state := .closed, seqs := t.seqs, onSendList := t.lists.onSendList }) : SendInv u.sendView := by
  rw [destroy_sendView done, same]
  exact inv.buried rfl

theorem timer_sendView (done : updateRetransmissionTimer curTs s = .ok t) : t.sendView = s.sendView := by
  obtain ⟨-, tsRto, rfl⟩ := updateRetransmissionTimer_form done
  rfl

theorem ahead_fin {fss} (empty : buf.len = 0) (final : fss = buf.headSeq + buf.len) :
    buf.ahead (fss + 1) = 1 := by
  rw [final, empty, ahead]
  simp only [toNat_sub, toNat_add, reduceToNat]
  have headBound := buf.headSeq.toNat_lt
  omega

theorem Ordered.finished {nxt} (ordered : Ordered buf seqs) (sent : seqs.isFinSent = true)
    (empty : buf.len = 0) (fss : seqs.fss = buf.headSeq + buf.len) (nxtEq : buf.ahead nxt = 1) :
    Ordered buf { seqs with sndUna := seqs.fss + 1, sndNxt := nxt } := by
  have una := ahead_fin empty fss
  refine ⟨ordered.valid, ?_, ?_, .inr ⟨sent, empty, una⟩⟩
  · exact Nat.le_of_eq (una.trans nxtEq.symm)
  · simp [nxtEq, sent]

theorem SendInv.finished {v nxt} (inv : SendInv v)
    (finishing : v.state.finishing = true) (sent : v.seqs.isFinSent = true)
    (empty : ∀ buf, v.seqs.sndbuf = some buf → buf.len = 0)
    (nxtEq : ∀ buf, v.seqs.sndbuf = some buf → buf.ahead nxt = 1) :
    SendInv { v with seqs := { v.seqs with sndUna := v.seqs.fss + 1, sndNxt := nxt } } := by
  refine inv.moved ?_ ?_ (.inl rfl) id ?_ (fun buf held => ⟨buf, held, rfl, rfl⟩) ?_
  · cases state : v.state <;> rw [state] at finishing <;> first | rfl | cases finishing
  · intro buf held
    have final := inv.final (.inr finishing) buf held
    exact (inv.ordered buf held).finished sent (empty buf held) final (nxtEq buf held)
  · intro _ writable
    cases state : v.state <;> rw [state] at finishing writable <;> contradiction
  · exact fun _ _ buf held => .inr (empty buf held)

theorem fin_acked {acked} (inv : SendInv s.sendView)
    (state : s.state = .finWait1 ∨ s.state = .closing) (orderly : AckOrderly s segment)
    (ack : receiveACK curTs segment s = .ok acked) (sent : acked.seqs.isFinSent = true)
    (isLast : segment.ackSeq = acked.seqs.fss + 1) :
    ∀ buf, acked.seqs.sndbuf = some buf → buf.len = 0 := by
  have settled : s.state.opening = false := by rcases state with now | now <;> rw [now] <;> rfl
  have finishing : s.state.finishing = true := by rcases state with now | now <;> rw [now] <;> rfl
  obtain ⟨ackedInv, steady, fss, isFinSent, -, emptied⟩ := receiveACK_sendInv inv settled orderly ack
  intro after held
  cases before : s.seqs.sndbuf with
  | none =>
    rw [receiveACK, before] at ack
    cases ack
    rw [before] at held
    cases held
  | some buf =>
    refine emptied buf before after held ?_
    have final := inv.final (.inr finishing) buf before
    rw [isFinSent] at sent
    rw [fss] at isLast
    have data : dataAck segment s = segment.ackSeq - 1 := by
      rcases state with now | now <;> simp [dataAck, now, sent, isLast]
    rw [data, isLast, ← final]
    simp [sendView]

theorem finAcked_sendInv {acked} (inv : SendInv s.sendView)
    (state : s.state = .finWait1) (orderly : AckOrderly s segment)
    (ack : receiveACK curTs segment s = .ok acked) : SendInv (finAcked segment acked).sendView := by
  have settled : s.state.opening = false := by rw [state]; rfl
  obtain ⟨ackedInv, steady, -⟩ := receiveACK_sendInv inv settled orderly ack
  have finishing : acked.sendView.state.finishing = true := by
    rw [show acked.sendView.state = .finWait1 from steady.state.trans state]
    rfl
  unfold finAcked
  split
  · rename_i last
    obtain ⟨nxt, isNxt⟩ : ∃ nxt, nxt = if tcpSeqGt segment.ackSeq acked.seqs.sndNxt then
        segment.ackSeq else acked.seqs.sndNxt := ⟨_, rfl⟩
    have empty := fin_acked inv (.inl state) orderly ack last.1 last.2
    have nxtEq : ∀ buf, acked.seqs.sndbuf = some buf → buf.ahead nxt = 1 := by
      intro buf held
      have bound := (ackedInv.ordered buf held).nxt_le
      have atLast : buf.ahead segment.ackSeq = 1 := by
        rw [last.2]
        exact ahead_fin (empty buf held) (ackedInv.final (.inr finishing) buf held)
      have finLe : acked.seqs.isFinSent.toNat ≤ 1 := Bool.toNat_le _
      rw [empty buf held] at bound
      rw [isNxt]
      split
      · exact atLast
      · rename_i notBeyond
        rw [tcpSeqGt_ahead buf] at notBeyond
        simp only [sendView, reduceToNat] at bound
        omega
    rw [← isNxt, last.2]
    exact (ackedInv.finished finishing last.1 empty nxtEq).advanced .finWait2 finishing (.inl rfl)
  · exact ackedInv

theorem Absorbed.sendInv (absorbed : Absorbed config around segment s t) (inv : SendInv s.sendView)
    (safe : SafeSegment s segment) : SendInv t.sendView := by
  cases absorbed
  case established state receive ack => exact (established_sendInv inv state safe receive ack).1
  case acked state ack =>
    have settled : s.state.opening = false := by
      rcases state with now | ⟨-, now | now⟩ <;> rw [now] <;> rfl
    exact (receiveACK_sendInv inv settled (safe.ack (state.symm.imp_left And.left)) ack).1
  case finWait1 state flagged ack receive =>
    have acked := finAcked_sendInv inv state (safe.ack (.inl flagged)) ack
    exact (receivePayload_spec receive).1.sendInv acked
  case finWait2 state flagged ack receive =>
    have acked := receiveACK_sendInv inv (by rw [state]; rfl) (safe.ack (.inl flagged)) ack
    exact (receivePayload_spec receive).1.sendInv acked.1

theorem SendInv.toCloseWait (inv : SendInv s.sendView) (live : s.onHashTable = true)
    (writable : s.state.writable = true) : SendInv { s.sendView with state := .closeWait } := by
  obtain ⟨notSent, fresh⟩ := inv.writable live writable
  refine inv.closeWait (fun _ => ⟨?_, notSent, fresh⟩) fun gone =>
    Bool.noConfusion (live.symm.trans gone)
  by_contra queued
  rcases inv.doomed (Nat.pos_of_ne_zero queued) live with state | state <;>
    rw [show s.state = _ from state] at writable <;> cases writable

theorem synTaken_sendInv (inv : SendInv s.sendView) (state : s.state = .established)
    (live : s.onHashTable = true) (isSyn : segment.flags.syn = true) (syn : SynOrderly s segment) :
    SendInv { s.sendView with seqs := { s.seqs with sndNxt := segment.ackSeq } } := by
  obtain ⟨notSent, -⟩ := inv.writable live (by rw [show s.sendView.state = _ from state]; rfl)
  have inWindow := syn state isSyn
  refine inv.moved ?_ ?_ (.inl rfl) id ?_ ?_ ?_
  · rw [show s.sendView.state = _ from state]
    rfl
  · intro buf held
    rw [show s.seqs.sndbuf = some buf from held] at inWindow
    have ordered := inv.ordered buf held
    have inside : buf.ahead segment.ackSeq ≤ buf.len.toNat := UInt32.le_iff_toNat_le.mp inWindow
    rcases ordered.una with atHead | ⟨sent, -⟩
    · refine ⟨ordered.valid, ?_, Nat.le_add_right_of_le inside, .inl atHead⟩
      exact Nat.le_trans (Nat.le_of_eq atHead) (Nat.zero_le _)
    · exact Bool.noConfusion (sent.symm.trans notSent)
  · intro absent _
    rw [show s.seqs.sndbuf = none from absent] at inWindow
    exact ⟨absent, inWindow, rfl, rfl⟩
  · exact fun buf held => ⟨buf, held, rfl, rfl⟩
  · intro closing
    rw [show s.sendView.state = _ from state] at closing
    rcases closing with closing | closing <;> cases closing

theorem Answered.sendInv (answered : Answered config around segment s t) (inv : SendInv s.sendView)
    (live : s.onHashTable = true) (safe : SafeSegment s segment) : SendInv t.sendView := by
  cases answered
  case same | control => exact inv
  case syn state isSyn =>
    have taken := synTaken_sendInv inv state live isSyn safe.syn
    exact taken
  case absorbed absorbed | gap absorbed | unsettled absorbed | finLate absorbed _ _ =>
    exact absorbed.sendInv inv safe
  case closing received _ absorbed waiting =>
    refine (absorbed.sendInv inv safe).advanced .closing ?_ (.inr (.inl rfl))
    rw [show received.sendView.state = .finWait1 from waiting]
    rfl
  case bothFins received _ absorbed waiting =>
    refine (absorbed.sendInv inv safe).advanced .timeWait ?_ (.inr (.inr rfl))
    rw [show received.sendView.state = .finWait2 from waiting]
    rfl
  case closeWait received acked state receive ack =>
    obtain ⟨notSent, fresh⟩ := inv.writable live (by rw [show s.sendView.state = _ from state]; rfl)
    obtain ⟨ackedInv, steady, isFinSent, absent⟩ := established_sendInv inv state safe receive ack
    have payload := (receivePayload_spec receive).1
    have views : acked.sendView.destroyq = s.queues.destroyq ∧ acked.sendView.live = s.onHashTable := by
      rw [steady.sendView]
      rcases payload.sendView with view | view <;> rw [view] <;> exact ⟨rfl, rfl⟩
    refine ackedInv.closeWait (fun _ => ⟨?_, ?_, fun gone => ?_⟩) fun gone => ?_
    · rw [views.1]
      by_contra queued
      have waiting := inv.doomed (Nat.pos_of_ne_zero queued) live
      rw [show s.sendView.state = _ from state] at waiting
      rcases waiting with waiting | waiting <;> cases waiting
    · exact isFinSent.trans ((congrArg SendSeq.isFinSent payload.seqs).trans notSent)
    · have seqs : acked.seqs = s.seqs := by rw [absent gone, payload.seqs]
      rw [show acked.sendView.seqs = _ from seqs] at gone ⊢
      exact fresh gone
    · rw [views.2, live] at gone
      cases gone
  case lastAcked state flagged ack _ timer destroy =>
    have acked := receiveACK_sendInv inv (by rw [state]; rfl) (safe.ack (.inl flagged)) ack
    refine destroy_sendInv acked.1 destroy ?_
    have view := timer_sendView timer
    simp only [sendView, SendView.mk.injEq, oneAcked] at view ⊢
    simp [view]
  case timeWait acked received state flagged ack receive =>
    obtain ⟨ackedInv, steady, -⟩ :=
      receiveACK_sendInv inv (by rw [state]; rfl) (safe.ack (.inl flagged)) ack
    -- the same segment may have found no memory, which leaves only the state behind
    have waited : SendInv { received.sendView with state := .timeWait } := by
      have advanced := ackedInv.advanced .timeWait
        (by rw [show acked.sendView.state = .finWait2 from steady.state.trans state]; rfl)
        (.inr (.inr rfl))
      rcases (receivePayload_spec receive).1.sendView with view | view <;> rw [view] <;>
        exact advanced
    exact waited
  case closingAcked acked timed state flagged ack sent last timer =>
    have orderly := safe.ack (.inl flagged)
    obtain ⟨ackedInv, steady, -⟩ := receiveACK_sendInv inv (by rw [state]; rfl) orderly ack
    have finishing : acked.sendView.state.finishing = true := by
      rw [show acked.sendView.state = .closing from steady.state.trans state]
      rfl
    have empty := fin_acked inv (.inr state) orderly ack sent last
    have finished := ackedInv.finished finishing sent empty fun buf held =>
      ahead_fin (empty buf held) (ackedInv.final (.inr finishing) buf held)
    have view := timer_sendView timer
    rw [last] at view
    have waited := finished.advanced .timeWait finishing (.inr (.inr rfl))
    have same : (addtoTimewaitList config around.curTs { timed with state := .timeWait }).sendView =
        { timed.sendView with state := .timeWait } := rfl
    rw [same, view]
    exact waited
  case waited =>
    unfold handleTimeWait
    split <;> exact inv
  case resetClosing destroy => exact destroy_sendInv inv destroy rfl
  case reset state _ =>
    refine inv.toCloseWait live ?_
    rcases state with now | now <;> rw [now] <;> rfl

theorem Watched.sendView (watched : Watched s t) : t.sendView = s.sendView := by
  rcases watched with rfl | rfl <;> rfl

theorem completeActiveOpen_sendInv (inv : SendInv s.sendView) (state : s.state = .synSent)
    (live : s.onHashTable = true) (una : s.seqs.sndUna = s.seqs.iss + 1)
    (acked : segment.ackSeq = s.seqs.iss + 1) (doomed : s.socket = true → s.queues.destroyq = 0)
    (done : completeActiveOpen config around segment s = .ok t) : SendInv t.sendView := by
  obtain ⟨absent, notSent, acceptq⟩ := inv.early (by rw [show s.sendView.state = _ from state]; rfl)
  have released : 0 < s.queues.closeq ∨ 0 < s.queues.closeqInt →
      s.socket = false ∧ s.queues.acceptq = 0 :=
    fun queued => inv.released (queued.imp_right .inl)
  obtain ⟨opened, opens, finish⟩ := completeActiveOpen_cases done
  have view : opened.sendView = { s.sendView with
      state := .established
      seqs := { s.seqs with sndNxt := segment.ackSeq } } := by
    have status := opens.status
    obtain ⟨socket, -, -, live, queues, -⟩ := Status.mk.inj status
    simp [sendView, opens.state, opens.seqs, opens.lists, socket, live, queues]
  rcases finish with ⟨held, watched⟩ | ⟨free, destroy⟩
  · have now : SendInv opened.sendView := by
      rw [view]
      refine entered .established rfl absent notSent acked una inv.accept released ?_ ?_
      · exact fun gone => Bool.noConfusion (live.symm.trans gone)
      · exact fun _ => doomed held
    rw [watched.sendView]
    exact now
  · rw [destroy_sendView destroy]
    have gone : SendInv { opened.sendView with
        seqs := { opened.seqs with sndbuf := none }
        onSendList := false
        live := false } := by
      rw [view, opens.seqs]
      exact entered .established rfl rfl notSent acked una inv.accept released
        (fun _ => ⟨free, acceptq⟩) nofun
    exact gone

theorem completePassiveOpen_sendInv (inv : SendInv s.sendView) (state : s.state = .synRcvd)
    (live : s.onHashTable = true) (una : s.seqs.sndUna = s.seqs.iss)
    (acked : segment.ackSeq = s.seqs.iss + 1)
    (done : completePassiveOpen config around segment s = .ok t) :
    SendInv t.sendView ∧ t.seqs.sndbuf = none ∧ t.seqs.sndNxt = segment.ackSeq ∧
      t.onHashTable = true := by
  obtain ⟨absent, notSent, acceptq⟩ := inv.early (by rw [show s.sendView.state = _ from state]; rfl)
  obtain ⟨socket, destroyq, closeq, closeqInt⟩ := inv.received state
  have now : ∀ count ≤ 1, SendInv { s.sendView with
      state := .established
      seqs := { s.seqs with sndUna := s.seqs.sndUna + 1, sndNxt := segment.ackSeq }
      acceptq := count } := by
    intro count bound
    refine entered .established rfl absent notSent acked ?_ ⟨bound, ?_⟩ ?_ ?_ ?_
    · rw [una]
    · exact fun held => Bool.noConfusion (socket.symm.trans held)
    · rw [show s.sendView.closeq = _ from closeq, show s.sendView.closeqInt = _ from closeqInt]
      rintro (queued | queued) <;> cases queued
    · exact fun gone => Bool.noConfusion (live.symm.trans gone)
    · exact fun _ => destroyq
  have count : s.queues.acceptq = 0 := acceptq
  rcases completePassiveOpen_cases done with watched | watched
  · have accepted := now (s.queues.acceptq + 1) (by rw [count])
    refine ⟨watched.sendView ▸ accepted, ?_⟩
    rcases watched with rfl | rfl <;> exact ⟨absent, rfl, live⟩
  · have refused := (now s.queues.acceptq (by rw [count]; decide)).closed
    refine ⟨watched.sendView ▸ refused, ?_⟩
    rcases watched with rfl | rfl <;> exact ⟨absent, rfl, live⟩

theorem SynSent.acked (sent : SynSent s) (acks : SynAcks segment s) :
    segment.ackSeq = s.seqs.iss + 1 ∧ s.seqs.sndNxt = s.seqs.iss + 1 ∧
      s.seqs.sndUna + 1 = s.seqs.iss + 1 ∧
      (0 < s.queues.closeq ∨ 0 < s.queues.closeqInt → s.socket = false ∧ s.queues.acceptq = 0) ∧
      (s.socket = true → s.queues.destroyq = 0) := by
  obtain ⟨isAcked, nxt⟩ := acceptable_ack sent.nxt acks.2.1 acks.2.2
  refine ⟨isAcked, nxt, by rw [sent.una], ?_, fun held => ?_⟩
  · rw [sent.closeq, sent.closeqInt]
    rintro (queued | queued) <;> cases queued
  · by_contra queued
    have unsent := (sent.refused queued held).1
    obtain ⟨-, above, below⟩ := acks
    rw [unsent] at nxt below
    exact above (by unfold tcpSeqLeq tcpSeqGt at *; omega)

theorem SafeSegment.of_bufferless (state : s.state = .established) (absent : s.seqs.sndbuf = none)
    (nxt : s.seqs.sndNxt = segment.ackSeq) : SafeSegment s segment where
  handshake opening := by
    rw [state] at opening
    cases opening
  ack _ buf held := by
    rw [absent] at held
    cases held
  syn _ _ := by
    rw [absent]
    exact nxt.symm

theorem Handled.sendInv (handled : Handled config around segment s t) (inv : SendInv s.sendView)
    (handshake : Handshake True s) (opening : s.state.opening = true) (live : s.onHashTable = true)
    (safe : SafeSegment s segment) : SendInv t.sendView := by
  obtain ⟨absent, notSent, acceptq⟩ := inv.early opening
  cases handled
  case same | synAgain => exact inv
  case answered settled _ => exact Bool.noConfusion (opening.symm.trans settled)
  case listen state => exact absurd state handshake.opened
  case simultaneous state reset syn noAck =>
    rw [(safe.handshake state reset).1 syn] at noAck
    cases noAck
  case synAcked state acks reset noSyn =>
    exact absurd ((safe.handshake state reset).2 noSyn acks.1) (by simp [acks.2])
  case synReset state acks _ ended =>
    obtain ⟨-, nxt, una, released, doomed⟩ := (handshake.synSent state).acked acks
    rcases ended with ⟨held, rfl⟩ | ⟨free, destroy⟩
    · exact @entered _ s.sendView _ _ _ .closeWait rfl absent notSent nxt una inv.accept released
        (fun gone => Bool.noConfusion (live.symm.trans gone)) fun _ => doomed held
    · rw [destroy_sendView destroy]
      exact @entered _ s.sendView _ _ _ .closeWait rfl rfl notSent nxt una inv.accept released
        (fun _ => ⟨free, acceptq⟩) nofun
  case active state acks _ _ complete =>
    obtain ⟨isAcked, -, una, -, doomed⟩ := (handshake.synSent state).acked acks
    refine completeActiveOpen_sendInv ?_ ?_ ?_ ?_ ?_ ?_ complete
    · exact inv.opening opening absent notSent
    · exact state
    · exact live
    · exact una
    · exact isAcked
    · exact doomed
  case synResent => exact inv.opening opening absent notSent
  case passive state acked complete =>
    exact (completePassiveOpen_sendInv inv state live (handshake.synRcvd state).1 acked complete).1
  case passiveData opened state acked complete established answered =>
    obtain ⟨openedInv, noBuffer, nxt, stillLive⟩ :=
      completePassiveOpen_sendInv inv state live (handshake.synRcvd state).1 acked complete
    exact answered.sendInv openedInv stillLive (SafeSegment.of_bufferless established noBuffer nxt)
  case resetOpening destroy => exact destroy_sendInv inv destroy rfl

theorem SafeSegment.congr (safe : SafeSegment s segment) (state : t.state = s.state)
    (seqs : t.seqs = s.seqs) (dupAcks : t.rcv.dupAcks = s.rcv.dupAcks)
    (lastAckSeq : t.rcv.lastAckSeq = s.rcv.lastAckSeq) : SafeSegment t segment where
  handshake := by
    unfold OrderlySegment
    rw [state, seqs]
    exact safe.handshake
  ack reads := (safe.ack (state ▸ reads)).congr
    ⟨by simp [dataAck, state, seqs], seqs, dupAcks, lastAckSeq⟩
  syn := by
    unfold SynOrderly
    rw [state, seqs]
    exact safe.syn

theorem Validated.sendView (validated : Validated s t) : t.sendView = s.sendView := by
  have onSendList : t.lists.onSendList = s.lists.onSendList := by
    rcases validated.lists with same | ⟨opt, same⟩ | ⟨-, same⟩
    · rw [same]
    · rw [same]
      rfl
    · simpa using congrArg Lists.onSendList same
  rw [validated.toSteady.sendView, validated.seqs, onSendList]
  rfl

theorem processTCPPacket_sendInv (inv : SendInv s.sendView) (handshake : Handshake True s)
    (live : s.onHashTable = true) (safe : SafeSegment s segment)
    (done : processTCPPacket config around segment s = .ok t) : SendInv t.sendView := by
  cases opening : s.state.opening with
  | true =>
    have handled := processTCPPacket_opening opening done
    exact handled.sendInv inv handshake.noted opening live { safe with }
  | false =>
    obtain ⟨checked, validated, rfl | ⟨-, answered⟩⟩ := processTCPPacket_settled opening done
    · rw [validated.sendView]
      exact inv
    · refine answered.sendInv ?_ ?_ ?_
      · exact (validated.sendView ▸ inv : SendInv checked.sendView)
      · exact (congrArg SendView.live validated.sendView).trans live
      · exact safe.congr validated.state validated.seqs validated.dupAcks validated.lastAckSeq

end Mcc
