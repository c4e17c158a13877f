import Mcc.TcpFrame

/-!
Emptying the send buffer: the segments that a call of `FlushTCPSendingBuffer` emits are
consecutive slices of the buffer that fit the segment size and the window.
-/

namespace Mcc

open SerialNumber

/-- Packets that carry the bytes from `seq` up to `stop` in order, each within the segment size and
none more than `limit` past `una`. -/
def Slices (buf : TcpSendBuffer) (mss limit : Nat) (una : UInt32) :
    UInt32 → List Packet → UInt32 → Prop
  | seq, [], stop => seq = stop
  | seq, packet :: rest, stop =>
    packet.seq = seq ∧ packet.payload ≠ [] ∧
      (seq - buf.headSeq).toNat + packet.payload.length ≤ buf.len.toNat ∧
      packet.payload = (buf.data.drop (buf.head + (seq - buf.headSeq).toNat)).take packet.payload.length ∧
      packet.payload.length + calculateOptionLength packet.flags ≤ mss ∧
      (plus seq packet.payload.length - una).toNat ≤ limit ∧
      Slices buf mss limit una (plus seq packet.payload.length) rest stop

def Sliced (buf : TcpSendBuffer) (s : TcpStream) (packets : List Packet) (t : TcpStream) : Prop :=
  t.history = (packets.map .sent).reverse ++ s.history ∧
    Slices buf s.ctl.mss.toNat (min s.ctl.cwnd s.ctl.peerWnd).toNat s.seqs.sndUna s.seqs.sndNxt
      packets t.seqs.sndNxt

def FlushRight (curTs : UInt32) (buf : TcpSendBuffer) (s : TcpStream) : Prop :=
  (∃ passes, ∀ more, flushTCPSendingBuffer (passes + more) curTs s =
      flushTCPSendingBuffer passes curTs s) ∧
    ∀ buffers, ∃ t ret packets, flushTCPSendingBuffer buffers curTs s = .ok (t, ret) ∧
      Sliced buf s packets t

structure Ready (buf : TcpSendBuffer) (s : TcpStream) : Prop where
  held : s.seqs.sndbuf = some buf
  valid : buf.Valid
  inside : (s.seqs.sndNxt - buf.headSeq).toNat ≤ buf.len.toNat
  near : (s.seqs.sndNxt - s.seqs.sndUna).toNat +
    (buf.len.toNat - (s.seqs.sndNxt - buf.headSeq).toNat) < 2 ^ 31

def Moving (buf : TcpSendBuffer) (s : TcpStream) : Prop :=
  s.ctl.mss ≠ 12 ∨ s.seqs.sndNxt - buf.headSeq = buf.len ∨ WindowFull s

variable {buf : TcpSendBuffer} {s t : TcpStream} {curTs : UInt32}

theorem tcpSeqLt_iff (a b : UInt32) : tcpSeqLt a b ↔ 2 ^ 31 ≤ (a - b).toNat := by
  have bound := (a - b).toNat_lt
  unfold tcpSeqLt signed
  split <;> omega

theorem tcpSeqGeq_iff (a b : UInt32) : tcpSeqGeq a b ↔ (a - b).toNat < 2 ^ 31 := by
  rw [← not_le, ← tcpSeqLt_iff]
  exact Int.not_lt.symm

theorem remainingWindow_toNat (near : (s.seqs.sndNxt - s.seqs.sndUna).toNat < 2 ^ 31)
    (room : ¬WindowFull s) : 0 < (remainingWindow s).toNat ∧
      (s.seqs.sndNxt - s.seqs.sndUna).toNat + (remainingWindow s).toNat =
        (min s.ctl.cwnd s.ctl.peerWnd).toNat := by
  have positive : 0 < signed (remainingWindow s) := not_le.mp fun full => room (.inl full)
  have bound := (min s.ctl.cwnd s.ctl.peerWnd).toNat_lt
  unfold signed remainingWindow at positive
  unfold remainingWindow
  rw [UInt32.toNat_sub] at positive ⊢
  split at positive <;> omega

theorem nextPayloadlen_fits {len : UInt32} (large : 12 < s.ctl.mss.toNat) (above : 0 < len.toNat)
    (room : 0 < (remainingWindow s).toNat) :
    0 < (nextPayloadlen len s).toNat ∧ (nextPayloadlen len s).toNat ≤ (remainingWindow s).toNat ∧
      (nextPayloadlen len s).toNat + 12 ≤ s.ctl.mss.toNat := by
  have bound := s.ctl.mss.toNat_lt
  have whole : (UInt32.ofInt ((s.ctl.mss.toNat : Int) - calculateOptionLength { ack := true })).toNat =
      s.ctl.mss.toNat - 12 := by
    rw [show calculateOptionLength { ack := true } = 12 from rfl, UInt32.ofInt, UInt32.toNat_ofNat']
    omega
  unfold nextPayloadlen
  dsimp only
  rw [UInt32.toNat_toUInt16, toNat_min, toNat_min, whole]
  omega

theorem flushPass_ready (output : Bool) (curTs : UInt32) (ready : Ready buf s) :
    s.seqs.sndNxt - buf.headSeq = buf.len ∧ flushPass output curTs s = .ok (s, .drained) ∨
      s.seqs.sndNxt - buf.headSeq ≠ buf.len ∧ ∃ count,
        count = nextPayloadlen (buf.len - (s.seqs.sndNxt - buf.headSeq)) s ∧
        ((WindowFull s ∨ (output = true → s.ctl.mss.toNat < count.toNat + 12)) ∧ (∃ after,
            flushPass output curTs s = .ok (after, .blocked) ∧ after.seqs = s.seqs ∧
            after.history = s.history) ∨
          ¬WindowFull s ∧ output = true ∧ count.toNat + 12 ≤ s.ctl.mss.toNat ∧
            (s.seqs.sndNxt - buf.headSeq).toNat + count.toNat ≤ buf.len.toNat ∧ ∃ payload,
            payload = (buf.data.drop (buf.head + (s.seqs.sndNxt - buf.headSeq).toNat)).take
              count.toNat ∧ payload.length = count.toNat ∧ flushPass output curTs s =
              .ok (handOver curTs { ack := true } false payload count.toNat s, .sent)) := by
  obtain ⟨held, valid, inside, near⟩ := ready
  have small := valid.len_le
  have bound := valid.small
  have notBefore : ¬tcpSeqLt s.seqs.sndNxt buf.headSeq := by
    rw [tcpSeqLt_iff]
    omega
  have notUnacked : ¬tcpSeqLt s.seqs.sndNxt s.seqs.sndUna := by
    rw [tcpSeqLt_iff]
    omega
  have within : s.seqs.sndNxt - buf.headSeq ≤ buf.len := UInt32.le_iff_toNat_le.mpr inside
  unfold flushPass
  rw [held]
  dsimp only
  rw [if_neg notBefore, if_neg notUnacked, if_neg (UInt32.not_lt.mpr within)]
  have left := UInt32.toNat_sub_of_le _ _ within
  obtain ⟨chunk, -, headEq, tailEq, tailLe, -⟩ := valid
  split
  · rename_i drained
    refine .inl ⟨UInt32.toNat_inj.mp ?_, rfl⟩
    rw [drained] at left
    have zero : 0 = buf.len.toNat - (s.seqs.sndNxt - buf.headSeq).toNat := left
    omega
  · rename_i nonzero
    refine .inr ⟨fun same => nonzero (by rw [same, UInt32.sub_self]), _, rfl, ?_⟩
    split
    · refine .inl ⟨.inl ‹_›, ?_⟩
      split <;> exact ⟨_, rfl, rfl, rfl⟩
    · rename_i room
      have short := nextPayloadlen_le (buf.len - (s.seqs.sndNxt - buf.headSeq)) s
      generalize nextPayloadlen (buf.len - (s.seqs.sndNxt - buf.headSeq)) s = count at short ⊢
      obtain ⟨bytes, isBytes⟩ : ∃ l, l =
          buf.data.drop (buf.head + (s.seqs.sndNxt - buf.headSeq).toNat) := ⟨_, rfl⟩
      have supply : count.toNat ≤ bytes.length := by
        rw [isBytes, List.length_drop]
        omega
      rw [← isBytes]
      rcases sendTCPPacket_cases output curTs { ack := true } false bytes count s with
        ⟨same, negative, refused⟩ | ⟨on, fits, sent⟩
      · rw [if_pos negative, same]
        exact .inl ⟨.inr refused, s, rfl, rfl, rfl⟩
      · refine .inr ⟨room, on, fits, by omega, _, rfl, List.length_take_of_le supply, ?_⟩
        rw [sent]
        dsimp only
        rw [if_neg (Int.not_lt.mpr (Int.natCast_nonneg _)), if_neg (Nat.not_lt.mpr supply)]
        rfl

theorem flushPass_moves (output : Bool) (curTs : UInt32) (ready : Ready buf s) (moving : Moving buf s) :
    s.seqs.sndNxt - buf.headSeq = buf.len ∧ flushPass output curTs s = .ok (s, .drained) ∨
      s.seqs.sndNxt - buf.headSeq ≠ buf.len ∧ (∃ after,
        flushPass output curTs s = .ok (after, .blocked) ∧ Sliced buf s [] after) ∨
      output = true ∧ ∃ packet after, flushPass output curTs s = .ok (after, .sent) ∧
        Ready buf after ∧ Moving buf after ∧
        (s.seqs.sndNxt - buf.headSeq).toNat < (after.seqs.sndNxt - buf.headSeq).toNat ∧
        ∀ {rest t}, Sliced buf after rest t → Sliced buf s (packet :: rest) t := by
  rcases flushPass_ready output curTs ready with drained | ⟨unsent, count, isCount, ⟨-, after, passed,
    seqs, history⟩ | ⟨room, on, fits, short, payload, isPayload, length, passed⟩⟩
  · exact .inl drained
  · exact .inr (.inl ⟨unsent, after, passed, history, congrArg SendSeq.sndNxt seqs.symm⟩)
  · have near := ready.near
    have bound := buf.len.toNat_lt
    have large : 12 < s.ctl.mss.toNat := by
      rcases moving with other | drained | full
      · have apart : s.ctl.mss.toNat ≠ 12 := fun same => other (UInt16.toNat_inj.mp same)
        omega
      · exact absurd drained unsent
      · exact absurd full room
    have left := UInt32.toNat_sub_of_le _ _ (UInt32.le_iff_toNat_le.mpr ready.inside)
    have apart : (s.seqs.sndNxt - buf.headSeq).toNat ≠ buf.len.toNat :=
      fun same => unsent (UInt32.toNat_inj.mp same)
    have inside := ready.inside
    obtain ⟨someRoom, total⟩ := remainingWindow_toNat (by omega) room
    have unsent : 0 < (buf.len - (s.seqs.sndNxt - buf.headSeq)).toNat := by omega
    obtain ⟨nonempty, least, -⟩ := nextPayloadlen_fits large unsent someRoom
    rw [← isCount] at nonempty least
    have next := toNat_plus_sub s.seqs.sndNxt buf.headSeq count.toNat
    have flight := toNat_plus_sub s.seqs.sndNxt s.seqs.sndUna count.toNat
    refine .inr (.inr ⟨on, packetOf { ack := true } false payload s, _, passed, ⟨ready.held, ready.valid,
      ?_, ?_⟩, .inl fun same => ?_, ?_, ?_⟩)
    · change (plus s.seqs.sndNxt count.toNat - buf.headSeq).toNat ≤ _
      omega
    · change (plus s.seqs.sndNxt count.toNat - s.seqs.sndUna).toNat +
        (buf.len.toNat - (plus s.seqs.sndNxt count.toNat - buf.headSeq).toNat) < _
      omega
    · have twelve := congrArg UInt16.toNat (show s.ctl.mss = 12 from same)
      exact absurd large (by simp [twelve])
    · change _ < (plus s.seqs.sndNxt count.toNat - buf.headSeq).toNat
      omega
    · rintro rest t ⟨history, slices⟩
      rw [← length] at short isPayload fits nonempty flight slices
      have limit : (plus s.seqs.sndNxt payload.length - s.seqs.sndUna).toNat ≤
          (min s.ctl.cwnd s.ctl.peerWnd).toNat := by omega
      refine ⟨by rw [history]; simp [handOver], rfl, ?_, short, isPayload, fits, limit, slices⟩
      exact List.ne_nil_of_length_pos nonempty

theorem flushLoop_sliced (curTs : UInt32) (buffers : Nat) : ∀ {s : TcpStream} (count : Int),
    Ready buf s → Moving buf s →
    ∃ t ret packets, flushLoop curTs buffers s count = .ok (t, ret) ∧ Sliced buf s packets t := by
  induction buffers with
  | zero =>
    intro s count ready moving
    rcases flushPass_moves false curTs ready moving with
      ⟨-, passed⟩ | ⟨-, after, passed, sliced⟩ | ⟨on, -⟩
    · exact ⟨s, _, [], by rw [flushLoop, passed]; rfl, rfl, rfl⟩
    · exact ⟨after, _, [], by rw [flushLoop, passed]; rfl, sliced⟩
    · cases on
  | succ buffers ih =>
    intro s count ready moving
    rcases flushPass_moves true curTs ready moving with
      ⟨-, passed⟩ | ⟨-, after, passed, sliced⟩ | ⟨-, packet, after, passed, still, goes, -, slice⟩
    · exact ⟨s, _, [], by rw [flushLoop, passed]; rfl, rfl, rfl⟩
    · exact ⟨after, _, [], by rw [flushLoop, passed]; rfl, sliced⟩
    · obtain ⟨t, ret, rest, done, sliced⟩ := ih (count + 1) still goes
      exact ⟨t, ret, packet :: rest, by rw [flushLoop, passed]; exact done, slice sliced⟩

theorem flushLoop_stops (curTs : UInt32) (more passes : Nat) : ∀ {s : TcpStream} (count : Int),
    Ready buf s → Moving buf s → buf.len.toNat ≤ (s.seqs.sndNxt - buf.headSeq).toNat + passes →
    flushLoop curTs (passes + more) s count = flushLoop curTs passes s count := by
  induction passes with
  | zero =>
    intro s count ready moving enough
    have all : s.seqs.sndNxt - buf.headSeq = buf.len :=
      UInt32.toNat_inj.mp (Nat.le_antisymm ready.inside enough)
    have drained : ∀ output, flushPass output curTs s = .ok (s, .drained) := by
      intro output
      rcases flushPass_ready output curTs ready with ⟨-, passed⟩ | ⟨unsent, -⟩
      · exact passed
      · exact absurd all unsent
    cases more with
    | zero => rfl
    | succ more => rw [Nat.zero_add, flushLoop, flushLoop, drained, drained]; rfl
  | succ passes ih =>
    intro s count ready moving enough
    rw [Nat.add_right_comm, flushLoop, flushLoop]
    rcases flushPass_moves true curTs ready moving with
      ⟨-, passed⟩ | ⟨-, after, passed, -⟩ | ⟨-, packet, after, passed, still, goes, further, -⟩
    · rw [passed]
      rfl
    · rw [passed]
      rfl
    · rw [passed]
      exact ih (count + 1) still goes (by omega)

theorem flush_eq (held : s.seqs.sndbuf = some buf) (nonzero : buf.len ≠ 0) (buffers : Nat) :
    flushTCPSendingBuffer buffers curTs s = flushLoop curTs buffers s 0 := by
  rw [flushTCPSendingBuffer, held]
  exact if_neg nonzero

theorem FlushRight.moving (right : FlushRight curTs buf s) (ready : Ready buf s)
    (nonzero : buf.len ≠ 0) : Moving buf s := by
  by_contra stuck
  simp only [Moving, not_or, not_not] at stuck
  obtain ⟨twelve, unsent, room⟩ := stuck
  have nothing : nextPayloadlen (buf.len - (s.seqs.sndNxt - buf.headSeq)) s = 0 := by
    have zero : (UInt32.ofInt (((12 : UInt16).toNat : Int) -
        calculateOptionLength { ack := true })).toNat = 0 := rfl
    apply UInt16.toNat_inj.mp
    unfold nextPayloadlen
    dsimp only
    rw [UInt32.toNat_toUInt16, toNat_min, twelve, zero, Nat.min_zero]
    rfl
  obtain ⟨t, ret, packets, done, history, slices⟩ := right.2 1
  rw [flush_eq ready.held nonzero] at done
  rcases flushPass_ready true curTs ready with ⟨drained, -⟩ | ⟨-, count, isCount, ⟨full | refused, -⟩ |
    ⟨-, -, -, -, payload, isPayload, length, passed⟩⟩
  · exact unsent drained
  · exact room full
  · have large := refused rfl
    rw [isCount, nothing, twelve] at large
    exact absurd large (by decide)
  · rw [isCount, nothing] at passed length
    rw [flushLoop, passed] at done
    obtain ⟨⟨after, last⟩, second, finish⟩ := bind_ok (show flushLoop curTs 0 _ _ = _ from done)
    cases finish
    have kept : (handOver curTs { ack := true } false payload (UInt16.toNat 0) s).seqs.sndbuf =
        .some buf := ready.held
    have grown : t.history = .sent (packetOf { ack := true } false payload s) :: s.history := by
      rcases (flushPass_cases kept second).2 with ⟨same, -⟩ | same | same | ⟨_, on, -⟩
      · cases same
        rfl
      · cases same
        rfl
      · cases same
        rfl
      · cases on
    have only : (packets.map Action.sent).reverse = [.sent (packetOf { ack := true } false payload s)] :=
      List.append_cancel_right (history.symm.trans grown)
    obtain ⟨packet, rfl, same⟩ := List.map_eq_singleton_iff.mp (List.reverse_eq_iff.mp only)
    cases same
    exact slices.2.1 (List.length_eq_zero_iff.mp length)

theorem flush_right_iff (curTs : UInt32) (s : TcpStream) (buf : TcpSendBuffer)
    (held : s.seqs.sndbuf = some buf) (valid : buf.Valid) (acked : tcpSeqGeq s.seqs.sndNxt s.seqs.sndUna)
    (unsent : tcpSeqGeq (buf.headSeq + buf.len) s.seqs.sndNxt)
    (whole : tcpSeqGeq (buf.headSeq + buf.len) s.seqs.sndUna) :
    FlushRight curTs buf s ↔ buf.len = 0 ∨ ¬tcpSeqLt s.seqs.sndNxt buf.headSeq ∧
      (s.ctl.mss ≠ 12 ∨ s.seqs.sndNxt - buf.headSeq = buf.len ∨ WindowFull s) := by
  have ready : ¬tcpSeqLt s.seqs.sndNxt buf.headSeq → Ready buf s := by
    intro reached
    rw [tcpSeqLt_iff] at reached
    rw [tcpSeqGeq_iff] at acked unsent whole
    have len := buf.len.toNat_lt
    have head := buf.headSeq.toNat_lt
    have next := s.seqs.sndNxt.toNat_lt
    rw [UInt32.toNat_sub, UInt32.toNat_add] at unsent whole
    rw [UInt32.toNat_sub] at acked reached
    refine ⟨held, valid, ?_, ?_⟩
    · rw [UInt32.toNat_sub]
      omega
    · rw [UInt32.toNat_sub, UInt32.toNat_sub]
      omega
  constructor
  · intro right
    by_cases empty : buf.len = 0
    · exact .inl empty
    · have reached : ¬tcpSeqLt s.seqs.sndNxt buf.headSeq := by
        intro before
        obtain ⟨t, ret, packets, done, -⟩ := right.2 0
        rw [flush_eq held empty, flushLoop, flushPass, held] at done
        dsimp only at done
        rw [if_pos before] at done
        cases done
      exact .inr ⟨reached, right.moving (ready reached) empty⟩
  · intro fit
    by_cases empty : buf.len = 0
    · have same : ∀ buffers, flushTCPSendingBuffer buffers curTs s = .ok (s, 0) := by
        intro buffers
        rw [flushTCPSendingBuffer, held]
        exact if_pos empty
      exact ⟨⟨0, fun more => by rw [same, same]⟩, fun buffers => ⟨s, 0, [], same buffers, rfl, rfl⟩⟩
    · obtain ⟨reached, moving⟩ := fit.resolve_left empty
      refine ⟨⟨buf.len.toNat, fun more => ?_⟩, fun buffers => ?_⟩
      · rw [flush_eq held empty, flush_eq held empty]
        exact flushLoop_stops curTs more _ 0 (ready reached) moving (Nat.le_add_left _ _)
      · rw [flush_eq held empty]
        exact flushLoop_sliced curTs buffers 0 (ready reached) moving

def oneByte : TcpSendBuffer :=
  { sbInit ⟨4, by decide, by decide⟩ [7, 0, 0, 0] 1 with tailOff := 1, len := 1, cumLen := 1 }

def flushing (mss : UInt16) : TcpStream :=
  let created := createTCPStream sampleConfig true 0
  { created with
    state := .established
    seqs := { created.seqs with sndUna := 1, sndNxt := 1, sndbuf := some oneByte }
    ctl := { created.ctl with mss, cwnd := 10, peerWnd := 10 } }

theorem oneByte_valid : oneByte.Valid :=
  ⟨rfl, by decide, rfl, rfl, by decide, by decide⟩

theorem flush_right_one_byte : FlushRight 0 oneByte (flushing 13) :=
  (flush_right_iff 0 (flushing 13) oneByte rfl oneByte_valid (by decide) (by decide) (by decide)).mpr
    (.inr ⟨by decide, .inl (by decide)⟩)

theorem flush_sends_empty_segments :
    oneByte.Valid ∧ (flushing 12).seqs.sndbuf = some oneByte ∧
      (flushing 12).seqs.sndNxt = (flushing 12).seqs.sndUna ∧
      tcpSeqGeq (oneByte.headSeq + oneByte.len) (flushing 12).seqs.sndNxt ∧
      ¬FlushRight 0 oneByte (flushing 12) := by
  have ready : Ready oneByte (flushing 12) := ⟨rfl, oneByte_valid, by decide, by decide⟩
  refine ⟨oneByte_valid, rfl, rfl, by decide, fun right => ?_⟩
  exact absurd (right.moving ready (by decide)) (by unfold Moving; decide)

end Mcc
