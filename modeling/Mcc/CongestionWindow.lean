import Mcc.TcpFrame

/-!
The congestion window of `ProcessACK`: how many segments an acknowledgment counts for, and what it
adds to the window.
-/

namespace Mcc

theorem ackedPackets_toNat (rmlen : UInt32) (effMss : UInt16) :
    (ackedPackets rmlen effMss).toNat = rmlen.toNat / effMss.toNat % 65536 := by
  have quotient : (rmlen / effMss.toUInt32).toNat = rmlen.toNat / effMss.toNat := by simp
  -- the product never exceeds `rmlen`, so the code's test for rounding up never succeeds
  have correct : ¬rmlen < rmlen / effMss.toUInt32 * effMss.toUInt32 := by
    rw [UInt32.lt_iff_toNat_lt, UInt32.toNat_mul, quotient, UInt16.toNat_toUInt32,
      Nat.mod_eq_of_lt (Nat.lt_of_le_of_lt (Nat.div_mul_le_self _ _) rmlen.toNat_lt)]
    exact Nat.not_lt.mpr (Nat.div_mul_le_self _ _)
  simp only [ackedPackets, correct, ↓reduceIte]
  rw [UInt32.toNat_toUInt16, quotient]

def CwndRight (rmlen : UInt32) (s : TcpStream) : Prop :=
  let packets := (rmlen.toNat + s.ctl.effMss.toNat - 1) / s.ctl.effMss.toNat
  s.ctl.effMss ≠ 0 ∧ (ackedPackets rmlen s.ctl.effMss).toNat = packets ∧
    ∃ t, growWindow (ackedPackets rmlen s.ctl.effMss) s = .ok t ∧
      (s.ctl.cwnd < s.ctl.ssthresh → s.ctl.cwnd < t.ctl.cwnd ∧
        t.ctl.cwnd.toNat = s.ctl.cwnd.toNat + packets * s.ctl.mss.toNat) ∧
      (¬s.ctl.cwnd < s.ctl.ssthresh → s.ctl.cwnd ≤ t.ctl.cwnd)

theorem packets_exact_iff {rmlen effMss} (positive : 0 < rmlen) (nonzero : 0 < effMss) :
    rmlen / effMss % 65536 = (rmlen + effMss - 1) / effMss ↔ effMss ∣ rmlen ∧ rmlen / effMss < 65536 := by
  have split := Nat.div_add_mod rmlen effMss
  have small := Nat.mod_lt rmlen nonzero
  have above : rmlen / effMss ≤ (rmlen + effMss - 1) / effMss := Nat.div_le_div_right (by omega)
  constructor
  · intro same
    have low : rmlen / effMss < 65536 := by omega
    refine ⟨?_, low⟩
    rw [Nat.mod_eq_of_lt low] at same
    by_contra rest
    have up : rmlen / effMss + 1 ≤ (rmlen + effMss - 1) / effMss := by
      rw [Nat.le_div_iff_mul_le nonzero, Nat.add_mul, Nat.mul_comm]
      omega
    omega
  · rintro ⟨⟨count, rfl⟩, low⟩
    rw [Nat.mul_div_cancel_left _ nonzero] at low ⊢
    rw [Nat.mod_eq_of_lt low, Nat.add_sub_assoc nonzero, Nat.mul_add_div nonzero,
      Nat.div_eq_of_lt (by omega), Nat.add_zero]

/-- The acknowledgments that do to the window what they should: those of whole segments, fewer than
the counter's width, that do not carry the window over its own width. -/
def CountsWhole (rmlen : UInt32) (s : TcpStream) : Prop :=
  s.ctl.effMss ≠ 0 ∧ s.ctl.effMss.toNat ∣ rmlen.toNat ∧ rmlen.toNat / s.ctl.effMss.toNat < 65536 ∧
    if s.ctl.cwnd < s.ctl.ssthresh then
      0 < s.ctl.mss ∧ s.ctl.cwnd.toNat + rmlen.toNat / s.ctl.effMss.toNat * s.ctl.mss.toNat < 2 ^ 32
    else s.ctl.cwnd ≠ 0

def SendControl.grown (packets : UInt16) (ctl : SendControl) : UInt32 :=
  let mss := ctl.mss.toUInt32
  if ctl.cwnd < ctl.ssthresh then
    if ctl.cwnd < ctl.cwnd + mss then ctl.cwnd + mss * packets.toUInt32 else ctl.cwnd
  else
    let cwnd := ctl.cwnd + packets.toUInt32 * mss * mss / ctl.cwnd
    if ctl.cwnd < cwnd then cwnd else ctl.cwnd

theorem growWindow_opened (packets : UInt16) {s} (opened : TcpState.established.number ≤ s.state.number) :
    growWindow packets s = if ¬s.ctl.cwnd < s.ctl.ssthresh ∧ s.ctl.cwnd = 0 then .error .divisionByZero
      else .ok { s with ctl := { s.ctl with cwnd := s.ctl.grown packets } } := by
  simp only [growWindow, SendControl.grown, Nat.not_lt.mpr opened, ↓reduceIte]
  by_cases slow : s.ctl.cwnd < s.ctl.ssthresh
  · by_cases room : s.ctl.cwnd < s.ctl.cwnd + s.ctl.mss.toUInt32 <;> simp [slow, room]
  · simp [slow]

theorem grown_avoidance_le (packets : UInt16) {ctl : SendControl}
    (avoidance : ¬ctl.cwnd < ctl.ssthresh) : ctl.cwnd ≤ ctl.grown packets := by
  simp only [SendControl.grown, avoidance, ↓reduceIte]
  split
  · exact UInt32.le_of_lt ‹_›
  · exact UInt32.le_refl _

theorem grown_slow_iff {packets : UInt16} {ctl : SendControl} (slow : ctl.cwnd < ctl.ssthresh)
    (above : 0 < packets.toNat) : ctl.cwnd < ctl.grown packets ∧
        (ctl.grown packets).toNat = ctl.cwnd.toNat + packets.toNat * ctl.mss.toNat ↔
      0 < ctl.mss ∧ ctl.cwnd.toNat + packets.toNat * ctl.mss.toNat < 2 ^ 32 := by
  have room : ctl.cwnd < ctl.cwnd + ctl.mss.toUInt32 ↔
      0 < ctl.mss.toNat ∧ ctl.cwnd.toNat + ctl.mss.toNat < 2 ^ 32 := by
    have low := ctl.cwnd.toNat_lt
    have narrow := ctl.mss.toNat_lt
    rw [UInt32.lt_iff_toNat_lt, UInt32.toNat_add, UInt16.toNat_toUInt32]
    omega
  have least : ctl.mss.toNat ≤ packets.toNat * ctl.mss.toNat := Nat.le_mul_of_pos_left _ above
  have bound := (ctl.grown packets).toNat_lt
  simp only [SendControl.grown, slow, ↓reduceIte, UInt16.lt_iff_toNat_lt, UInt16.toNat_ofNat] at bound ⊢
  constructor
  · rintro ⟨up, correct⟩
    rw [UInt32.lt_iff_toNat_lt] at up
    refine ⟨Nat.pos_of_ne_zero fun zero => ?_, by omega⟩
    rw [zero, Nat.mul_zero] at correct
    omega
  · rintro ⟨mss, fits⟩
    have opens : ctl.cwnd < ctl.cwnd + ctl.mss.toUInt32 := room.mpr ⟨by simpa using mss, by omega⟩
    rw [if_pos opens, UInt32.lt_iff_toNat_lt, UInt32.toNat_add, UInt32.toNat_mul,
      UInt16.toNat_toUInt32, UInt16.toNat_toUInt32, Nat.mul_comm ctl.mss.toNat,
      Nat.mod_eq_of_lt (show packets.toNat * ctl.mss.toNat < 2 ^ 32 by omega), Nat.mod_eq_of_lt fits]
    omega

theorem acknowledge_grown {curTs ackSeq segment buf s t}
    (opened : TcpState.established.number ≤ s.state.number)
    (fresh : ¬tcpSeqGeq buf.headSeq ackSeq) (done : acknowledge curTs segment ackSeq buf s = .ok t) :
    ∃ g, growWindow (ackedPackets (ackSeq - buf.headSeq) s.ctl.effMss) s = .ok g ∧
      t.ctl.cwnd = g.ctl.cwnd := by
  unfold acknowledge at done
  rw [if_neg fresh] at done
  split at done
  · cases done
  · obtain ⟨m, measured, done⟩ := bind_ok done
    obtain ⟨g, grown, done⟩ := bind_ok done
    obtain ⟨sndWnd, history, removed, -⟩ := removeAcked_form segment ackSeq buf g
    rw [removed] at done
    obtain ⟨-, tsRto, rfl⟩ := updateRetransmissionTimer_form done
    obtain ⟨rcv, rto, -, rfl⟩ := measureRTT_form measured
    rw [growWindow_opened _ (by exact opened)] at grown
    rw [growWindow_opened _ opened]
    split at grown
    · cases grown
    · rename_i divides
      cases grown
      exact ⟨_, if_neg divides, rfl⟩

theorem cwndRight_iff {rmlen : UInt32} {s : TcpStream} (above : 0 < rmlen)
    (opened : TcpState.established.number ≤ s.state.number) :
    CwndRight rmlen s ↔ CountsWhole rmlen s := by
  by_cases effMss : s.ctl.effMss = 0
  · exact ⟨fun right => absurd effMss right.1, fun whole => absurd effMss whole.1⟩
  have positive : 0 < s.ctl.effMss.toNat :=
    Nat.pos_of_ne_zero fun zero => effMss (UInt16.toNat_inj.mp zero)
  have acked : 0 < rmlen.toNat := by simpa [UInt32.lt_iff_toNat_lt] using above
  have counts := packets_exact_iff acked positive
  simp only [CwndRight, CountsWhole, ackedPackets_toNat, counts, growWindow_opened _ opened]
  refine and_congr_right fun _ => ?_
  rw [and_assoc]
  refine and_congr_right fun whole => and_congr_right fun low => ?_
  have correct := counts.mpr ⟨whole, low⟩
  rw [Nat.mod_eq_of_lt low] at correct
  by_cases slow : s.ctl.cwnd < s.ctl.ssthresh
  · have packets : (ackedPackets rmlen s.ctl.effMss).toNat = rmlen.toNat / s.ctl.effMss.toNat := by
      rw [ackedPackets_toNat, Nat.mod_eq_of_lt low]
    have grown := grown_slow_iff slow (packets ▸ Nat.div_pos (Nat.le_of_dvd acked whole) positive)
    rw [packets] at grown
    simpa [slow, ← correct] using grown
  · by_cases zero : s.ctl.cwnd = 0
    · rw [if_pos ⟨slow, zero⟩, if_neg slow]
      simp [zero]
    · simpa [slow, zero] using grown_avoidance_le (ackedPackets rmlen s.ctl.effMss) slow

theorem acknowledged_window_iff (rmlen : UInt32) (s : TcpStream) (above : 0 < rmlen)
    (opened : TcpState.established.number ≤ s.state.number) :
    (CwndRight rmlen s ↔ CountsWhole rmlen s) ∧
      ∀ (curTs ackSeq : UInt32) (segment : Segment) (buf : TcpSendBuffer) (t : TcpStream),
        ackSeq - buf.headSeq = rmlen → ¬tcpSeqGeq buf.headSeq ackSeq →
          acknowledge curTs segment ackSeq buf s = .ok t →
            ∃ g, growWindow (ackedPackets rmlen s.ctl.effMss) s = .ok g ∧ t.ctl.cwnd = g.ctl.cwnd := by
  refine ⟨cwndRight_iff above opened, fun curTs ackSeq segment buf t length fresh done => ?_⟩
  subst length
  exact acknowledge_grown opened fresh done

def slowStarting : TcpStream :=
  let created := createTCPStream sampleConfig true 0
  { created with
    state := .established
    ctl := { created.ctl with mss := 1460, effMss := 1448, cwnd := 2920, ssthresh := 14600 } }

theorem acknowledged_window_two_segments :
    CountsWhole 2896 slowStarting ∧ CwndRight 2896 slowStarting := by
  have whole : CountsWhole 2896 slowStarting := by
    refine ⟨by decide, by decide, by decide, ?_⟩
    rw [if_pos (by decide)]
    decide
  exact ⟨whole, ((acknowledged_window_iff 2896 slowStarting (by decide) (by decide)).1).mpr whole⟩

theorem one_byte_not_counted : ackedPackets 1 slowStarting.ctl.effMss = 0 ∧ ¬CwndRight 1 slowStarting :=
  ⟨by decide, fun right => absurd right.2.1 (by decide)⟩

end Mcc
