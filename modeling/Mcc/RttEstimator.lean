import Mcc.TcpCalls

/-!
The round-trip estimator of `EstimateRTT` beside the same estimator over the integers: no update
wraps, and the timeout is never zero, as long as the samples stay below `2 ^ 29` ticks.
-/

namespace Mcc

@[ext] structure Estimator where
  srtt : Int
  mdev : Int
  mdevMax : Int
  rttvar : Int

def Estimator.deviation (sample : Int) (e : Estimator) : Int :=
  let error := sample - e.srtt / 8
  let quarter := e.mdev / 4
  e.mdev + if error < 0 then
      if 0 < -error - quarter then (-error - quarter) / 8 else -error - quarter
    else error - quarter

def Estimator.update (sample : Int) (passed : Bool) (e : Estimator) : Estimator :=
  if e.srtt = 0 then ⟨sample * 8, sample * 2, sample * 2, sample * 2⟩
  else
    let mdev := e.deviation sample
    let mdevMax := if e.mdevMax < mdev then mdev else e.mdevMax
    let rttvar := if e.mdevMax < mdev ∧ e.rttvar < mdevMax then mdevMax else e.rttvar
    let srtt := e.srtt + (sample - e.srtt / 8)
    if passed then
      ⟨srtt, mdev, 0, if mdevMax < rttvar then rttvar - (rttvar - mdevMax) / 4 else rttvar⟩
    else ⟨srtt, mdev, mdevMax, rttvar⟩

structure Estimator.Bounded (limit : Int) (e : Estimator) : Prop where
  srtt : e.srtt = 0 ∨ 8 ≤ e.srtt
  below : e.srtt ≤ 8 * limit
  mdev : 0 ≤ e.mdev ∧ e.mdev ≤ 4 * limit
  mdevMax : 0 ≤ e.mdevMax ∧ e.mdevMax ≤ 4 * limit
  rttvar : 0 ≤ e.rttvar ∧ e.rttvar ≤ 4 * limit

theorem Estimator.deviation_bounded {limit sample : Int} {e : Estimator} (bounded : e.Bounded limit)
    (least : 1 ≤ sample) (most : sample ≤ limit) :
    0 ≤ e.deviation sample ∧ e.deviation sample ≤ 4 * limit := by
  obtain ⟨srtt, below, mdev, -, -⟩ := bounded
  unfold deviation
  dsimp only
  split
  · split <;> omega
  · omega

theorem Estimator.update_bounded {limit sample : Int} {e : Estimator} (passed : Bool)
    (bounded : e.Bounded limit) (least : 1 ≤ sample) (most : sample ≤ limit) :
    (e.update sample passed).Bounded limit ∧ 8 ≤ (e.update sample passed).srtt := by
  have deviation := Estimator.deviation_bounded bounded least most
  obtain ⟨srtt, below, mdev, mdevMax, rttvar⟩ := bounded
  unfold update
  split
  · exact ⟨⟨.inr (by dsimp only; omega), by dsimp only; omega, by dsimp only; omega,
      by dsimp only; omega, by dsimp only; omega⟩, by dsimp only; omega⟩
  · have grown : 8 ≤ e.srtt + (sample - e.srtt / 8) ∧
        e.srtt + (sample - e.srtt / 8) ≤ 8 * limit := by omega
    dsimp only
    split
    · refine ⟨⟨.inr grown.1, grown.2, deviation, by dsimp only; omega, ?_⟩, grown.1⟩
      dsimp only
      split_ifs <;> omega
    · refine ⟨⟨.inr grown.1, grown.2, deviation, ?_, ?_⟩, grown.1⟩
      · dsimp only
        split_ifs <;> omega
      · dsimp only
        split_ifs <;> omega

def RecvVars.estimator (rcv : RecvVars) : Estimator :=
  ⟨rcv.srtt.toNat, rcv.mdev.toNat, rcv.mdevMax.toNat, rcv.rttvar.toNat⟩

def ticks (mrtt : UInt32) : Int := if mrtt = 0 then 1 else mrtt.toNat

theorem ofInt_toNat {value} (low : 0 ≤ value) (high : value < 2 ^ 32) :
    ((UInt32.ofInt value).toNat : Int) = value := by
  simp only [UInt32.ofInt, UInt32.toNat_ofNat']
  omega

theorem shifted (value : UInt32) :
    (((value >>> 3).toNat : Nat) : Int) = (value.toNat : Int) / 8 ∧
      (((value >>> 2).toNat : Nat) : Int) = (value.toNat : Int) / 4 := by
  have third : (value >>> 3).toNat = value.toNat / 8 := by
    simp [UInt32.toNat_shiftRight, Nat.shiftRight_eq_div_pow]
  have second : (value >>> 2).toNat = value.toNat / 4 := by
    simp [UInt32.toNat_shiftRight, Nat.shiftRight_eq_div_pow]
  omega

theorem lowered {value floor : UInt32} (above : floor < value) :
    ((value - ((value - floor) >>> 2)).toNat : Int) =
      value.toNat - ((value.toNat : Int) - floor.toNat) / 4 := by
  have order : floor.toNat ≤ value.toNat := Nat.le_of_lt (UInt32.lt_iff_toNat_lt.mp above)
  have gap := UInt32.toNat_sub_of_le value floor (UInt32.le_of_lt above)
  have quarter := (shifted (value - floor)).2
  have small : (value - floor) >>> 2 ≤ value := UInt32.le_iff_toNat_le.mpr (by omega)
  rw [UInt32.toNat_sub_of_le _ _ small]
  omega

theorem widened {mdev deviation} (correct : (mdev.toNat : Int) = deviation) (mdevMax rttvar : UInt32) :
    let top := if mdevMax < mdev then mdev else mdevMax
    let var := if mdevMax < mdev ∧ rttvar < top then top else rttvar
    let top' : Int := if (mdevMax.toNat : Int) < deviation then deviation else mdevMax.toNat
    let var' : Int :=
      if (mdevMax.toNat : Int) < deviation ∧ (rttvar.toNat : Int) < top' then top' else rttvar.toNat
    (top.toNat : Int) = top' ∧ (var.toNat : Int) = var' ∧
      ((if top < var then var - ((var - top) >>> 2) else var).toNat : Int) =
        if top' < var' then var' - (var' - top') / 4 else var' := by
  intro top var top' var'
  have order (a b : UInt32) : a < b ↔ (a.toNat : Int) < b.toNat := by
    rw [UInt32.lt_iff_toNat_lt, Int.ofNat_lt]
  have topExact : (top.toNat : Int) = top' := by
    simp only [top, top', order, correct]
    split <;> simp_all
  have varExact : (var.toNat : Int) = var' := by
    simp only [var, var', order, topExact, correct]
    split <;> simp_all
  refine ⟨topExact, varExact, ?_⟩
  rw [← topExact, ← varExact]
  by_cases above : top < var
  · rw [if_pos above, if_pos ((order _ _).mp above), lowered above]
  · rw [if_neg above, if_neg ((order _ _).not.mp above)]

theorem ticks_bounds {mrtt} (small : mrtt.toNat < 2 ^ 29) : 1 ≤ ticks mrtt ∧ ticks mrtt ≤ 2 ^ 29 - 1 := by
  unfold ticks
  split
  · omega
  · rename_i nonzero
    have := UInt32.toNat_inj.not.mpr nonzero
    rw [UInt32.toNat_zero] at this
    omega

theorem estimate_exact {mrtt : UInt32} (seqs : SendSeq) {rcv : RecvVars}
    (bounded : rcv.estimator.Bounded (2 ^ 29 - 1)) (small : mrtt.toNat < 2 ^ 29) :
    (estimate mrtt seqs rcv).estimator =
      rcv.estimator.update (ticks mrtt) (tcpSeqGt seqs.sndUna rcv.rttSeq) := by
  obtain ⟨least, most⟩ := ticks_bounds small
  by_cases first : rcv.srtt = 0
  · have same : estimate mrtt seqs rcv = _ := if_pos first
    have zero : rcv.estimator.srtt = 0 := by simp [RecvVars.estimator, first]
    have eight := @ofInt_toNat (ticks mrtt * 8) (by omega) (by omega)
    have two := @ofInt_toNat (ticks mrtt * 2) (by omega) (by omega)
    rw [same, Estimator.update, if_pos zero]
    exact Estimator.ext eight two two two
  · have same : estimate mrtt seqs rcv = _ := if_neg first
    have nonzero : rcv.estimator.srtt ≠ 0 := fun zero =>
      first (UInt32.toNat_inj.mp (Int.ofNat_eq_zero.mp zero))
    have deviation := Estimator.deviation_bounded bounded least most
    have mdev := ofInt_toNat deviation.1 (by omega)
    have spread := widened mdev rcv.mdevMax rcv.rttvar
    have below := bounded.below
    have low : 0 ≤ rcv.estimator.srtt := Int.natCast_nonneg _
    have srtt := @ofInt_toNat (rcv.estimator.srtt + (ticks mrtt - rcv.estimator.srtt / 8))
      (by omega) (by omega)
    rw [same, Estimator.update, if_neg nonzero]
    simp only [(shifted _).1, (shifted _).2]
    by_cases passed : tcpSeqGt seqs.sndUna rcv.rttSeq
    · simp only [passed, decide_true, ↓reduceIte]
      exact Estimator.ext srtt mdev rfl spread.2.2
    · simp only [passed, decide_false, Bool.false_eq_true, ↓reduceIte]
      exact Estimator.ext srtt mdev spread.1 spread.2.1

inductive RtoEvent where
  | sample (mrtt : UInt32) (seqs : SendSeq)
  | timeout

def RtoEvent.apply (event : RtoEvent) (s : TcpStream) : Except Fault TcpStream :=
  match event with
  | .sample mrtt seqs => do
      let measured ← measureRTT mrtt { s with
        seqs
        rcv := { s.rcv with sawTimestamp := true, tsLastackRcvd := 0 } }
      updateRetransmissionTimer mrtt measured
  | .timeout => if s.ctl.rto = 0 then .error .assertion else .ok (backOff s)

def RtoEvent.run : List RtoEvent → TcpStream → Except Fault TcpStream
  | [], s => .ok s
  | event :: rest, s => event.apply s >>= RtoEvent.run rest

structure Timed (s : TcpStream) : Prop where
  opened : TcpState.established.number ≤ s.state.number
  running : s.ctl.rto ≠ 0
  bounded : s.rcv.estimator.Bounded (2 ^ 29 - 1)

theorem backOff_timed {s} (timed : Timed s) : Timed (backOff s) where
  __ := timed
  running := by
    simp only [backOff, timed.opened, ↓reduceIte]
    split
    · exact timed.running
    · assumption

theorem updateRetransmissionTimer_timed {curTs s} (timed : Timed s) :
    ∃ t, updateRetransmissionTimer curTs s = .ok t ∧ Timed t ∧ t.ctl.rto = s.ctl.rto ∧ t.rcv = s.rcv := by
  unfold updateRetransmissionTimer
  rw [if_neg timed.running]
  dsimp only
  split
  · exact ⟨_, rfl, { timed with }, rfl, rfl⟩
  · exact ⟨_, rfl, { timed with }, rfl, rfl⟩

theorem sample_timed {mrtt : UInt32} (seqs : SendSeq) {s : TcpStream} (timed : Timed s)
    (small : mrtt.toNat < 2 ^ 29) :
    ∃ t, (RtoEvent.sample mrtt seqs).apply s = .ok t ∧ Timed t ∧
      t.rcv.estimator = s.rcv.estimator.update (ticks mrtt) (tcpSeqGt seqs.sndUna s.rcv.rttSeq) ∧
      (t.ctl.rto.toNat : Int) = t.rcv.estimator.srtt / 8 + t.rcv.estimator.rttvar ∧
      1 ≤ t.ctl.rto := by
  obtain ⟨rcv, isRcv⟩ : ∃ rcv, rcv = estimate mrtt seqs
      { s.rcv with sawTimestamp := true, tsLastackRcvd := 0 } := ⟨_, rfl⟩
  have correct : rcv.estimator = s.rcv.estimator.update (ticks mrtt) (tcpSeqGt seqs.sndUna s.rcv.rttSeq) :=
    isRcv ▸ @estimate_exact mrtt seqs { s.rcv with sawTimestamp := true, tsLastackRcvd := 0 }
      timed.bounded small
  obtain ⟨least, most⟩ := ticks_bounds small
  obtain ⟨bounded, srtt⟩ := Estimator.update_bounded
    (decide (tcpSeqGt seqs.sndUna s.rcv.rttSeq)) timed.bounded least most
  rw [← correct] at bounded srtt
  have sum : (((rcv.srtt >>> 3) + rcv.rttvar).toNat : Int) =
      rcv.estimator.srtt / 8 + rcv.estimator.rttvar := by
    have eighth := (shifted rcv.srtt).1
    have below := bounded.below
    have rttvar := bounded.rttvar
    simp only [RecvVars.estimator] at *
    rw [UInt32.toNat_add]
    omega
  have positive : (1 : UInt32) ≤ (rcv.srtt >>> 3) + rcv.rttvar := by
    have rttvar := bounded.rttvar
    rw [UInt32.le_iff_toNat_le, UInt32.toNat_one]
    omega
  have running : (rcv.srtt >>> 3) + rcv.rttvar ≠ 0 := fun zero => by
    rw [zero] at positive
    exact absurd positive (by decide)
  have measured : measureRTT mrtt { s with
      seqs, rcv := { s.rcv with sawTimestamp := true, tsLastackRcvd := 0 } } =
      .ok { s with seqs, rcv, ctl := { s.ctl with rto := (rcv.srtt >>> 3) + rcv.rttvar } } := by
    simp only [measureRTT, estimateRTT, ↓reduceIte, UInt32.sub_zero, ← isRcv, running]
  obtain ⟨t, timer, timed, rto, rcvKept⟩ := @updateRetransmissionTimer_timed mrtt
    { s with seqs, rcv, ctl := { s.ctl with rto := (rcv.srtt >>> 3) + rcv.rttvar } }
    ⟨timed.opened, running, bounded⟩
  refine ⟨t, ?_, timed, ?_, ?_, ?_⟩
  · simp only [RtoEvent.apply, measured]
    exact timer
  · rw [rcvKept, ← correct]
  · rw [rto, rcvKept]
    exact sum
  · rw [rto]
    exact positive

theorem rtoRun_timed (events : List RtoEvent) : ∀ {s}, Timed s →
    (∀ mrtt seqs, RtoEvent.sample mrtt seqs ∈ events → mrtt.toNat < 2 ^ 29) →
      ∃ t, RtoEvent.run events s = .ok t ∧ Timed t := by
  induction events with
  | nil => exact fun timed _ => ⟨_, rfl, timed⟩
  | cons event rest ih =>
    intro s timed small
    have next : ∃ t, event.apply s = .ok t ∧ Timed t := by
      cases event with
      | sample mrtt seqs =>
        obtain ⟨t, done, timed, -⟩ := sample_timed seqs timed (small _ _ (List.mem_cons_self ..))
        exact ⟨t, done, timed⟩
      | timeout => exact ⟨_, if_neg timed.running, backOff_timed timed⟩
    obtain ⟨t, done, timed⟩ := next
    obtain ⟨u, ran, timed⟩ := ih timed fun mrtt seqs later => small _ _ (List.mem_cons_of_mem _ later)
    exact ⟨u, by rw [RtoEvent.run, done]; exact ran, timed⟩

/-- From any opened stream without a sample, with samples below `2 ^ 29`, the assertions on `rto`
hold and the next sample is exact. -/
theorem estimator_exact_run (s : TcpStream) (events : List RtoEvent)
    (opened : TcpState.established.number ≤ s.state.number) (running : s.ctl.rto ≠ 0)
    (fresh : s.rcv.estimator = ⟨0, 0, 0, 0⟩)
    (small : ∀ mrtt seqs, RtoEvent.sample mrtt seqs ∈ events → mrtt.toNat < 2 ^ 29) :
    ∃ t, RtoEvent.run events s = .ok t ∧ t.ctl.rto ≠ 0 ∧
      ∀ mrtt seqs, mrtt.toNat < 2 ^ 29 →
        ∃ u, (RtoEvent.sample mrtt seqs).apply t = .ok u ∧
          u.rcv.estimator = t.rcv.estimator.update (ticks mrtt) (tcpSeqGt seqs.sndUna t.rcv.rttSeq) ∧
          (u.ctl.rto.toNat : Int) = u.rcv.estimator.srtt / 8 + u.rcv.estimator.rttvar ∧
          1 ≤ u.ctl.rto := by
  have bounded : s.rcv.estimator.Bounded (2 ^ 29 - 1) := by
    rw [fresh]
    exact ⟨.inl rfl, by decide, by decide, by decide, by decide⟩
  obtain ⟨t, ran, timed⟩ := rtoRun_timed events ⟨opened, running, bounded⟩ small
  refine ⟨t, ran, timed.running, fun mrtt seqs small => ?_⟩
  obtain ⟨u, done, -, correct⟩ := sample_timed seqs timed small
  exact ⟨u, done, correct⟩

def unmeasured : TcpStream :=
  { createTCPStream sampleConfig true 0 with state := .established }

theorem estimator_exact_two_samples :
    ∃ t, RtoEvent.run [.sample 40 {}, .timeout, .sample 8 {}] unmeasured = .ok t ∧ t.ctl.rto ≠ 0 := by
  obtain ⟨t, ran, running, -⟩ := estimator_exact_run unmeasured
    [.sample 40 {}, .timeout, .sample 8 {}] (by decide) (by decide) (by rfl) (by
      intro mrtt seqs member
      simp only [List.mem_cons, RtoEvent.sample.injEq, reduceCtorEq, List.not_mem_nil,
        false_or, or_false] at member
      obtain ⟨rfl, -⟩ | ⟨rfl, -⟩ := member <;> decide)
  exact ⟨t, ran, running⟩

theorem half_range_sample_asserts :
    (estimate 0x80000000 {} unmeasured.rcv).srtt = 0 ∧
      (RtoEvent.sample 0x80000000 {}).apply unmeasured = .error .assertion := by
  exact ⟨by decide, by rfl⟩

end Mcc
