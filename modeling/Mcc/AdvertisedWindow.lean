import Mcc.ReceiveWindow

/-!
What the stack tells its peer about the receive window, and that the receive buffer can keep the
promise. The peer counts an advertised window from the acknowledgment number sent with it, so a
byte received later uses up one byte of it.
-/

namespace Mcc

open SerialNumber RingBuffer

section Sending

/-- The window a packet tells the peer. That of a SYN is not scaled; the option in our SYN makes
the shift of the others `TCP_DEFAULT_WSCALE`. -/
def Packet.advertised (packet : Packet) : Nat :=
  if packet.flags.syn then packet.window.toNat else packet.window.toNat <<< 7

def Action.Within (window : UInt32) : Action → Prop
  | .sent packet => packet.advertised ≤ window.toNat
  | _ => True

structure Sends (s t : TcpStream) : Prop where
  live : t.onHashTable = true → s.onHashTable = true
  view : t.onHashTable = true → { t.recvView with needWndAdv := s.rcv.needWndAdv } = s.recvView
  opening : t.state.opening = true → s.state.opening = true
  receiving : t.state.receiving = true → s.state.receiving = true
  history : t.onHashTable = true → s.ctl.wscaleMine = 7 →
    Grows (Action.Within s.rcv.rcvWnd) s.history t.history

variable {config : Config} {s t u : TcpStream} {curTs : UInt32}

theorem Quiet.sends (quiet : Quiet s t) : Sends s t where
  __ := quiet
  view live := by
    rw [quiet.view live]
    rfl
  history _ _ := quiet.history.mono fun action unsent => by
    cases action <;> first | trivial | exact absurd trivial unsent

theorem Sends.trans (first : Sends s t) (second : Sends t u) : Sends s u where
  live := first.live ∘ second.live
  view live := by
    rw [← first.view (second.live live), ← second.view live]
  opening := first.opening ∘ second.opening
  receiving := first.receiving ∘ second.receiving
  history live scale := by
    have on := second.live live
    have view := first.view on
    simp only [TcpStream.recvView, RecvView.mk.injEq] at view
    obtain ⟨-, rcvWnd, -, -, -, same, -⟩ := view
    refine (first.history on scale).trans ?_
    rw [← rcvWnd]
    exact second.history live (same.trans scale)

theorem advertised_le {flags wack payload} (scale : s.ctl.wscaleMine = 7) :
    (packetOf flags wack payload s).advertised ≤ s.rcv.rcvWnd.toNat := by
  have cut : ∀ word : UInt32, (min word 65535).toUInt16.toNat ≤ word.toNat := by
    intro word
    rw [UInt32.toNat_toUInt16, toNat_min]
    omega
  unfold Packet.advertised packetOf advertisedWindow
  dsimp only
  cases flags.syn with
  | true =>
    simp only [if_true, UInt32.shiftRight_zero]
    exact cut _
  | false =>
    have shifted := cut (s.rcv.rcvWnd >>> 7)
    have floor : (s.rcv.rcvWnd >>> 7).toNat = s.rcv.rcvWnd.toNat / 128 := by
      simp [UInt32.toNat_shiftRight, Nat.shiftRight_eq_div_pow]
    simp only [Bool.false_eq_true, if_false, scale, Nat.shiftLeft_eq]
    change (min (s.rcv.rcvWnd >>> 7) 65535).toUInt16.toNat * 2 ^ 7 ≤ _
    omega

theorem handOver_sends (flags : Flags) (wack : Bool) (payload : List UInt8) (length : Nat) :
    Sends s (handOver curTs flags wack payload length s) where
  live := id
  view _ := rfl
  opening := id
  receiving := id
  history _ scale := Grows.cons (advertised_le scale) _

theorem sendTCPPacket_sends (output : Bool) (flags : Flags) (wack : Bool) (payload : List UInt8)
    (payloadlen : UInt16) : Sends s (sendTCPPacket output curTs flags wack payload payloadlen s).1 := by
  rcases sendTCPPacket_cases output curTs flags wack payload payloadlen s with
    ⟨same, -⟩ | ⟨-, -, sent⟩
  · rw [same]
    exact (Quiet.refl s).sends
  · rw [sent]
    exact handOver_sends ..

theorem writeTCPControlList_sends {output}
    (done : writeTCPControlList output curTs s = .ok t) : Sends s t := by
  refine @writeTCPControlList_preserves _ _ _ (Sends s) _ (fun _ _ => ?_) (fun before => ?_)
    (fun before destroy => ?_) done
  · exact Quiet.sends { Quiet.refl _ with }
  · exact before.trans (handOver_sends ..)
  · exact before.trans (destroyed_still destroy).toQuiet.sends

theorem writeTCPDataList_sends {buffers} (done : writeTCPDataList buffers curTs s = .ok t) :
    Sends s t := by
  refine writeTCPDataList_preserves (fun {_ u _} _ before passed => ?_) (fun {_ u} before => ?_)
    (Quiet.refl s).sends done
  · refine before.trans (flushPass_keeps passed (Quiet.refl u).sends ?_ fun _ _ => handOver_sends ..)
    exact Quiet.sends { Quiet.refl _ with }
  · exact { before with }

theorem writeTCPACKList_sends (buffers : Nat) : Sends s (writeTCPACKList buffers curTs s) := by
  have relisted : ∀ {u lists}, Sends s u → Sends s { u with lists } := fun before =>
    { before with }
  refine relisted (serveACKs_preserves curTs (fun _ _ before => ?_) (fun _ _ _ => relisted) buffers
    (Quiet.refl s).sends)
  exact Sends.trans before (sendTCPPacket_sends ..)

end Sending

section Offer

def Action.packet? : Action → Option Packet
  | .sent packet => some packet
  | _ => none

def windowLeft (left : Nat) (s t : TcpStream) : Nat :=
  match (t.history.take (t.history.length - s.history.length)).findSome? Action.packet? with
  | some packet => packet.advertised
  | none => left - (received t - received s).toNat

structure Offer where
  host : Host
  left : Nat

def Offer.step (config : Config) (offer : Offer) (taken : Step) : Except Fault Offer := do
  let host ← Mcc.step config offer.host taken
  return { host, left := windowLeft offer.left offer.host.stream host.stream }

def Offer.run (config : Config) (offer : Offer) (steps : List Step) : Except Fault Offer :=
  steps.foldlM (Offer.step config) offer

/-- The sequence number of the next byte; in `SYN_RCVD` the handshake will set `rcv_nxt` to it. -/
def nextByte (s : TcpStream) : UInt32 :=
  if s.state = .synRcvd then s.rcv.irs + 1 else s.rcv.rcvNxt

def Offer.Honoured (config : Config) (offer : Offer) : Prop :=
  offer.host.stream.onHashTable = true →
  offer.host.stream.state.receiving = true ∨ offer.host.stream.state = .synRcvd →
  ∀ buff payload seq, PutInto config offer.host.stream buff →
    (seq - nextByte offer.host.stream).toNat + payload.length ≤ offer.left →
    ∃ after, rbPut buff payload (UInt32.ofNat payload.length) seq = .ok (after, payload.length)

variable {config : Config} {s t : TcpStream} {left : Nat}

theorem Grows.added {allowed older newer} (grows : Grows allowed older newer) :
    ∀ action ∈ newer.take (newer.length - older.length), allowed action := by
  obtain ⟨added, rfl, all⟩ := grows
  simpa using all

theorem Absorbs.honours (absorbs : Absorbs config s t) (honours : Honours config left s) :
    Honours config (windowLeft left s t) t := by
  have unsent : (t.history.take (t.history.length - s.history.length)).findSome?
      Action.packet? = none := by
    rw [List.findSome?_eq_none_iff]
    intro action member
    have notSent := absorbs.history.added action member
    cases action <;> first | rfl | exact absurd trivial notSent
  rw [windowLeft, unsent]
  exact absorbs.kept left honours

theorem WindowInv.window_eq_space (inv : WindowInv config left s)
    (active : s.state.active = true) : s.rcv.rcvWnd.toNat = space config s := by
  have initial : s.rcv.rcvbuf = none → s.rcv.rcvWnd = 14600 → s.rcv.rcvWnd.toNat = space config s := by
    intro absent window
    simp [space, absent, window]
  rcases active_cases active with opening | receiving
  · exact initial (inv.opening opening).1 (inv.opening opening).2
  · have fitted := inv.receiving receiving
    cases held : s.rcv.rcvbuf with
    | none =>
      simp only [Fitted, held] at fitted
      exact initial held fitted.2
    | some buff =>
      simp only [Fitted, held] at fitted
      have bounded := config.rbm.bounded
      simp only [space, held, fitted.2.2, UInt32.toNat_ofNat']
      omega

theorem Sends.honours (sends : Sends s t) (honours : Honours config left s) :
    Honours config (windowLeft left s t) t := by
  intro live
  have inv := honours (sends.live live)
  have view := sends.view live
  have within := (sends.history live inv.scale).added
  have fitted : s.state.receiving = true → Fitted config t := by
    intro receiving
    have fields := view
    simp only [TcpStream.recvView, RecvView.mk.injEq] at fields
    obtain ⟨rcvNxt, rcvWnd, irs, rcvbuf, -⟩ := fields
    simpa only [Fitted, rcvNxt, rcvWnd, irs, rcvbuf] using inv.receiving receiving
  simp only [TcpStream.recvView, RecvView.mk.injEq] at view
  obtain ⟨-, rcvWnd, -, rcvbuf, -, scale, -⟩ := view
  refine ⟨scale.trans inv.scale, fun opening => ?_, fun receiving => ?_, fun large active => ?_⟩
  · rw [rcvbuf, rcvWnd]
    exact inv.opening (sends.opening opening)
  · exact fitted (sends.receiving receiving)
  · have before : s.state.active = true := by
      rcases active_cases active with opening | receiving
      · simp [TcpState.active, sends.opening opening]
      · simp [TcpState.active, sends.receiving receiving]
    have same : space config t = space config s := by simp only [space, rcvbuf]
    rw [same, windowLeft]
    split
    · rename_i packet found
      obtain ⟨action, member, isPacket⟩ := List.exists_of_findSome?_eq_some found
      have inside := within action member
      cases action <;> cases isPacket
      exact inv.window_eq_space before ▸ inside
    · exact Nat.le_trans (Nat.sub_le _ _) (inv.room large before)

theorem step_honours {listener taken} (fits : taken.Fits config)
    (honours : Honours config left s) (done : stepStream config listener s taken = .ok t) :
    Honours config (windowLeft left s t) t := by
  have quietly : Quiet s t → Honours config (windowLeft left s t) t :=
    fun quiet => (@Quiet.absorbs config _ _ quiet).honours honours
  cases stepStream_turned done with
  | still still => exact quietly still.toQuiet
  | segment process =>
    refine (processTCPPacket_absorbs ?_ process).honours honours
    rintro memory rfl
    exact fits
  | writeControl control => exact (writeTCPControlList_sends control).honours honours
  | writeData data => exact (writeTCPDataList_sends data).honours honours
  | writeAck => exact (writeTCPACKList_sends _).honours honours
  | ackq =>
    refine quietly ?_
    unfold handleAckq
    split
    · exact .refl _
    · exact { Quiet.refl _ with }
  | recv read => exact (mtcpRecv_absorbs read).honours honours

theorem run_honours {steps : List Step} {offer after : Offer}
    (fits : ∀ taken ∈ steps, taken.Fits config) (honours : Honours config offer.left offer.host.stream)
    (done : offer.run config steps = .ok after) : Honours config after.left after.host.stream := by
  induction steps generalizing offer with
  | nil =>
    cases done
    exact honours
  | cons taken rest ih =>
    obtain ⟨next, stepped, done⟩ := bind_ok (show offer.step config taken >>= _ = _ from done)
    obtain ⟨host, hostStepped, isNext⟩ := bind_ok stepped
    obtain ⟨stream, streamStepped, isHost⟩ := bind_ok hostStepped
    cases isHost
    cases isNext
    refine ih (fun other member => fits other (List.mem_cons_of_mem _ member)) ?_ done
    exact step_honours (fits taken List.mem_cons_self) honours streamStepped

theorem start_honours {opening host} (done : start config opening = .ok host) :
    Honours config 0 host.stream := by
  have fresh : ∀ {s : TcpStream}, s.ctl.wscaleMine = 7 → s.rcv.rcvbuf = none →
      s.rcv.rcvWnd = 14600 → s.state.opening = true → Honours config 0 s := by
    intro s scale absent window opening _
    refine ⟨scale, fun _ => ⟨absent, window⟩, fun receiving => ?_, fun _ _ => Nat.zero_le _⟩
    rw [opening_not_receiving opening] at receiving
    cases receiving
  cases opening with
  | active iss room listener =>
    cases done
    cases room <;> exact fresh rfl rfl rfl rfl
  | passive iss curTs segment =>
    obtain ⟨stream, process, finish⟩ := bind_ok done
    cases finish
    have fits : Surroundings.Fits config ⟨curTs, none, true, true⟩ := fun _ => nofun
    have kept := (processTCPPacket_absorbs fits process).kept 0 (fresh rfl rfl rfl rfl)
    rwa [Nat.zero_sub] at kept

theorem Honours.honoured {offer : Offer} (large : 14600 ≤ config.rbm.chunkSize)
    (honours : Honours config offer.left offer.host.stream) : offer.Honoured config := by
  intro live state buff payload seq putInto inside
  have inv := honours live
  have bounded := config.rbm.bounded
  generalize offer.host.stream = s at *
  suffices accepted : Sound config.rbm buff ∧ nextByte s = plus buff.headSeq buff.mergedLen ∧
      offer.left + buff.mergedLen ≤ config.rbm.chunkSize by
    obtain ⟨sound, next, room⟩ := accepted
    suffices fits : (seq - buff.headSeq).toNat + payload.length ≤ config.rbm.chunkSize from
      (sound.accepts fits).imp fun _ put => put.1
    have regroup : seq - buff.headSeq = plus (seq - nextByte s) buff.mergedLen := by
      rw [next, plus, plus]
      grind
    rw [regroup, toNat_plus]
    omega
  rcases state with receiving | synRcvd
  · obtain ⟨sound, next, -, room⟩ := (inv.receiving receiving).putInto putInto
    have merged := sound.mergedLen_le
    have left := inv.room large (by simp [TcpState.active, receiving])
    have other : s.state ≠ .synRcvd := by
      intro same
      rw [same] at receiving
      cases receiving
    have roomLeft := room large
    refine ⟨sound, ?_, by omega⟩
    rw [nextByte, if_neg other, next]
  · have opening : s.state.opening = true := by rw [synRcvd]; rfl
    have absent := (inv.opening opening).1
    rcases putInto with held | ⟨-, chunk, fits, rfl⟩
    · rw [absent] at held
      cases held
    · have left := inv.room large (by simp [TcpState.active, opening])
      simp only [space, absent] at left
      refine ⟨sound_init fits _, ?_, Nat.le_trans left large⟩
      rw [nextByte, if_pos synRcvd]
      exact (UInt32.add_zero _).symm

end Offer

def firstSyn : Segment where
  seq := 0
  ackSeq := 0
  flags := { syn := true }
  window := 65535
  mssOption := some 1460

theorem initial_window_advertised (config : Config) :
    ∃ host offer, start config (.passive 0 0 firstSyn) = .ok host ∧
      Offer.run config ⟨host, 0⟩ [.writeControl true 0] = .ok offer ∧
      offer.host.stream.onHashTable = true ∧ offer.host.stream.state = .synRcvd ∧
      offer.host.stream.rcv.rcvbuf = none ∧ offer.host.stream.rcv.irs = 0 ∧ offer.left = 14600 :=
  ⟨_, _, rfl, rfl, rfl, rfl, rfl, rfl, rfl⟩

theorem not_honoured_of_small {config : Config} {offer : Offer}
    (small : config.rbm.chunkSize < 14600) (live : offer.host.stream.onHashTable = true)
    (state : offer.host.stream.state = .synRcvd) (absent : offer.host.stream.rcv.rcvbuf = none)
    (left : offer.left = 14600) : ¬offer.Honoured config := by
  intro honoured
  obtain ⟨base, isBase⟩ : ∃ base, offer.host.stream.rcv.irs + 1 = base := ⟨_, rfl⟩
  obtain ⟨chunk, fits⟩ : ∃ chunk : List UInt8, chunk.length = config.rbm.chunkSize :=
    ⟨List.replicate _ 0, List.length_replicate⟩
  have offset : (plus base config.rbm.chunkSize - base).toNat = config.rbm.chunkSize := by
    have distance := toNat_plus_sub_plus base (Nat.zero_le config.rbm.chunkSize) (by omega)
    rwa [Nat.sub_zero, show plus base 0 = base from UInt32.add_zero _] at distance
  have stop : (plus base config.rbm.chunkSize - base + UInt32.ofNat 1).toNat =
      config.rbm.chunkSize + 1 := by
    rw [UInt32.toNat_add, offset, UInt32.toNat_ofNat']
    omega
  obtain ⟨after, accepted⟩ := honoured live (.inr state) (rbInit config.rbm chunk base) [0]
    (plus base config.rbm.chunkSize) (.inr ⟨absent, chunk, fits, by rw [isBase]⟩) (by
      rw [nextByte, if_pos state, isBase, offset, left]
      exact small)
  have refused : (([0] : List UInt8).length : Int) ≤ 0 := by
    refine (rbPut_full rfl ?_ ?_ accepted).2
    · exact stop ▸ Nat.lt_succ_self _
    · exact stop ▸ (by omega)
  exact absurd refused (by decide)

/-- `RBPut` accepts every payload in the window advertised last just if the receive buffers are not
smaller than the initial window. -/
theorem advertised_window_honoured (config : Config) :
    (∀ (opening : Opening) (host : Host) (steps : List Step) (offer : Offer), opening.Valid →
      start config opening = .ok host → (∀ taken ∈ steps, taken.Fits config) →
      Offer.run config ⟨host, 0⟩ steps = .ok offer → offer.Honoured config) ↔
    14600 ≤ config.rbm.chunkSize := by
  constructor
  · intro honoured
    by_contra small
    obtain ⟨host, offer, started, done, live, state, absent, -, left⟩ := initial_window_advertised config
    refine not_honoured_of_small (Nat.not_le.mp small) live state absent left ?_
    refine honoured (.passive 0 0 firstSyn) host _ offer ⟨rfl, rfl⟩ started ?_ done
    simp [Step.Fits]
  · intro large opening host steps offer _ started fits done
    exact (run_honours fits (start_honours started) done).honoured large

def handshakeAck : Segment where
  seq := 1
  ackSeq := 1
  flags := { ack := true }
  window := 65535

theorem established_refuses_advertised_byte :
    ∃ host offer, start sampleConfig (.passive 0 0 firstSyn) = .ok host ∧
      Offer.run sampleConfig ⟨host, 0⟩
        [.writeControl true 0, .segment 0 none true handshakeAck] = .ok offer ∧
      offer.host.stream.state = .established ∧ offer.left = 14600 ∧
      ¬offer.Honoured sampleConfig := by
  refine ⟨_, _, rfl, rfl, rfl, rfl, fun honoured => ?_⟩
  obtain ⟨after, accepted⟩ := honoured rfl (.inl rfl)
    (rbInit sampleConfig.rbm (List.replicate 64 0) 1) [0] 65
    (.inr ⟨rfl, List.replicate 64 0, List.length_replicate, rfl⟩) (by decide)
  have full : rbPut (rbInit sampleConfig.rbm (List.replicate 64 0) 1) [0] 1 65 =
      .ok (rbInit sampleConfig.rbm (List.replicate 64 0) 1, -2) := by decide
  cases full.symm.trans accepted

end Mcc
