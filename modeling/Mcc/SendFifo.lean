import Mcc.TcpCalls

/-!
`CopyFromUser` trusts `snd_wnd`, which `ProcessACK` keeps as well: whatever the order of the two,
the send buffer is a queue of the bytes written, and `SBPut` stores what it is asked to store.
-/

namespace Mcc.SendFifo

open SerialNumber

structure Fifo where
  written : List UInt8 := []
  removed : Nat := 0

namespace Fifo

def pending (fifo : Fifo) : List UInt8 := fifo.written.drop fifo.removed

def put (data : List UInt8) (fifo : Fifo) : Fifo := { fifo with written := fifo.written ++ data }

def remove (count : Nat) (fifo : Fifo) : Fifo :=
  { fifo with removed := fifo.removed + min count fifo.pending.length }

end Fifo

inductive Call (config : Config) where
  | write (chunk : Option { memory : List UInt8 // memory.length = config.sbm.chunkSize })
      (data : List UInt8)
  | ack (segment : Segment) (ackSeq : UInt32)
  | other (t : TcpStream)

variable {config : Config} {fifo : Fifo} {buf : TcpSendBuffer} {data : List UInt8} {iss : UInt32}
  {s : TcpStream}

def step (state : TcpStream × Fifo) : Call config → Except Fault (TcpStream × Fifo)
  | .write chunk data => do
      let sndlen := min (signed state.1.ctl.sndWnd) (signed (UInt32.ofNat data.length))
      let (copied, moved) ← copyFromUser config (chunk.map Subtype.val) data state.1
      return (copied, if moved then state.2.put (data.take sndlen.toNat) else state.2)
  | .ack segment ackSeq =>
    match state.1.seqs.sndbuf with
    | none => .ok state
    | some buf => .ok (removeAcked segment ackSeq buf state.1,
        state.2.remove (ackSeq - buf.headSeq).toNat)
  | .other t => .ok ({ t with
      seqs := { t.seqs with iss := state.1.seqs.iss, sndbuf := state.1.seqs.sndbuf }
      ctl := { t.ctl with sndWnd := state.1.ctl.sndWnd } }, state.2)

structure Holds (config : Config) (iss : UInt32) (fifo : Fifo) (buf : TcpSendBuffer) : Prop where
  valid : buf.Valid
  size : buf.size.toNat = config.sbm.chunkSize
  contents : buf.contents = fifo.pending
  left : fifo.removed ≤ fifo.written.length
  headSeq : buf.headSeq = plus (iss + 1) fifo.removed
  cumLen : buf.cumLen = fifo.written.length

def Refines (config : Config) (s : TcpStream) (fifo : Fifo) : Prop :=
  match s.seqs.sndbuf with
  | none => fifo = {} ∧ s.ctl.sndWnd = UInt32.ofNat config.sbm.chunkSize
  | some buf => Holds config s.seqs.iss fifo buf ∧ s.ctl.sndWnd = buf.size - buf.len

theorem sbInit_holds (chunk : data.length = config.sbm.chunkSize) (iss : UInt32) :
    Holds config iss {} (sbInit config.sbm data (iss + 1)) := by
  refine ⟨sbInit_valid config.sbm (iss + 1) chunk, ?_, rfl, Nat.le_refl _, (plus_zero _).symm, rfl⟩
  have bounded := config.sbm.bounded
  change (UInt32.ofNat _).toNat = _
  rw [UInt32.toNat_ofNat']
  omega

theorem sbRemove_min (buf : TcpSendBuffer) (count : Nat) :
    (sbRemove buf count).1 = (sbRemove buf (min count buf.len.toNat)).1 := by
  unfold sbRemove
  rw [Nat.min_eq_left (Nat.min_le_right count _)]
  by_cases zero : min count buf.len.toNat = 0
  · simp only [zero, if_true, ite_self, apply_ite Prod.fst]
  · rw [if_neg (by omega), if_neg zero, if_neg zero]

section

variable (holds : Holds config iss fifo buf)
include holds

theorem Holds.len : fifo.pending.length = buf.len.toNat := by
  rw [← holds.contents, holds.valid.length_contents]

theorem Holds.put {len : Nat} (above : 0 < len)
    (supply : len ≤ data.length) (room : len ≤ (buf.size - buf.len).toNat) (s : TcpStream) :
    ∃ after, putData data len buf s = .ok { s with
        seqs := { s.seqs with sndbuf := some after }
        ctl := { s.ctl with sndWnd := after.size - after.len } } ∧
      Holds config iss (fifo.put (data.take len)) after := by
  have within := holds.valid.len_le
  rw [UInt32.toNat_sub_of_le _ _ (UInt32.le_iff_toNat_le.mpr within)] at room
  obtain ⟨after, done, valid, headSeq, size, -, cumLen, contents⟩ :=
    sbPut_spec holds.valid supply above (by omega)
  refine ⟨after, ?_, valid, size ▸ holds.size, ?_, ?_, headSeq.trans holds.headSeq, ?_⟩
  · rw [putData, done]
    exact if_neg (not_not.mpr rfl)
  · rw [contents, holds.contents]
    exact (List.drop_append_of_le_length holds.left).symm
  · exact Nat.le_trans holds.left (List.length_append ▸ Nat.le_add_right _ _)
  · rw [cumLen, holds.cumLen, Fifo.put, List.length_append, List.length_take, Nat.min_eq_left supply]

theorem Holds.remove (count : Nat) : Holds config iss (fifo.remove count) (sbRemove buf count).1 := by
  rw [sbRemove_min, Fifo.remove, holds.len]
  rcases Nat.eq_zero_or_pos (min count buf.len.toNat) with zero | above
  · rw [zero]
    exact holds
  · obtain ⟨-, valid, headSeq, size, -, cumLen, contents⟩ :=
      sbRemove_spec holds.valid above (Nat.min_le_right _ _)
    have length := holds.len
    rw [Fifo.pending, List.length_drop] at length
    refine ⟨valid, size ▸ holds.size, ?_, ?_, ?_, cumLen.trans holds.cumLen⟩
    · rw [contents, holds.contents, Fifo.pending, List.drop_drop]
      rfl
    · have left := holds.left
      dsimp only
      omega
    · rw [headSeq, holds.headSeq, plus_plus]

end

theorem copyFromUser_refines (refines : Refines config s fifo) (data : List UInt8)
    (chunk : Option { memory : List UInt8 // memory.length = config.sbm.chunkSize }) :
    ∃ after, step (s, fifo) (.write chunk data) = .ok after ∧ Refines config after.1 after.2 := by
  obtain ⟨sndlen, isLen⟩ : ∃ n, n = min (signed s.ctl.sndWnd) (signed (UInt32.ofNat data.length)) :=
    ⟨_, rfl⟩
  simp only [step, copyFromUser, ← isLen]
  by_cases zero : sndlen ≤ 0
  · rw [if_pos zero]
    exact ⟨_, rfl, refines⟩
  have supply : sndlen.toNat ≤ data.length := by
    have atMost := signed_le (UInt32.ofNat data.length)
    rw [UInt32.toNat_ofNat'] at atMost
    omega
  have room : sndlen.toNat ≤ s.ctl.sndWnd.toNat := by
    have atMost := signed_le s.ctl.sndWnd
    omega
  rw [if_neg zero]
  rw [Refines] at refines
  split at refines
  · rename_i absent
    obtain ⟨rfl, window⟩ := refines
    rw [absent]
    cases chunk with
    | none => exact ⟨_, rfl, by rw [Refines, absent]; exact ⟨rfl, window⟩⟩
    | some memory =>
      obtain ⟨after, done, holds⟩ := (sbInit_holds memory.2 s.seqs.iss).put
        (by omega) supply (by rw [window] at room; simpa [sbInit] using room) s
      simp only [Option.map_some, done]
      exact ⟨_, rfl, holds, rfl⟩
  · rename_i buf present
    obtain ⟨after, done, holds⟩ := refines.1.put (by omega) supply (refines.2 ▸ room) s
    rw [present]
    simp only [done]
    exact ⟨_, rfl, holds, rfl⟩

theorem step_refines (refines : Refines config s fifo) (call : Call config) :
    ∃ after, step (s, fifo) call = .ok after ∧ Refines config after.1 after.2 := by
  cases call with
  | write chunk data => exact copyFromUser_refines refines data chunk
  | other t => exact ⟨_, rfl, refines⟩
  | ack segment ackSeq =>
    simp only [step]
    split
    · exact ⟨_, rfl, refines⟩
    · rename_i buf present
      rw [Refines, present] at refines
      refine ⟨_, rfl, ?_⟩
      have holds := refines.1.remove (ackSeq - buf.headSeq).toNat
      unfold removeAcked
      dsimp only
      split
      · exact ⟨holds, rfl⟩
      · exact ⟨holds, rfl⟩

theorem run_refines (calls : List (Call config)) : ∀ {s fifo}, Refines config s fifo →
    ∃ after, calls.foldlM step (s, fifo) = .ok after ∧ Refines config after.1 after.2 := by
  induction calls with
  | nil => exact fun refines => ⟨_, rfl, refines⟩
  | cons call calls ih =>
    intro s fifo refines
    obtain ⟨middle, done, refines⟩ := step_refines refines call
    obtain ⟨after, rest, refines⟩ := ih refines
    refine ⟨after, ?_, refines⟩
    rw [List.foldlM_cons, done]
    exact rest

theorem send_buffer_fifo (config : Config) (socket : Bool) (iss : UInt32) (calls : List (Call config)) :
    ∃ s fifo, calls.foldlM step (createTCPStream config socket iss, {}) = .ok (s, fifo) ∧
      Refines config s fifo := by
  have opened : Refines config (createTCPStream config socket iss) {} := ⟨rfl, rfl⟩
  obtain ⟨⟨s, fifo⟩, done, refines⟩ := run_refines calls opened
  exact ⟨s, fifo, done, refines⟩

end Mcc.SendFifo
