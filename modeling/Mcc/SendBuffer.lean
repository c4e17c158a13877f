import Mcc.Machine

/-!
The send buffer of `tcp_send_buffer.c`: a chunk of memory that holds the bytes written by the
application from the first one that is not acknowledged on.
-/

namespace Mcc

open SerialNumber

structure TcpSendBuffer where
  data : List UInt8
  head : Nat
  headOff : UInt32
  tailOff : UInt32
  len : UInt32
  -- a `uint64_t`, counted here without its wrap
  cumLen : Nat
  size : UInt32
  headSeq : UInt32
  initSeq : UInt32
  deriving Repr, DecidableEq

structure SBManager where
  chunkSize : Nat
  positive : 0 < chunkSize
  bounded : chunkSize ≤ 2 ^ 31 - 4

def sbInit (sbm : SBManager) (data : List UInt8) (initSeq : UInt32) : TcpSendBuffer where
  data := data
  head := 0
  headOff := 0
  tailOff := 0
  len := 0
  cumLen := 0
  size := UInt32.ofNat sbm.chunkSize
  headSeq := initSeq
  initSeq := initSeq

def sbPut (buf : TcpSendBuffer) (data : List UInt8) (len : Nat) :
    Except Fault (TcpSendBuffer × Int) := do
  if len = 0 then return (buf, 0)
  let toPut := min len (buf.size - buf.len).toNat
  if toPut = 0 then return (buf, -2)
  let filled := { buf with
    len := buf.len + UInt32.ofNat toPut
    cumLen := buf.cumLen + toPut }
  if buf.tailOff.toNat + toPut < buf.size.toNat then
    let copied ← memcpy buf.data buf.tailOff.toNat data toPut
    return ({ filled with data := copied, tailOff := buf.tailOff + UInt32.ofNat toPut }, toPut)
  else
    let moved ← memmove buf.data 0 buf.head buf.len.toNat
    let copied ← memcpy moved buf.len.toNat data toPut
    return ({ filled with
      data := copied
      head := 0
      headOff := 0
      tailOff := buf.len + UInt32.ofNat toPut }, toPut)

def sbRemove (buf : TcpSendBuffer) (len : Nat) : TcpSendBuffer × Int :=
  if len = 0 then (buf, 0)
  else
    let toRemove := min len buf.len.toNat
    if toRemove = 0 then (buf, -2)
    else
      let headOff := buf.headOff + UInt32.ofNat toRemove
      let removed := { buf with
        headOff
        head := headOff.toNat
        headSeq := buf.headSeq + UInt32.ofNat toRemove
        len := buf.len - UInt32.ofNat toRemove }
      if removed.len = 0 ∧ 0 < removed.headOff then
        ({ removed with head := 0, headOff := 0, tailOff := 0 }, toRemove)
      else (removed, toRemove)

namespace TcpSendBuffer

def contents (buf : TcpSendBuffer) : List UInt8 := (buf.data.drop buf.head).take buf.len.toNat

def removed (buf : TcpSendBuffer) : Nat := buf.cumLen - buf.len.toNat

structure Valid (buf : TcpSendBuffer) : Prop where
  chunk : buf.data.length = buf.size.toNat
  small : buf.size.toNat ≤ 2 ^ 31 - 4
  head_eq : buf.head = buf.headOff.toNat
  tail_eq : buf.tailOff.toNat = buf.headOff.toNat + buf.len.toNat
  tail_le : buf.tailOff.toNat ≤ buf.size.toNat
  counted : buf.len.toNat ≤ buf.cumLen

end TcpSendBuffer

open TcpSendBuffer

variable {data : List UInt8}

theorem sbInit_valid (sbm : SBManager) (initSeq : UInt32) (chunk : data.length = sbm.chunkSize) :
    (sbInit sbm data initSeq).Valid := by
  have bounded := sbm.bounded
  have size : (UInt32.ofNat sbm.chunkSize).toNat = sbm.chunkSize := by
    rw [UInt32.toNat_ofNat']
    omega
  exact {
    chunk := by simpa [sbInit, size] using chunk
    small := by simpa [sbInit, size] using bounded
    head_eq := rfl
    tail_eq := rfl
    tail_le := by simp [sbInit]
    counted := Nat.le_refl _ }

variable {buf : TcpSendBuffer}

theorem TcpSendBuffer.Valid.len_le (valid : buf.Valid) : buf.len.toNat ≤ buf.size.toNat := by
  have tailEq := valid.tail_eq
  have tailLe := valid.tail_le
  omega

theorem TcpSendBuffer.Valid.length_contents (valid : buf.Valid) :
    buf.contents.length = buf.len.toNat := by
  obtain ⟨chunk, -, headEq, tailEq, tailLe, -⟩ := valid
  simp only [contents, List.length_take, List.length_drop]
  omega

theorem window_copied {memory source : List UInt8} {first shown count : Nat}
    (room : first + shown + count ≤ memory.length) (supply : count ≤ source.length) :
    ((memory.take (first + shown) ++ source.take count ++
        memory.drop (first + shown + count)).drop first).take (shown + count) =
      (memory.drop first).take shown ++ source.take count := by
  apply List.ext_getElem?
  intro index
  have shownLength : ((memory.drop first).take shown).length = shown := by
    simp only [List.length_take, List.length_drop]
    omega
  rcases Nat.lt_or_ge index shown with inShown | beyondShown
  · rw [List.getElem?_take_of_lt (by omega), List.getElem?_drop, getElem?_copied room supply,
      if_neg (by omega), List.getElem?_append_left (by omega), List.getElem?_take_of_lt inShown,
      List.getElem?_drop]
  · rw [List.getElem?_append_right (by omega), shownLength]
    rcases Nat.lt_or_ge index (shown + count) with inside | outside
    · rw [List.getElem?_take_of_lt inside, List.getElem?_drop, getElem?_copied room supply,
        if_pos (by omega), List.getElem?_take_of_lt (by omega)]
      congr 1
      omega
    · rw [List.getElem?_take_eq_none outside, List.getElem?_take_eq_none (by omega)]

theorem sbPut_spec {len : Nat} (valid : buf.Valid) (supply : len ≤ data.length) (above : 0 < len)
    (room : buf.len.toNat + len ≤ buf.size.toNat) :
    ∃ after, sbPut buf data len = .ok (after, len) ∧ after.Valid ∧
      after.headSeq = buf.headSeq ∧ after.size = buf.size ∧
      after.len.toNat = buf.len.toNat + len ∧ after.cumLen = buf.cumLen + len ∧
      after.contents = buf.contents ++ data.take len := by
  have contentsLength := valid.length_contents
  obtain ⟨chunk, small, headEq, tailEq, tailLe, counted⟩ := valid
  have toPut : min len (buf.size - buf.len).toNat = len := by
    rw [UInt32.toNat_sub_of_le _ _ (UInt32.le_iff_toNat_le.mpr (by omega))]
    omega
  have lenEq : (buf.len + UInt32.ofNat len).toNat = buf.len.toNat + len := by
    simp only [UInt32.toNat_add, UInt32.toNat_ofNat']
    omega
  have notZero : len ≠ 0 := by omega
  by_cases fits : buf.tailOff.toNat + len < buf.size.toNat
  · have tailSum : (buf.tailOff + UInt32.ofNat len).toNat = buf.tailOff.toNat + len := by
      simp only [UInt32.toNat_add, UInt32.toNat_ofNat']
      omega
    have copyRoom : buf.tailOff.toNat + len ≤ buf.data.length := by omega
    have result : sbPut buf data len = .ok ({ buf with
        data := buf.data.take buf.tailOff.toNat ++ data.take len ++
          buf.data.drop (buf.tailOff.toNat + len)
        tailOff := buf.tailOff + UInt32.ofNat len
        len := buf.len + UInt32.ofNat len
        cumLen := buf.cumLen + len }, len) := by
      simp only [sbPut, notZero, toPut, fits, if_true, if_false, memcpy_ok copyRoom supply]
      rfl
    refine ⟨_, result, ?_, rfl, rfl, lenEq, rfl, ?_⟩
    · exact {
        chunk := (length_copied copyRoom supply).trans chunk
        small
        head_eq := headEq
        tail_eq := by simp only [tailSum, lenEq]; omega
        tail_le := by simp only [tailSum]; omega
        counted := by simp only [lenEq]; omega }
    · simp only [contents, lenEq]
      rw [show buf.tailOff.toNat = buf.head + buf.len.toNat by omega]
      exact window_copied (by omega) supply
  · have moveRoom : 0 + buf.len.toNat ≤ buf.data.length := by omega
    have kept : buf.len.toNat ≤ (buf.data.drop buf.head).length := by
      simp only [List.length_drop]
      omega
    have moved : memmove buf.data 0 buf.head buf.len.toNat =
        .ok (buf.data.take 0 ++ (buf.data.drop buf.head).take buf.len.toNat ++
          buf.data.drop (0 + buf.len.toNat)) := by
      rw [memmove, if_pos (by omega)]
      exact memcpy_ok moveRoom kept
    have movedLength := length_copied moveRoom kept
    have movedContents : ((buf.data.take 0 ++ (buf.data.drop buf.head).take buf.len.toNat ++
        buf.data.drop (0 + buf.len.toNat)).drop 0).take buf.len.toNat = buf.contents := by
      have correct : ((buf.data.drop buf.head).take buf.len.toNat).length = buf.len.toNat :=
        contentsLength
      rw [List.drop_zero, List.take_zero, List.nil_append, List.take_append_of_le_length
        (Nat.le_of_eq correct.symm), List.take_of_length_le (Nat.le_of_eq correct)]
      rfl
    generalize buf.data.take 0 ++ (buf.data.drop buf.head).take buf.len.toNat ++
      buf.data.drop (0 + buf.len.toNat) = memory at moved movedLength movedContents
    have copyRoom : buf.len.toNat + len ≤ memory.length := by omega
    have result : sbPut buf data len = .ok ({ buf with
        data := memory.take buf.len.toNat ++ data.take len ++ memory.drop (buf.len.toNat + len)
        head := 0
        headOff := 0
        tailOff := buf.len + UInt32.ofNat len
        len := buf.len + UInt32.ofNat len
        cumLen := buf.cumLen + len }, len) := by
      simp only [sbPut, notZero, toPut, fits, if_false, moved]
      simp only [bind, Except.bind, memcpy_ok copyRoom supply]
      rfl
    refine ⟨_, result, ?_, rfl, rfl, lenEq, rfl, ?_⟩
    · exact {
        chunk := ((length_copied copyRoom supply).trans movedLength).trans chunk
        small
        head_eq := rfl
        tail_eq := by simp
        tail_le := by simp only [lenEq]; omega
        counted := by simp only [lenEq]; omega }
    · rw [← movedContents]
      simp only [contents, lenEq]
      have extended := @window_copied memory data 0 buf.len.toNat len (by omega) supply
      rwa [Nat.zero_add] at extended

theorem sbPut_room {after : TcpSendBuffer} {len : Nat} (valid : buf.Valid) (above : 0 < len)
    (done : sbPut buf data len = .ok (after, len)) : buf.len.toNat + len ≤ buf.size.toNat := by
  have lenLe := valid.len_le
  have space : (buf.size - buf.len).toNat = buf.size.toNat - buf.len.toNat :=
    UInt32.toNat_sub_of_le _ _ (UInt32.le_iff_toNat_le.mpr lenLe)
  have taken : min len (buf.size - buf.len).toNat = len := by
    simp only [sbPut, Nat.ne_of_gt above, if_false, bind, Except.bind, pure, Except.pure] at done
    repeat' split at done
    all_goals try cases done
    all_goals
      have returned := (Prod.mk.inj (Except.ok.inj done)).2
      omega
  omega

theorem sbRemove_spec {count : Nat} (valid : buf.Valid) (above : 0 < count)
    (held : count ≤ buf.len.toNat) :
    (sbRemove buf count).2 = count ∧ (sbRemove buf count).1.Valid ∧
      (sbRemove buf count).1.headSeq = plus buf.headSeq count ∧
      (sbRemove buf count).1.size = buf.size ∧
      (sbRemove buf count).1.len.toNat = buf.len.toNat - count ∧
      (sbRemove buf count).1.cumLen = buf.cumLen ∧
      (sbRemove buf count).1.contents = buf.contents.drop count := by
  have lenLe := valid.len_le
  obtain ⟨chunk, small, headEq, tailEq, tailLe, counted⟩ := valid
  have toRemove : min count buf.len.toNat = count := by omega
  have notZero : count ≠ 0 := by omega
  have headSum : (buf.headOff + UInt32.ofNat count).toNat = buf.headOff.toNat + count := by
    simp only [UInt32.toNat_add, UInt32.toNat_ofNat']
    omega
  have countEq : (UInt32.ofNat count).toNat = count := by
    rw [UInt32.toNat_ofNat']
    omega
  have lenSub : (buf.len - UInt32.ofNat count).toNat = buf.len.toNat - count := by
    rw [UInt32.toNat_sub_of_le _ _ (UInt32.le_iff_toNat_le.mpr (by omega)), countEq]
  have remaining : (buf.data.drop (buf.head + count)).take (buf.len.toNat - count) =
      buf.contents.drop count := by
    rw [contents, List.drop_take, List.drop_drop]
  simp only [sbRemove, notZero, toRemove, if_false]
  split
  · rename_i emptied
    have noneLeft : buf.len.toNat - count = 0 := by
      rw [← lenSub, emptied.1]
      rfl
    refine ⟨rfl, ?_, rfl, rfl, lenSub, rfl, ?_⟩
    · exact {
        chunk, small
        head_eq := rfl
        tail_eq := by simp only [lenSub, noneLeft]; rfl
        tail_le := by simp
        counted := by simp only [lenSub]; omega }
    · rw [← remaining]
      simp only [contents, lenSub, noneLeft, List.take_zero]
  · refine ⟨rfl, ?_, rfl, rfl, lenSub, rfl, ?_⟩
    · exact {
        chunk, small
        head_eq := rfl
        tail_eq := by simp only [lenSub, headSum]; omega
        tail_le := tailLe
        counted := by simp only [lenSub]; omega }
    · rw [← remaining]
      simp only [contents, lenSub, headSum, headEq]

end Mcc
