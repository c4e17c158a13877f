import Mcc.Reassembly

/-!
The receive buffer of a peer that may send anything. Only the bytes in the buffer depend on the
bytes in the segments, so that its bookkeeping is the one of a buffer that is fed from a stream.
-/

namespace Mcc.RingBuffer

open SerialNumber IntervalList

def TcpRingBuffer.withData (buff : TcpRingBuffer) (data : List UInt8) : TcpRingBuffer :=
  { buff with data }

open TcpRingBuffer

section Bytes

variable {memory other source another copied : List UInt8} {target : Int} {count : Nat}

theorem memcpy_length (done : memcpy memory target source count = .ok copied) :
    copied.length = memory.length := by
  unfold memcpy at done
  split at done
  case isFalse => cases done
  case isTrue inside =>
    cases done
    exact length_copied (by omega) inside.2.2

theorem memcpy_bytes (same : other.length = memory.length) (supply : count ≤ another.length)
    (done : memcpy memory target source count = .ok copied) :
    ∃ mine, memcpy other target another count = .ok mine ∧ mine.length = copied.length := by
  have size := memcpy_length done
  unfold memcpy at done
  split at done
  case isFalse => cases done
  case isTrue inside =>
    have mine : memcpy other target another count = .ok (other.take target.toNat ++
        another.take count ++ other.drop (target.toNat + count)) := by
      rw [memcpy, if_pos ⟨inside.1, by omega, supply⟩]
    exact ⟨_, mine, by rw [memcpy_length mine, size, same]⟩

theorem memmove_bytes {origin : Int} (same : other.length = memory.length)
    (done : memmove memory target origin count = .ok copied) :
    ∃ mine, memmove other target origin count = .ok mine ∧ mine.length = copied.length := by
  unfold memmove at done ⊢
  split at done
  case isFalse => cases done
  case isTrue inside =>
    rw [if_pos ⟨inside.1, by omega⟩]
    refine memcpy_bytes same ?_ done
    rw [List.length_drop]
    omega

end Bytes

section Layout

variable {buff after : TcpRingBuffer} {data payload another : List UInt8} {len curSeq endOff : UInt32}
  {ret : Int}

theorem compact_withData (same : data.length = buff.data.length)
    (done : compact buff endOff = .ok after) :
    ∃ moved, moved.length = after.data.length ∧
      compact (buff.withData data) endOff = .ok (after.withData moved) := by
  unfold compact at done ⊢
  split at done
  case isTrue beyond =>
    obtain ⟨moved, move, finish⟩ := bind_ok done
    obtain ⟨mine, moveMine, size⟩ := memmove_bytes same move
    cases finish
    refine ⟨mine, size, (if_pos beyond).trans ?_⟩
    simp only [withData, moveMine, bind, Except.bind]
    rfl
  case isFalse inside =>
    cases done
    exact ⟨data, same, if_neg inside⟩

theorem copyIn_withData {putx : Int} (same : data.length = buff.data.length)
    (supply : len.toNat ≤ payload.length) (done : copyIn buff another len putx endOff = .ok after) :
    ∃ copied, copied.length = after.data.length ∧
      copyIn (buff.withData data) payload len putx endOff = .ok (after.withData copied) := by
  unfold copyIn at done ⊢
  obtain ⟨copied, copy, finish⟩ := bind_ok done
  obtain ⟨mine, copyMine, size⟩ := memcpy_bytes same supply copy
  cases finish
  refine ⟨mine, size, ?_⟩
  simp only [withData, copyMine, bind, Except.bind]
  rfl

theorem linkFragment_withData (done : linkFragment buff curSeq len = .ok after) :
    after.data = buff.data ∧
      linkFragment (buff.withData data) curSeq len = .ok (after.withData data) := by
  unfold linkFragment at done ⊢
  obtain ⟨fctx, place, finish⟩ := bind_ok done
  simp only [withData, place, bind, Except.bind]
  cases fctx with
  | nil => cases finish
  | cons first rest =>
    dsimp only at finish ⊢
    split at finish
    case isTrue starts =>
      cases finish
      exact ⟨rfl, if_pos starts⟩
    case isFalse apart =>
      cases finish
      exact ⟨rfl, if_neg apart⟩

theorem rbPut_withData (same : data.length = buff.data.length)
    (supply : len.toNat ≤ payload.length) (done : rbPut buff another len curSeq = .ok (after, ret)) :
    ∃ put, put.length = after.data.length ∧
      rbPut (buff.withData data) payload len curSeq = .ok (after.withData put, ret) := by
  have head : (buff.withData data).headSeq = buff.headSeq := rfl
  have size : (buff.withData data).size = buff.size := rfl
  unfold rbPut at done ⊢
  rw [head, size]
  split at done
  case isTrue empty =>
    cases done
    exact ⟨data, same, if_pos empty⟩
  case isFalse present =>
    rw [if_neg present]
    split at done
    case isTrue old =>
      cases done
      exact ⟨data, same, if_pos old⟩
    case isFalse fresh =>
      rw [if_neg fresh]
      dsimp only at done ⊢
      split at done
      case isTrue full =>
        cases done
        exact ⟨data, same, if_pos full⟩
      case isFalse room =>
        obtain ⟨moved, compacts, rest⟩ := bind_ok done
        obtain ⟨copied, copies, rest⟩ := bind_ok rest
        obtain ⟨linked, links, finish⟩ := bind_ok rest
        cases finish
        obtain ⟨mine, mineLength, compactsMine⟩ := compact_withData same compacts
        obtain ⟨put, putLength, copiesMine⟩ := copyIn_withData mineLength supply copies
        obtain ⟨kept, linksMine⟩ := linkFragment_withData links
        refine ⟨put, by rw [putLength, kept], ?_⟩
        rw [if_neg room, compactsMine]
        change (copyIn (moved.withData mine) payload len _ _ >>= _) = _
        rw [copiesMine]
        change (linkFragment (copied.withData put) curSeq len >>= _) = _
        rw [linksMine]
        rfl

theorem rbRemove_withData {count removed : Nat} (done : rbRemove buff count = .ok (after, removed)) :
    (removed = min buff.mergedLen count ∧ after.mergedLen = buff.mergedLen - removed) ∧
      after.data = buff.data ∧
      rbRemove (buff.withData data) count = .ok (after.withData data, removed) := by
  have merged : (buff.withData data).mergedLen = buff.mergedLen := rfl
  have taken : (if buff.mergedLen < count then buff.mergedLen else count) = min buff.mergedLen count := by
    split <;> omega
  unfold rbRemove at done ⊢
  rw [merged, taken]
  rw [taken] at done
  generalize min buff.mergedLen count = taken at done ⊢
  dsimp only at done ⊢
  split at done
  case isTrue zero =>
    cases done
    exact ⟨⟨zero.symm, rfl⟩, rfl, if_pos zero⟩
  case isFalse nonzero =>
    have same : (buff.withData data).fctx = buff.fctx := rfl
    rw [if_neg nonzero, same]
    cases fctx : buff.fctx with
    | nil =>
      rw [fctx] at done
      cases done
    | cons first rest =>
      rw [fctx] at done
      dsimp only at done ⊢
      split at done
      case isTrue whole =>
        cases done
        exact ⟨⟨rfl, rfl⟩, rfl, if_pos whole⟩
      case isFalse notWhole =>
        rw [if_neg notWhole]
        split at done
        case isTrue part =>
          cases done
          exact ⟨⟨rfl, rfl⟩, rfl, if_pos part⟩
        case isFalse => cases done

theorem compact_length (done : compact buff endOff = .ok after) :
    after.data.length = buff.data.length := by
  unfold compact at done
  split at done
  case isTrue =>
    obtain ⟨moved, move, finish⟩ := bind_ok done
    cases finish
    unfold memmove at move
    split at move
    case isTrue => exact memcpy_length move
    case isFalse => cases move
  case isFalse =>
    cases done
    rfl

theorem rbPut_cases (done : rbPut buff payload len curSeq = .ok (after, ret)) :
    after = buff ∧ ret ≤ 0 ∨ getMinSeq buff.headSeq curSeq = buff.headSeq ∧
      ¬buff.size < signed (curSeq - buff.headSeq + len) ∧ len.toNat ≤ buff.data.length := by
  unfold rbPut at done
  split at done
  case isTrue =>
    cases done
    exact .inl ⟨rfl, Int.le_refl _⟩
  case isFalse =>
    split at done
    case isTrue =>
      cases done
      exact .inl ⟨rfl, Int.le_refl _⟩
    case isFalse ahead =>
      dsimp only at done
      split at done
      case isTrue =>
        cases done
        exact .inl ⟨rfl, by decide⟩
      case isFalse room =>
        refine .inr ⟨not_not.mp ahead, room, ?_⟩
        obtain ⟨moved, compacts, rest⟩ := bind_ok done
        obtain ⟨copied, copies, -⟩ := bind_ok rest
        have length := compact_length compacts
        obtain ⟨copy, copyDone, -⟩ := bind_ok copies
        unfold memcpy at copyDone
        split at copyDone
        case isTrue inside => omega
        case isFalse => cases copyDone

theorem rbPut_old (old : 2 ^ 31 < (curSeq - buff.headSeq).toNat)
    (done : rbPut buff payload len curSeq = .ok (after, ret)) : after = buff := by
  have behind : getMinSeq buff.headSeq curSeq ≠ buff.headSeq := by
    have head := buff.headSeq.toNat_lt
    have word := curSeq.toNat_lt
    rw [UInt32.toNat_sub] at old
    simp only [getMinSeq, UInt32.lt_iff_toNat_lt, UInt32.le_iff_toNat_le, UInt32.toNat_sub, half_toNat,
      ← UInt32.toNat_inj]
    split_ifs <;> simp only [ne_eq, ← UInt32.toNat_inj] <;> omega
  rcases rbPut_cases done with ⟨same, -⟩ | ⟨ahead, -⟩
  · exact same
  · exact absurd ahead behind

theorem rbPut_full {capacity : Nat} (size : buff.size = capacity)
    (beyond : capacity < (curSeq - buff.headSeq + len).toNat)
    (ends : (curSeq - buff.headSeq + len).toNat < 2 ^ 31)
    (done : rbPut buff payload len curSeq = .ok (after, ret)) : after = buff ∧ ret ≤ 0 := by
  refine (rbPut_cases done).resolve_right fun ⟨_, room, _⟩ => room ?_
  rw [size, signed, if_pos ends]
  omega

end Layout

section Sound

def Sound (rbm : RBManager) (buff : TcpRingBuffer) : Prop :=
  ∃ stream initSeq session intervals data, Consistent rbm stream initSeq session intervals ∧
    data.length = session.buff.data.length ∧ buff = session.buff.withData data

variable {rbm : RBManager} {buff after : TcpRingBuffer} {payload : List UInt8} {len curSeq : UInt32}
  {ret : Int}

theorem sound_init {chunk : List UInt8} (fits : chunk.length = rbm.chunkSize) (initSeq : UInt32) :
    Sound rbm (rbInit rbm chunk initSeq) :=
  ⟨fun _ => 0, initSeq, _, [], chunk, initial_consistent rbm _ initSeq chunk fits, rfl, rfl⟩

theorem Sound.size (sound : Sound rbm buff) : buff.size = rbm.chunkSize := by
  obtain ⟨_, _, _, _, _, consistent, -, rfl⟩ := sound
  exact consistent.stored.size

theorem Sound.length (sound : Sound rbm buff) : buff.data.length = rbm.chunkSize := by
  obtain ⟨_, _, _, _, _, consistent, length, rfl⟩ := sound
  exact length.trans consistent.stored.length

theorem Sound.mergedLen_le (sound : Sound rbm buff) : buff.mergedLen ≤ rbm.chunkSize := by
  obtain ⟨_, _, session, intervals, _, consistent, -, rfl⟩ := sound
  change session.buff.mergedLen ≤ _
  rw [consistent.mergedLen]
  have inside := consistent.stored.inside
  rcases Nat.eq_zero_or_pos (leading session.removed intervals) with zero | positive
  · omega
  · have last := consistent.stored.bounds (leading_covered
      (leading session.removed intervals - 1) (Nat.sub_lt positive Nat.one_pos))
    omega

theorem leading_le_of_held {stream : Nat → UInt8} {initSeq : UInt32} {session next : Session}
    {intervals nextIntervals : List Interval}
    (consistent : Consistent rbm stream initSeq session intervals)
    (nextConsistent : Consistent rbm stream initSeq next nextIntervals)
    (removed : next.removed = session.removed)
    (held : ∀ position, session.Held position → next.Held position) :
    session.buff.mergedLen ≤ next.buff.mergedLen := by
  rw [consistent.mergedLen, nextConsistent.mergedLen, removed]
  by_contra less
  have covered := leading_covered (leading session.removed nextIntervals) (Nat.not_le.mp less)
  have later := (nextConsistent.held _).mp (held _ ((consistent.held _).mpr covered))
  refine leading_stops nextConsistent.separated nextConsistent.stored.lower ?_
  rw [removed]
  exact later

theorem Sound.put (sound : Sound rbm buff) (supply : len.toNat ≤ payload.length)
    (ends : (curSeq - buff.headSeq + len).toNat < 2 ^ 31)
    (done : rbPut buff payload len curSeq = .ok (after, ret)) :
    Sound rbm after ∧ after.headSeq = buff.headSeq ∧ buff.mergedLen ≤ after.mergedLen := by
  have bounded := rbm.bounded
  have unchanged : after = buff →
      Sound rbm after ∧ after.headSeq = buff.headSeq ∧ buff.mergedLen ≤ after.mergedLen := by
    rintro rfl
    exact ⟨sound, rfl, Nat.le_refl _⟩
  rcases Nat.lt_or_ge rbm.chunkSize (curSeq - buff.headSeq + len).toNat with beyond | inside
  · exact unchanged (rbPut_full sound.size beyond ends done).1
  rw [UInt32.toNat_add] at inside
  have word := len.toNat_lt
  rcases Nat.lt_or_ge (2 ^ 31) (curSeq - buff.headSeq).toNat with old | ahead
  · exact unchanged (rbPut_old old done)
  rcases Nat.lt_or_ge rbm.chunkSize len.toNat with long | short
  · refine unchanged ((rbPut_cases done).resolve_right fun ⟨_, _, short⟩ => ?_).1
    exact Nat.not_lt.mpr (sound.length ▸ short) long
  obtain ⟨stream, initSeq, session, intervals, data, consistent, length, rfl⟩ := sound
  change (curSeq - session.buff.headSeq).toNat ≤ _ at ahead
  change ((curSeq - session.buff.headSeq).toNat + len.toNat) % 2 ^ 32 ≤ _ at inside
  obtain ⟨offset, isOffset⟩ : ∃ offset, (curSeq - session.buff.headSeq).toNat = offset := ⟨_, rfl⟩
  have isSeq : plus initSeq (session.removed + offset) = curSeq := by
    rw [← plus_plus, ← consistent.headSeq, ← isOffset, plus_toNat_sub]
  have near : session.Near (.put (session.removed + offset) len.toNat) := by
    constructor <;> omega
  obtain ⟨next, nextIntervals, call, nextConsistent⟩ := put_consistent consistent near
  obtain ⟨⟨stored, returned⟩, put, finish⟩ := bind_ok call
  rw [UInt32.ofNat_toNat, isSeq] at put
  obtain ⟨bytes, bytesLength, putMine⟩ := rbPut_withData length supply put
  cases putMine.symm.trans done
  cases finish
  refine ⟨⟨stream, initSeq, _, nextIntervals, bytes, nextConsistent, bytesLength, rfl⟩, ?_, ?_⟩
  · exact nextConsistent.headSeq.trans consistent.headSeq.symm
  · refine leading_le_of_held consistent nextConsistent rfl fun position held => ?_
    refine ⟨held.1, ?_⟩
    obtain ⟨taken, member, inside⟩ := held.2
    refine ⟨taken, ?_, inside⟩
    dsimp only
    split
    · exact List.mem_cons_of_mem _ member
    · exact member

theorem Sound.accepts (sound : Sound rbm buff)
    (room : (curSeq - buff.headSeq).toNat + payload.length ≤ rbm.chunkSize) :
    ∃ after, rbPut buff payload (UInt32.ofNat payload.length) curSeq = .ok (after, payload.length) ∧
      ((curSeq - buff.headSeq).toNat ≤ buff.mergedLen →
        (curSeq - buff.headSeq).toNat + payload.length ≤ after.mergedLen) := by
  rcases Nat.eq_zero_or_pos payload.length with empty | positive
  · rw [empty]
    exact ⟨buff, rfl, id⟩
  obtain ⟨stream, initSeq, session, intervals, data, consistent, length, rfl⟩ := sound
  change (curSeq - session.buff.headSeq).toNat + _ ≤ _ at room
  generalize isOffset : (curSeq - (session.buff.withData data).headSeq).toNat = offset
  change (curSeq - session.buff.headSeq).toNat = offset at isOffset
  have isSeq : plus initSeq (session.removed + offset) = curSeq := by
    rw [← plus_plus, ← consistent.headSeq, ← isOffset, plus_toNat_sub]
  let added : Interval :=
    ⟨session.removed + offset, session.removed + offset + payload.length, by omega⟩
  have span : added.stop - added.start = payload.length := by simp [added]
  obtain ⟨stored, put, -, book⟩ := rbPut_accepted consistent
    (show session.removed ≤ added.start from Nat.le_add_right _ _)
    (show added.stop ≤ session.removed + rbm.chunkSize by dsimp only [added]; omega)
  rw [span] at put
  have fits : (UInt32.ofNat payload.length).toNat ≤ payload.length := by
    rw [UInt32.toNat_ofNat']
    exact Nat.mod_le _ _
  obtain ⟨bytes, -, putMine⟩ := rbPut_withData length fits put
  refine ⟨_, isSeq ▸ putMine, fun joins => ?_⟩
  change offset ≤ session.buff.mergedLen at joins
  change _ ≤ stored.mergedLen
  rw [(Prod.mk.inj (Prod.mk.inj (Prod.mk.inj book).2).2).1]
  by_contra short
  -- the first position after the merged part would be covered by what was there or by the new data
  refine leading_stops (separated_absorb added intervals consistent.separated)
    (lower_absorb session.removed added intervals (Nat.le_add_right _ _) consistent.stored.lower) ?_
  rw [covered_absorb]
  generalize leading session.removed (absorb added intervals) = reached at *
  by_cases before : reached < offset
  · exact .inr (leading_covered reached (by rw [← consistent.mergedLen]; omega))
  · exact .inl ⟨by dsimp only [added]; omega, by dsimp only [added]; omega⟩

theorem Sound.remove {count removed : Nat} (sound : Sound rbm buff)
    (done : rbRemove buff count = .ok (after, removed)) :
    Sound rbm after ∧ after.headSeq = plus buff.headSeq removed ∧
      removed = min buff.mergedLen count ∧ after.mergedLen = buff.mergedLen - removed := by
  obtain ⟨stream, initSeq, session, intervals, data, consistent, length, rfl⟩ := sound
  obtain ⟨next, nextIntervals, call, nextConsistent⟩ := remove_consistent consistent count
  obtain ⟨⟨stored, returned⟩, remove, finish⟩ := bind_ok call
  obtain ⟨counts, kept, removeMine⟩ := @rbRemove_withData _ _ data _ _ remove
  cases removeMine.symm.trans done
  cases finish
  refine ⟨⟨stream, initSeq, _, nextIntervals, data, nextConsistent, by rw [length, kept], rfl⟩, ?_,
    counts⟩
  change stored.headSeq = plus session.buff.headSeq removed
  rw [consistent.headSeq, plus_plus]
  exact nextConsistent.headSeq

end Sound

end Mcc.RingBuffer
