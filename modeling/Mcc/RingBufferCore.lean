import Mcc.Machine

/-!
The receive ring buffer of `tcp_ring_buffer.c`: out-of-order segments are copied to their
place and a list of fragments records which parts of the buffer hold data.
-/

namespace Mcc.RingBuffer

open SerialNumber

def MAXSEQ : UInt32 := 0xFFFFFFFF

def getMinSeq (a b : UInt32) : UInt32 :=
  if a = b then a
  else if a < b then (if b - a ≤ MAXSEQ / 2 then a else b)
  else (if a - b ≤ MAXSEQ / 2 then b else a)

def getMaxSeq (a b : UInt32) : UInt32 :=
  if a = b then a
  else if a < b then (if b - a ≤ MAXSEQ / 2 then b else a)
  else (if a - b ≤ MAXSEQ / 2 then a else b)

/-- One node of the fragment list; `len` is a bit field of 31 bits. -/
structure FragmentCtx where
  seq : UInt32
  len : UInt32
  deriving Repr, DecidableEq

def field31 (word : UInt32) : UInt32 := word % 0x80000000

def canMerge (a b : FragmentCtx) : Bool :=
  let aEnd := a.seq + a.len + 1
  let bEnd := b.seq + b.len + 1
  !(getMinSeq aEnd b.seq == aEnd || getMinSeq bEnd a.seq == bEnd)

def mergeFragments (a b : FragmentCtx) : FragmentCtx :=
  let minSeq := getMinSeq a.seq b.seq
  let maxSeq := getMaxSeq (a.seq + a.len) (b.seq + b.len)
  { seq := minSeq, len := field31 (maxSeq - minSeq) }

structure TcpRingBuffer where
  data : List UInt8
  head : Nat
  headOffset : UInt32
  tailOffset : UInt32
  mergedLen : Nat
  cumLen : UInt64
  lastLen : Int
  size : Int
  headSeq : UInt32
  initSeq : UInt32
  fctx : List FragmentCtx
  deriving Repr, DecidableEq

/-- A memory pool exists only for a chunk size that stays an `int` after rounding up (to a cache
line), or that is a multiple of 4 below 2^31. -/
structure RBManager where
  chunkSize : Nat
  positive : 0 < chunkSize
  bounded : chunkSize ≤ 2 ^ 31 - 4

def rbInit (rbm : RBManager) (data : List UInt8) (initSeq : UInt32) : TcpRingBuffer where
  data := data
  head := 0
  headOffset := 0
  tailOffset := 0
  mergedLen := 0
  cumLen := 0
  lastLen := 0
  size := rbm.chunkSize
  headSeq := initSeq
  initSeq := initSeq
  fctx := []

/-- The loop that places a new fragment: `before` holds the nodes already passed, nearest first
(`prev`, `pprev`). Once `merged` is set, `newCtx` is the node at `prev`. -/
structure MergeState where
  before : List FragmentCtx
  newCtx : FragmentCtx
  merged : Bool
  deriving Repr, DecidableEq

def mergeLoop (curSeq len : UInt32) :
    List FragmentCtx → MergeState → MergeState × List FragmentCtx
  | [], state => (state, [])
  | iter :: rest, state =>
    if canMerge state.newCtx iter then
      let joined := mergeFragments state.newCtx iter
      -- `prev == new_ctx` holds exactly after an earlier merge: then `prev` is unlinked
      let before := if state.merged then state.before.tail else state.before
      mergeLoop curSeq len rest { before := joined :: before, newCtx := joined, merged := true }
    else if state.merged || getMaxSeq (curSeq + len) iter.seq == iter.seq then
      (state, iter :: rest)
    else mergeLoop curSeq len rest { state with before := iter :: state.before }

def insertFragment (curSeq : UInt32) (newCtx : FragmentCtx) (fctx before iter : List FragmentCtx) :
    Except Fault (List FragmentCtx) :=
  match fctx with
  | [] => .ok [newCtx]
  | first :: rest =>
    if getMinSeq curSeq first.seq == curSeq then .ok (newCtx :: first :: rest)
    else
      match before with
      | [] => .error .nullPointer
      | prev :: _ =>
        if getMinSeq curSeq (prev.seq + prev.len) == prev.seq + prev.len then
          .ok (before.reverse ++ newCtx :: iter)
        else .error .assertion

def placeFragment (fctx : List FragmentCtx) (curSeq len : UInt32) :
    Except Fault (List FragmentCtx) :=
  let newCtx : FragmentCtx := { seq := curSeq, len := field31 len }
  let (state, iter) := mergeLoop curSeq len fctx { before := [], newCtx, merged := false }
  if state.merged then .ok (state.before.reverse ++ iter)
  else insertFragment curSeq newCtx fctx state.before iter

def compact (buff : TcpRingBuffer) (endOff : UInt32) : Except Fault TcpRingBuffer :=
  if UInt32.ofInt buff.size ≤ buff.headOffset + endOff then do
    let data ← memmove buff.data 0 buff.head (sizeT buff.lastLen)
    return { buff with
      data
      tailOffset := buff.tailOffset - buff.headOffset
      headOffset := 0
      head := 0 }
  else .ok buff

def copyIn (buff : TcpRingBuffer) (data : List UInt8) (len : UInt32) (putx : Int)
    (endOff : UInt32) : Except Fault TcpRingBuffer := do
  let copied ← memcpy buff.data (buff.head + putx) data len.toNat
  let tailOffset :=
    if buff.tailOffset < buff.headOffset + endOff then buff.headOffset + endOff
    else buff.tailOffset
  return { buff with data := copied, tailOffset, lastLen := signed (tailOffset - buff.headOffset) }

def linkFragment (buff : TcpRingBuffer) (curSeq len : UInt32) : Except Fault TcpRingBuffer := do
  let fctx ← placeFragment buff.fctx curSeq len
  match fctx with
  | [] => throw .nullPointer
  | first :: _ =>
    if buff.headSeq = first.seq then
      return { buff with
        fctx
        cumLen := buff.cumLen + UInt64.ofInt ((first.len.toNat : Int) - buff.mergedLen)
        mergedLen := first.len.toNat }
    else return { buff with fctx }

def rbPut (buff : TcpRingBuffer) (data : List UInt8) (len curSeq : UInt32) :
    Except Fault (TcpRingBuffer × Int) := do
  if len = 0 then return (buff, 0)
  -- data that starts before the head is dropped whole
  if getMinSeq buff.headSeq curSeq ≠ buff.headSeq then return (buff, 0)
  let putx := signed (curSeq - buff.headSeq)
  let endOff := curSeq - buff.headSeq + len
  if buff.size < signed endOff then return (buff, -2)
  let moved ← compact buff endOff
  let copied ← copyIn moved data len putx endOff
  let linked ← linkFragment copied curSeq len
  return (linked, signed len)

def rbRemove (buff : TcpRingBuffer) (len : Nat) : Except Fault (TcpRingBuffer × Nat) :=
  let len := if buff.mergedLen < len then buff.mergedLen else len
  if len = 0 then .ok (buff, 0)
  else
    let headOffset := buff.headOffset + UInt32.ofNat len
    let advanced := { buff with
      headOffset
      head := headOffset.toNat
      headSeq := buff.headSeq + UInt32.ofNat len
      mergedLen := buff.mergedLen - len
      lastLen := buff.lastLen - len }
    match buff.fctx with
    | [] => .error .nullPointer
    | first :: rest =>
      if len = first.len.toNat then .ok ({ advanced with fctx := rest }, len)
      else if len < first.len.toNat then
        let shortened : FragmentCtx :=
          { seq := first.seq + UInt32.ofNat len, len := field31 (first.len - UInt32.ofNat len) }
        .ok ({ advanced with fctx := shortened :: rest }, len)
      else .error .assertion

end Mcc.RingBuffer
