import Mcc.Machine

/-!
The retransmission timer wheel of `timer.c`: one list of streams for each of the next `RTO_HASH`
milliseconds and one more list for the deadlines beyond them.
-/

namespace Mcc.TimerWheel

open SerialNumber

def rtoHash : Nat := 3000

structure TimerStream where
  tsRto : UInt32
  onRtoIdx : Int
  onTimewaitList : Bool
  deriving Repr, DecidableEq

structure RtoHashstore where
  rtoNowIdx : UInt32
  rtoNowTs : UInt32
  rtoList : Nat → List Nat

structure Manager where
  rtoStore : RtoHashstore
  rtoListCnt : Int
  stream : Nat → TimerStream

def initRTOHashstore : RtoHashstore where
  rtoNowIdx := 0
  rtoNowTs := 0
  rtoList := fun _ => []

def setList (rtoList : Nat → List Nat) (index : Nat) (list : List Nat) : Nat → List Nat :=
  fun other => if other = index then list else rtoList other

def setStream (stream : Nat → TimerStream) (id : Nat) (value : TimerStream) : Nat → TimerStream :=
  fun other => if other = id then value else stream other

def setOnRtoIdx (stream : Nat → TimerStream) (id : Nat) (index : Int) : Nat → TimerStream :=
  setStream stream id { stream id with onRtoIdx := index }

/-- The list for a deadline `diff` milliseconds after `rto_now_ts`; `rto_now_idx` is unsigned, so
the sum and its remainder are. -/
def slotOffset (store : RtoHashstore) (diff : Int) : Nat :=
  (UInt32.ofInt diff + store.rtoNowIdx).toNat % rtoHash

def insertTail (mtcp : Manager) (id index : Nat) : Manager :=
  { mtcp with
    rtoStore := { mtcp.rtoStore with
      rtoList := setList mtcp.rtoStore.rtoList index (mtcp.rtoStore.rtoList index ++ [id]) }
    stream := setOnRtoIdx mtcp.stream id index }

def rebase (mtcp : Manager) (id : Nat) : Manager :=
  if mtcp.rtoListCnt = 0 then
    { mtcp with rtoStore := { mtcp.rtoStore with
        rtoNowIdx := 0
        rtoNowTs := (mtcp.stream id).tsRto } }
  else mtcp

def insertByDeadline (mtcp : Manager) (id : Nat) : Manager :=
  let diff := signed ((mtcp.stream id).tsRto - mtcp.rtoStore.rtoNowTs)
  let inserted :=
    if diff < rtoHash then insertTail mtcp id (slotOffset mtcp.rtoStore diff)
    else insertTail mtcp id rtoHash
  { inserted with rtoListCnt := inserted.rtoListCnt + 1 }

def addtoRTOList (mtcp : Manager) (id : Nat) : Manager :=
  let mtcp := rebase mtcp id
  if (mtcp.stream id).onRtoIdx < 0 then
    if (mtcp.stream id).onTimewaitList then mtcp else insertByDeadline mtcp id
  else mtcp

def takeOff (mtcp : Manager) (id index : Nat) : Manager :=
  { mtcp with
    rtoStore := { mtcp.rtoStore with
      rtoList := setList mtcp.rtoStore.rtoList index ((mtcp.rtoStore.rtoList index).erase id) }
    rtoListCnt := mtcp.rtoListCnt - 1
    stream := setOnRtoIdx mtcp.stream id (-1) }

def removeFromRTOList (mtcp : Manager) (id : Nat) : Manager :=
  if (mtcp.stream id).onRtoIdx < 0 then mtcp
  else takeOff mtcp id (mtcp.stream id).onRtoIdx.toNat

/-- One stream of the far list in `RearrangeRTOStore`; the difference is taken the other way round
than in `AddtoRTOList`. -/
def rearrangeOne (mtcp : Manager) (walk : Nat) : Manager :=
  let diff := signed (mtcp.rtoStore.rtoNowTs - (mtcp.stream walk).tsRto)
  if diff < rtoHash then
    let removed := { mtcp with rtoStore := { mtcp.rtoStore with
      rtoList := setList mtcp.rtoStore.rtoList rtoHash ((mtcp.rtoStore.rtoList rtoHash).erase walk) } }
    insertTail removed walk (slotOffset mtcp.rtoStore diff)
  else mtcp

def rearrangeRTOStore (mtcp : Manager) : Manager :=
  (mtcp.rtoStore.rtoList rtoHash).foldl rearrangeOne mtcp

structure Progress where
  mtcp : Manager
  cnt : Int
  handled : List Nat

def checkList (thresh : Int) (index : Nat) : List Nat → Progress → Progress
  | [], progress => progress
  | walk :: rest, progress =>
    let counted := { progress with cnt := progress.cnt + 1 }
    if thresh < counted.cnt then counted
    else if 0 ≤ (progress.mtcp.stream walk).onRtoIdx then
      checkList thresh index rest { counted with
        mtcp := takeOff progress.mtcp walk index
        handled := progress.handled ++ [walk] }
    else checkList thresh index rest counted

def tick (mtcp : Manager) : Manager :=
  let moved := { mtcp with rtoStore := { mtcp.rtoStore with
    rtoNowIdx := (mtcp.rtoStore.rtoNowIdx + 1) % UInt32.ofNat rtoHash
    rtoNowTs := mtcp.rtoStore.rtoNowTs + 1 } }
  if moved.rtoStore.rtoNowIdx % 1000 = 0 then rearrangeRTOStore moved else moved

def checkLoop (curTs : UInt32) (thresh : Int) : Nat → Progress → Progress
  | 0, progress => progress
  | fuel + 1, progress =>
    if signed (curTs - progress.mtcp.rtoStore.rtoNowTs) < 0 then progress
    else
      let index := progress.mtcp.rtoStore.rtoNowIdx.toNat
      let checked := checkList thresh index (progress.mtcp.rtoStore.rtoList index) progress
      if thresh < checked.cnt then checked
      else checkLoop curTs thresh fuel { checked with mtcp := tick checked.mtcp }

/-- The clock is at most `cur_ts - rto_now_ts` milliseconds past the wheel, so the loop ends
within this many rounds. -/
def checkRtmTimeout (mtcp : Manager) (curTs : UInt32) (thresh : Int) : Progress :=
  if mtcp.rtoListCnt = 0 then { mtcp, cnt := 0, handled := [] }
  else checkLoop curTs thresh ((curTs - mtcp.rtoStore.rtoNowTs).toNat + 1)
    { mtcp, cnt := 0, handled := [] }

end Mcc.TimerWheel
