import Mcc.RssAgreement
import Mcc.EventPoll
import Mcc.ConnectionState
import Mcc.HashTable

/-!
A core of the stack as its socket calls see it (`api.c`, `socket.c`, `tcp_stream.c`, `fhash.c`,
`ip_out.c`): the sockets, the streams of the flow table, the listeners of the listener table, and the
address pools that the cores of the machine share.
-/

namespace Mcc.Core

open Function (update)

inductive Stop where
  | fault (reason : Fault)
  /-- A pointer is followed to memory that was freed, or that holds an object of another type. -/
  | dangling
  | endless
  deriving Repr, DecidableEq

section Network

def maxDevices : Nat := 128

structure Route where
  mask : UInt32
  masked : UInt32
  prefixLen : Int
  nif : Int

structure Network where
  rtable : List Route
  gateway : Option Route
  nifToEidx : List Int
  eths : List UInt32
  numCpus : Int32
  numQueues : Int32
  endianCheck : Bool
  maxConcurrency : Nat
  hasQueues : numQueues ≠ 0
  hasSockets : 0 < maxConcurrency
  ethsFit : eths.length ≤ maxDevices

def arrayAt {α : Type} (entries : List α) (index : Int) : Except Fault α :=
  if index < 0 then .error .outOfBounds
  else
    match entries[index.toNat]? with
    | some entry => .ok entry
    | none => .error .outOfBounds

variable (network : Network)

/-- The first route that fits decides, whether or not it leads anywhere; the assertion behind the loop
is compiled out. -/
def getOutputInterface (daddr : UInt32) : Int :=
  match network.rtable.find? fun route => daddr &&& route.mask = route.masked with
  | some route =>
    if 0 < route.prefixLen then route.nif
    else
      match network.gateway with
      | some gateway => gateway.nif
      | none => -1
  | none => -1

def ap : List (Option Nat) :=
  (List.range maxDevices).map fun index => if index < network.eths.length then some index else none

end Network

section Objects

structure Flow where
  saddr : UInt32
  daddr : UInt32
  sport : UInt16
  dport : UInt16
  deriving Repr, DecidableEq

def Flow.source (flow : Flow) : SockAddr := ⟨flow.saddr, flow.sport⟩

structure Stream where
  flow : Flow
  state : TcpState
  iss : UInt32
  irs : UInt32
  socket : Option Nat
  isBoundAddr : Bool
  closed : Bool

structure Listener where
  socket : Nat
  backlog : Nat
  acceptq : List Nat

inductive Object where
  | stream (pointer : Nat)
  | listener (pointer : Nat)
  deriving Repr, DecidableEq

structure Socket where
  socktype : EventPoll.SocketType
  addrBind : Bool
  nonblock : Bool
  saddr : SockAddr
  held : Option Object
  deriving DecidableEq

def Socket.empty : Socket := ⟨.unused, false, false, ⟨inaddrAny, inportAny⟩, none⟩

structure Manager where
  smap : Nat → Socket
  freeSmap : List Nat
  streams : Nat → Option Stream
  nextStream : Nat
  tcpFlowTable : Nat → List Nat
  flowCnt : UInt32
  flowPool : Nat
  rvPool : Nat
  svPool : Nat
  connectq : List Nat
  destroyq : List Nat
  listenerAt : Nat → Option Listener
  nextListener : Nat
  listeners : Nat → List Nat
  ap : Option Nat

def Manager.start (network : Network) : Manager where
  smap _ := .empty
  freeSmap := List.range network.maxConcurrency
  streams _ := none
  nextStream := 0
  tcpFlowTable _ := []
  flowCnt := 0
  flowPool := network.maxConcurrency
  rvPool := network.maxConcurrency
  svPool := network.maxConcurrency
  connectq := []
  destroyq := []
  listenerAt _ := none
  nextListener := 0
  listeners _ := []
  ap := none

namespace Manager

variable (m : Manager)

def setSocket (sockid : Nat) (socket : Socket) : Manager :=
  { m with smap := update m.smap sockid socket }

def setStream (pointer : Nat) (stream : Stream) : Manager :=
  { m with streams := update m.streams pointer (some stream) }

def setListener (pointer : Nat) (listener : Listener) : Manager :=
  { m with listenerAt := update m.listenerAt pointer (some listener) }

def stream (pointer : Nat) : Except Stop Stream :=
  match m.streams pointer with
  | some stream => .ok stream
  | none => .error .dangling

def listener (pointer : Nat) : Except Stop Listener :=
  match m.listenerAt pointer with
  | some listener => .ok listener
  | none => .error .dangling

end Manager

inductive Errno where
  | ebadf
  | enotsock
  | einval
  | efault
  | eafnosupport
  | eisconn
  | ealready
  | eagain
  | enomem
  | einprogress
  | enosys
  | eaddrinuse
  | enfile
  | enotconn
  deriving Repr, DecidableEq

inductive Reply where
  | done (value : Int)
  | failed (errno : Option Errno)
  | waits
  deriving Repr, DecidableEq

structure Address where
  inet : Bool
  long : Bool
  addr : SockAddr

end Objects

section Tables

def numBinsFlows : Nat := 131072

def numBinsListeners : Nat := 1024

def Flow.bytes (flow : Flow) : List UInt8 :=
  [flow.saddr.toUInt8, (flow.saddr >>> 8).toUInt8, (flow.saddr >>> 16).toUInt8,
    (flow.saddr >>> 24).toUInt8, flow.daddr.toUInt8, (flow.daddr >>> 8).toUInt8,
    (flow.daddr >>> 16).toUInt8, (flow.daddr >>> 24).toUInt8, flow.sport.toUInt8,
    (flow.sport >>> 8).toUInt8, flow.dport.toUInt8, (flow.dport >>> 8).toUInt8]

/-- `HashFlow`, which adds the bytes as values of type `char`. -/
def hashFlow (flow : Flow) : Nat :=
  let hash := flow.bytes.foldl (fun (hash : UInt32) byte =>
    let hash := hash + byte.toInt8.toInt32.toUInt32
    let hash := hash + (hash <<< 10)
    hash ^^^ (hash >>> 6)) 0
  let hash := hash + (hash <<< 3)
  let hash := hash ^^^ (hash >>> 11)
  let hash := hash + (hash <<< 15)
  (hash &&& UInt32.ofNat (numBinsFlows - 1)).toNat

def hashListener (port : UInt16) : Nat := (port &&& UInt16.ofNat (numBinsListeners - 1)).toNat

namespace Manager

variable (m : Manager)

def flowOf (pointer : Nat) : Except Stop Flow := (m.stream pointer).map Stream.flow

def streamHTSearch (flow : Flow) : Except Stop (Option Nat) :=
  HashTable.search hashFlow m.flowOf m.tcpFlowTable flow

def portOf (pointer : Nat) : Except Stop UInt16 :=
  (m.listener pointer).map fun listener => (m.smap listener.socket).saddr.sinPort

def listenerHTSearch (port : UInt16) : Except Stop (Option Nat) :=
  HashTable.search hashListener m.portOf m.listeners port

end Manager

end Tables

section Streams

def mpAllocateChunk : Nat → Option Nat
  | 0 => none
  | free + 1 => some free

def streamEnqueue (capacity : Nat) (queue : List Nat) (pointer : Nat) : Option (List Nat) :=
  if queue.length < capacity then some (queue ++ [pointer]) else none

def Manager.addStream (m : Manager) (stream : Stream) : Manager :=
  let pointer := m.nextStream
  let m := { m with
    nextStream := pointer + 1
    streams := update m.streams pointer (some stream)
    tcpFlowTable := HashTable.insert hashFlow m.tcpFlowTable pointer stream.flow
    flowCnt := m.flowCnt + 1 }
  match stream.socket with
  | some sockid => m.setSocket sockid { m.smap sockid with held := some (.stream pointer) }
  | none => m

/-- `locks` says whether the locks of the stream can be made; without them it stays where it has been
entered. -/
def createTCPStream (m : Manager) (socket : Option Nat) (flow : Flow) (iss irs : UInt32)
    (locks : Bool) : Option Nat × Manager :=
  match mpAllocateChunk m.flowPool with
  | none => (none, m)
  | some flowPool =>
    match mpAllocateChunk m.rvPool with
    | none => (none, { m with flowPool := flowPool + 1 })
    | some rvPool =>
      match mpAllocateChunk m.svPool with
      | none => (none, { m with rvPool := rvPool + 1, flowPool := flowPool + 1 })
      | some svPool =>
        let pointer := m.nextStream
        let m := { m with flowPool, rvPool, svPool }
        (if locks then some pointer else none,
          m.addStream ⟨flow, .listen, iss, irs, socket, false, false⟩)

end Streams

section Pools

abbrev Pools := Nat → Option AddrPool

def callPool (pools : Pools) (pool : Option Nat) (call : PoolCall) :
    Except Stop (Int × Option SockAddr × Pools) :=
  match pool with
  | none => .ok (-1, none, pools)
  | some pointer =>
    match pools pointer with
    | none => .error .dangling
    | some ap =>
      match call.run ap with
      | none => .error .endless
      | some (.error fault) => .error (.fault fault)
      | some (.ok result) =>
        .ok (result.ret, result.saddr, update pools pointer (some result.ap))

section Choice

variable (network : Network) (own : Option Nat)

def sourcePool (daddr : UInt32) : Except Stop (Option Nat) :=
  match own with
  | some pool => .ok (some pool)
  | none =>
    match arrayAt (ap network) (getOutputInterface network daddr) with
    | .error fault => .error (.fault fault)
    | .ok pool => .ok pool

def returnPool (saddr : UInt32) : Except Stop (Option Nat) :=
  match own with
  | some pool => .ok (some pool)
  | none =>
    let nif := getOutputInterface network saddr
    if nif < 0 then .ok none
    else
      match arrayAt network.nifToEidx nif >>= arrayAt (ap network) with
      | .error fault => .error (.fault fault)
      | .ok pool => .ok pool

def sourceCall (cpu : Nat) (daddr saddr : SockAddr) : PoolCall :=
  match own with
  | some _ => .fetchAddressPerCore (some daddr) (some saddr)
  | none => .fetchAddress (Int32.ofNat cpu) network.numQueues network.endianCheck (some daddr)
      (some saddr)

end Choice

variable (network : Network) (m : Manager)

def Manager.drop (pointer : Nat) (stream : Stream) : Manager :=
  { m with
    streams := update m.streams pointer none
    tcpFlowTable := HashTable.remove hashFlow m.tcpFlowTable pointer stream.flow
    flowCnt := m.flowCnt - 1
    rvPool := m.rvPool + 1
    svPool := m.svPool + 1
    flowPool := m.flowPool + 1 }

def destroyTCPStream (pools : Pools) (pointer : Nat) : Except Stop (Pools × Manager) := do
  let stream ← m.stream pointer
  let m := m.drop pointer stream
  if stream.isBoundAddr then
    let pool ← returnPool network m.ap stream.flow.saddr
    let (_, _, pools) ← callPool pools pool (.freeAddress (some stream.flow.source))
    .ok (pools, m)
  else .ok (pools, m)

end Pools

section Sockets

namespace Manager

variable (network : Network) (m : Manager)

def allocateSocket (socktype : EventPoll.SocketType) (skips : Nat) : Except Stop (Option (Nat × Manager)) :=
  if m.freeSmap = [] then .ok none
  else
    match m.freeSmap.drop skips with
    | [] => .error .endless
    | sockid :: rest => .ok (some (sockid,
        { m.setSocket sockid { Socket.empty with socktype } with
          freeSmap := rest ++ m.freeSmap.take skips }))

def freeSocket (sockid : Nat) : Manager :=
  let socket := m.smap sockid
  if socket.socktype = .unused then m
  else
    { m.setSocket sockid { socket with socktype := .unused, held := none } with
      freeSmap := m.freeSmap ++ [sockid] }

def inUse (sockid : Int) : Option Nat :=
  if sockid < 0 ∨ (network.maxConcurrency : Int) ≤ sockid then none
  else if (m.smap sockid.toNat).socktype = .unused then none
  else some sockid.toNat

def mtcpSocket (inet isStream : Bool) (skips : Nat) : Except Stop (Reply × Manager) :=
  if !inet then .ok (.failed (some .eafnosupport), m)
  else if !isStream then .ok (.failed (some .einval), m)
  else do
    match ← m.allocateSocket .stream skips with
    | none => .ok (.failed (some .enfile), m)
    | some (sockid, m) => .ok (.done sockid, m)

def mtcpSetsockNonblock (sockid : Int) : Reply × Manager :=
  match m.inUse network sockid with
  | none => (.failed (some .ebadf), m)
  | some sockid => (.done 0, m.setSocket sockid { m.smap sockid with nonblock := true })

/-- `mtcp_bind` does not look whether the address is in use. -/
def mtcpBind (sockid : Int) (addr : Option Address) : Reply × Manager :=
  match m.inUse network sockid with
  | none => (.failed (some .ebadf), m)
  | some sockid =>
    let socket := m.smap sockid
    if socket.socktype ≠ .stream ∧ socket.socktype ≠ .listener then
      (.failed (some .enotsock), m)
    else
      match addr with
      | none => (.failed (some .einval), m)
      | some addr =>
        if socket.addrBind then (.failed (some .einval), m)
        else if !addr.inet || !addr.long then (.failed (some .einval), m)
        else (.done 0, m.setSocket sockid { socket with saddr := addr.addr, addrBind := true })

def mtcpListen (sockid backlog : Int) (granted queueGranted : Bool) :
    Except Stop (Reply × Manager) :=
  match m.inUse network sockid with
  | none => .ok (.failed (some .ebadf), m)
  | some sockid =>
    -- the socket stays a listening one when the call fails
    let m := if (m.smap sockid).socktype = .stream then
        m.setSocket sockid { m.smap sockid with socktype := .listener }
      else m
    let socket := m.smap sockid
    if socket.socktype ≠ .listener then .ok (.failed (some .enotsock), m)
    else if backlog ≤ 0 ∨ (network.maxConcurrency : Int) < backlog then
      .ok (.failed (some .einval), m)
    else do
      match ← m.listenerHTSearch socket.saddr.sinPort with
      | some _ => .ok (.failed (some .eaddrinuse), m)
      | none =>
        if !granted || !queueGranted then .ok (.failed (some .enomem), m)
        else
          let pointer := m.nextListener
          let m := { m.setListener pointer ⟨sockid, backlog.toNat, []⟩ with
            nextListener := pointer + 1 }
          let m := m.setSocket sockid { socket with held := some (.listener pointer) }
          .ok (.done 0, { m with
            listeners := HashTable.insert hashListener m.listeners pointer socket.saddr.sinPort })

def mtcpAccept (sockid : Int) (skips : Nat) : Except Stop (Reply × Manager) :=
  if sockid < 0 ∨ (network.maxConcurrency : Int) ≤ sockid then .ok (.failed (some .ebadf), m)
  else
    let socket := m.smap sockid.toNat
    if socket.socktype ≠ .listener then .ok (.failed (some .einval), m)
    else
      match socket.held with
      | none => .error (.fault .nullPointer)
      | some (.stream _) => .error .dangling
      | some (.listener pointer) => do
          let listener ← m.listener pointer
          match listener.acceptq with
          | [] =>
            if (m.smap listener.socket).nonblock then .ok (.failed (some .eagain), m)
            else .ok (.waits, m)
          | accepted :: rest =>
            let m := m.setListener pointer { listener with acceptq := rest }
            let stream ← m.stream accepted
            match stream.socket with
            | some sockid => .ok (.done sockid, m)
            | none =>
              match ← m.allocateSocket .stream skips with
              -- the accepted stream is lost
              | none => .ok (.failed (some .enfile), m)
              | some (sockid, m) =>
                let socket := { m.smap sockid with
                  held := some (.stream accepted)
                  saddr := ⟨stream.flow.daddr, stream.flow.dport⟩ }
                .ok (.done sockid, (m.setSocket sockid socket).setStream accepted
                  { stream with socket := some sockid })

end Manager

end Sockets

section Close

namespace Manager

variable (network : Network) (m : Manager)

def enqueueDestroy (pointer : Nat) : Manager :=
  { m with
    destroyq := (streamEnqueue network.maxConcurrency m.destroyq pointer).getD m.destroyq }

def closeStreamSocket (sockid : Nat) : Except Stop (Reply × Manager) :=
  match (m.smap sockid).held with
  | none => .ok (.failed (some .enotconn), m)
  | some (.listener _) => .error .dangling
  | some (.stream pointer) => do
      let stream ← m.stream pointer
      if stream.closed then .ok (.done 0, m)
      else
        let m := m.setStream pointer { stream with closed := true, socket := none }
        if stream.state = .closed then .ok (.done 0, m.enqueueDestroy network pointer)
        else if stream.state = .synSent then .ok (.failed none, m.enqueueDestroy network pointer)
        else if stream.state ≠ .established ∧ stream.state ≠ .closeWait then
          .ok (.failed (some .ebadf), m)
        else .ok (.done 0, m)

def closeListeningSocket (sockid : Nat) : Except Stop (Reply × Manager) :=
  match (m.smap sockid).held with
  | none => .ok (.failed (some .einval), m)
  | some (.stream _) => .error .dangling
  | some (.listener pointer) => do
      let _ ← m.listener pointer
      .ok (.done 0, { m.setSocket sockid { m.smap sockid with held := none } with
        listenerAt := update m.listenerAt pointer none })

/-- The switch of `mtcp_close`; what is specific to the other types of sockets is left out. -/
def closeSocket (sockid : Nat) : Except Stop (Reply × Manager) :=
  match (m.smap sockid).socktype with
  | .stream => m.closeStreamSocket network sockid
  | .listener => m.closeListeningSocket sockid
  | .epoll | .pipe => .ok (.done 0, m)
  | _ => .ok (.failed (some .einval), m)

def mtcpClose (sockid : Int) : Except Stop (Reply × Manager) :=
  match m.inUse network sockid with
  | none => .ok (.failed (some .ebadf), m)
  | some sockid => do
      let (reply, m) ← m.closeSocket network sockid
      .ok (reply, m.freeSocket sockid)

end Manager

end Close

section Packets

structure Segment where
  syn : Bool
  ack : Bool
  rst : Bool
  seq : UInt32
  ackSeq : UInt32

namespace Manager

variable (network : Network) (m : Manager)

def filterSYNPacket (ip : UInt32) (port : UInt16) : Except Stop Bool := do
  match ← m.listenerHTSearch port with
  | none => .ok false
  | some pointer =>
    let listener ← m.listener pointer
    let addr := (m.smap listener.socket).saddr
    if addr.sinPort ≠ port then .ok false
    else if addr.sAddr ≠ inaddrAny then .ok (ip = addr.sAddr)
    else .ok (network.eths.contains ip)

def createNewFlowHTEntry (flow : Flow) (segment : Segment) (iss : UInt32) :
    Except Stop (Option Nat × Manager) :=
  if segment.syn && !segment.ack then do
    if ← m.filterSYNPacket network flow.saddr flow.sport then
      .ok (createTCPStream m none flow iss segment.seq true)
    else .ok (none, m)
  else .ok (none, m)

def handleListen (pointer : Nat) (stream : Stream) (segment : Segment) : Manager :=
  if segment.syn then m.setStream pointer { stream with state := .synRcvd } else m

/-- `Handle_TCP_ST_SYN_RCVD`, which does not look whether there is a listener. -/
def handleSynRcvd (pointer : Nat) (stream : Stream) (segment : Segment) : Except Stop Manager :=
  if !segment.ack then .ok m
  else if segment.ackSeq ≠ stream.iss + 1 then .ok m
  else do
    let established := { stream with state := .established }
    match ← m.listenerHTSearch stream.flow.sport with
    | none => .error (.fault .nullPointer)
    | some found =>
      let listener ← m.listener found
      match streamEnqueue listener.backlog listener.acceptq pointer with
      | some acceptq => .ok ((m.setStream pointer established).setListener found
          { listener with acceptq })
      | none => .ok (m.setStream pointer { stream with state := .closed })

def handleOpening (pointer : Nat) (segment : Segment) : Except Stop Manager := do
  let stream ← m.stream pointer
  match stream.state with
  | .listen => .ok (m.handleListen pointer stream segment)
  | .synSent =>
    if segment.syn && !segment.ack && !segment.rst then
      .ok (m.setStream pointer { stream with state := .synRcvd })
    else .ok m
  | .synRcvd =>
    if segment.rst then .ok m
    else if segment.syn && segment.seq = stream.irs then
      .ok (m.handleListen pointer stream segment)
    else m.handleSynRcvd pointer stream segment
  | _ => .ok m

def processTCPPacket (flow : Flow) (segment : Segment) (iss : UInt32) : Except Stop Manager := do
  match ← m.streamHTSearch flow with
  | some pointer => m.handleOpening pointer segment
  | none =>
    match ← m.createNewFlowHTEntry network flow segment iss with
    | (some pointer, m) => m.handleOpening pointer segment
    | (none, m) => .ok m

end Manager

end Packets

section Connect

def backlogSize : Nat := 10 * 1024

def Socket.bound (socket : Socket) : Bool :=
  socket.addrBind && socket.saddr.sinPort ≠ inportAny && socket.saddr.sAddr ≠ inaddrAny

variable (network : Network) (m : Manager)

def checkConnect (sockid : Int) (addr : Option Address) :
    Except Stop (Except Errno (Nat × SockAddr)) :=
  match m.inUse network sockid with
  | none => .ok (.error .ebadf)
  | some sockid =>
    if (m.smap sockid).socktype ≠ .stream then .ok (.error .enotsock)
    else
      match addr with
      | none => .ok (.error .efault)
      | some addr =>
        if !addr.inet || !addr.long then .ok (.error .eafnosupport)
        else
          match (m.smap sockid).held with
          | none => .ok (.ok (sockid, addr.addr))
          | some (.listener _) => .error .dangling
          | some (.stream pointer) => do
              let stream ← m.stream pointer
              if TcpState.established.number ≤ stream.state.number then .ok (.error .eisconn)
              else .ok (.error .ealready)

def bindAddress (cpu : Nat) (pools : Pools) (socket : Socket) (daddr : SockAddr) :
    Except Stop (Except Errno (Socket × Bool × Pools)) :=
  if socket.bound then
    match boundRSSCore socket.saddr daddr network.numQueues network.endianCheck with
    | .error fault => .error (.fault fault)
    | .ok rssCore =>
      if rssCore ≠ Int32.ofNat cpu then .ok (.error .einval)
      else .ok (.ok (socket, false, pools))
  else if m.ap = none ∧ getOutputInterface network daddr.sAddr < 0 then .ok (.error .einval)
  else do
    let pool ← sourcePool network m.ap daddr.sAddr
    let (ret, saddr, pools) ← callPool pools pool (sourceCall network m.ap cpu daddr socket.saddr)
    if ret < 0 then .ok (.error .eagain)
    else
      .ok (.ok ({ socket with saddr := saddr.getD socket.saddr, addrBind := true }, true, pools))

def awaitEstablished : List TcpState → Option (TcpState × Reply)
  | [] => none
  | state :: later =>
    if TcpState.established.number < state.number then some (state, .failed (some .enosys))
    else if state = .established then some (state, .done 0)
    else awaitEstablished later

def enterConnectq (pointer : Nat) (nonblock : Bool) (seen : List TcpState) :
    Except Stop (Reply × Manager) :=
  match streamEnqueue backlogSize m.connectq pointer with
  -- the socket keeps its pointer to the stream
  | none => .ok (.failed (some .eagain), m.enqueueDestroy network pointer)
  | some connectq =>
    let m := { m with connectq }
    if nonblock then .ok (.failed (some .einprogress), m)
    else
      match awaitEstablished seen with
      | none => .error .endless
      | some (state, reply) => do
          let stream ← m.stream pointer
          .ok (reply, m.setStream pointer { stream with state })

structure Machine where
  pools : Pools
  nextPool : Nat
  cores : Nat → Manager

def interfacePool (address : UInt32) : Option AddrPool :=
  (createAddressPool true address 1).toOption.join

def Machine.start : Machine where
  pools index := network.eths[index]?.bind interfacePool
  nextPool := network.eths.length
  cores _ := .start network

def Machine.put (machine : Machine) (cpu : Nat) (pools : Pools) (m : Manager) : Machine :=
  { machine with pools := pools, cores := update machine.cores cpu m }

variable (machine : Machine) (cpu : Nat)

def mtcpConnect (sockid : Int) (addr : Option Address) (iss : UInt32) (seen : List TcpState)
    (locks : Bool) : Except Stop (Reply × Machine) := do
  let m := machine.cores cpu
  match ← checkConnect network m sockid addr with
  | .error errno => .ok (.failed (some errno), machine)
  | .ok (sockid, daddr) =>
    match ← bindAddress network m cpu machine.pools (m.smap sockid) daddr with
    | .error errno => .ok (.failed (some errno), machine)
    | .ok (socket, isDynBound, pools) =>
      let m := m.setSocket sockid socket
      let flow : Flow :=
        ⟨socket.saddr.sAddr, daddr.sAddr, socket.saddr.sinPort, daddr.sinPort⟩
      match createTCPStream m (some sockid) flow iss 0 locks with
      -- an address from a pool is not given back
      | (none, m) => .ok (.failed (some .enomem), machine.put cpu pools m)
      | (some pointer, m) =>
        let stream ← m.stream pointer
        let m := m.setStream pointer
          { stream with isBoundAddr := isDynBound, state := .synSent }
        let (reply, m) ← enterConnectq network m pointer socket.nonblock seen
        .ok (reply, machine.put cpu pools m)

/-- `mtcp_init_rss`; `granted` says whether the allocation of the pool succeeds. -/
def mtcpInitRss (saddrBase : UInt32) (numAddr : Int32) (daddr : UInt32) (dport : UInt16)
    (granted : Bool) : Except Stop (Reply × Machine) :=
  let m := machine.cores cpu
  let pools : Pools := match m.ap with
    | some pool => update machine.pools pool none
    | none => machine.pools
  let base : Except Fault UInt32 :=
    if saddrBase = inaddrAny then
      arrayAt network.nifToEidx (getOutputInterface network daddr) >>= arrayAt network.eths
    else .ok saddrBase
  let made : Except Fault (Option AddrPool) := do
    createAddressPoolPerCore granted ⟨Int32.ofNat cpu, network.numCpus, ← base, numAddr, daddr, dport,
      network.endianCheck, Int32.ofNat network.maxConcurrency⟩
  if saddrBase = inaddrAny ∧ getOutputInterface network daddr < 0 then
    .ok (.failed (some .einval), machine.put cpu pools { m with ap := none })
  else
    match made with
    | .error fault => .error (.fault fault)
    | .ok none => .ok (.failed (some .enomem), machine.put cpu pools { m with ap := none })
    | .ok (some ap) =>
      let pool := machine.nextPool
      .ok (.done 0, { machine.put cpu (update pools pool (some ap))
        { m with ap := some pool } with nextPool := pool + 1 })

def destroyAll : List Nat → Pools × Manager → Except Stop (Pools × Manager)
  | [], result => .ok result
  | pointer :: later, (pools, m) => do
      destroyAll later (← destroyTCPStream network m pools pointer)

def handleApplicationCalls : Except Stop Machine := do
  let m := machine.cores cpu
  m.connectq.forM fun pointer => (m.stream pointer).map fun _ => ()
  let (pools, m) ← destroyAll network m.destroyq
    (machine.pools, { m with connectq := [], destroyq := [] })
  .ok (machine.put cpu pools m)

end Connect

section Runs

inductive Call where
  | socket (inet isStream : Bool) (skips : Nat)
  | setsockNonblock (sockid : Int)
  | bind (sockid : Int) (addr : Option Address)
  | listen (sockid backlog : Int) (granted queueGranted : Bool)
  | accept (sockid : Int) (skips : Nat)
  | connect (sockid : Int) (addr : Option Address) (iss : UInt32) (seen : List TcpState)
  | close (sockid : Int)
  | initRss (saddrBase : UInt32) (numAddr : Int32) (daddr : UInt32) (dport : UInt16) (granted : Bool)
  | applicationCalls
  | packet (flow : Flow) (segment : Segment) (iss : UInt32)
  /-- The stack moves an open stream on, by a segment or by a timer. -/
  | advance (pointer : Nat) (state : { state : TcpState // state.opening = false })
  | destroy (pointer : Nat)

variable (network : Network)

def Machine.onCore (machine : Machine) (cpu : Nat) (result : Except Stop (Reply × Manager)) :
    Except Stop (Reply × Machine) :=
  result.map fun (reply, m) => (reply, machine.put cpu machine.pools m)

def Machine.step (machine : Machine) (cpu : Nat) (call : Call) : Except Stop (Reply × Machine) :=
  let m := machine.cores cpu
  match call with
  | .socket inet isStream skips => machine.onCore cpu (m.mtcpSocket inet isStream skips)
  | .setsockNonblock sockid => machine.onCore cpu (.ok (m.mtcpSetsockNonblock network sockid))
  | .bind sockid addr => machine.onCore cpu (.ok (m.mtcpBind network sockid addr))
  | .listen sockid backlog granted queueGranted =>
    machine.onCore cpu (m.mtcpListen network sockid backlog granted queueGranted)
  | .accept sockid skips => machine.onCore cpu (m.mtcpAccept network sockid skips)
  | .connect sockid addr iss seen => mtcpConnect network machine cpu sockid addr iss seen true
  | .close sockid => machine.onCore cpu (m.mtcpClose network sockid)
  | .initRss saddrBase numAddr daddr dport granted =>
    mtcpInitRss network machine cpu saddrBase numAddr daddr dport granted
  | .applicationCalls => (handleApplicationCalls network machine cpu).map fun after => (.done 0, after)
  | .packet flow segment iss =>
    machine.onCore cpu ((m.processTCPPacket network flow segment iss).map fun m => (.done 0, m))
  | .advance pointer state =>
    machine.onCore cpu ((m.stream pointer).map fun stream =>
      (.done 0, m.setStream pointer { stream with state := state.val }))
  | .destroy pointer =>
    (destroyTCPStream network m machine.pools pointer).map fun (pools, m) =>
      (.done 0, machine.put cpu pools m)

def Machine.run (machine : Machine) : List (Nat × Call) → Except Stop Machine
  | [] => .ok machine
  | (cpu, call) :: later => do
      let (_, next) ← machine.step network cpu call
      next.run later

end Runs

end Mcc.Core
