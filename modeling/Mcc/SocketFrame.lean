import Mcc.SocketCalls

/-!
What each call leaves alone: most of them touch neither the flow table nor a pool, and for the others
the streams and addresses that come and go are named.
-/

namespace Mcc.Core

open Function (update update_self update_of_ne)

theorem map_ok {α β : Type} {value : Except Stop α} {wrap : α → β} {result : β}
    (done : value.map wrap = .ok result) : ∃ produced, value = .ok produced ∧ wrap produced = result := by
  cases value with
  | error stop => cases done
  | ok produced => exact ⟨produced, rfl, Except.ok.inj done⟩

section Views

structure FlowView where
  held : Nat → Option (Flow × Bool)
  next : Nat
  table : Nat → List Nat
  ap : Option Nat

def Manager.flowView (m : Manager) : FlowView where
  held pointer := (m.streams pointer).map fun stream => (stream.flow, stream.isBoundAddr)
  next := m.nextStream
  table := m.tcpFlowTable
  ap := m.ap

def FlowView.add (view : FlowView) (flow : Flow) (isBound : Bool) : FlowView :=
  { view with
    held := update view.held view.next (some (flow, isBound))
    next := view.next + 1
    table := HashTable.insert hashFlow view.table view.next flow }

def FlowView.drop (view : FlowView) (pointer : Nat) (flow : Flow) : FlowView :=
  { view with
    held := update view.held pointer none
    table := HashTable.remove hashFlow view.table pointer flow }

variable {network : Network} {m after : Manager} {reply : Reply} {pointer sockid : Nat}

@[simp] theorem setSocket_smap (socket : Socket) : (m.setSocket sockid socket).smap sockid = socket :=
  update_self _ _ _

theorem setSocket_smap_of_ne {other} (apart : other ≠ sockid) (socket : Socket) :
    (m.setSocket sockid socket).smap other = m.smap other := update_of_ne apart _ _

theorem stream_ok {stream} (done : m.stream pointer = .ok stream) : m.streams pointer = some stream := by
  rw [Manager.stream] at done
  split at done
  · next held => rw [held, Except.ok.inj done]
  · cases done

theorem listener_ok {listener} (done : m.listener pointer = .ok listener) :
    m.listenerAt pointer = some listener := by
  rw [Manager.listener] at done
  split at done
  · next held => rw [held, Except.ok.inj done]
  · cases done

theorem flowView_held {stream} (held : m.streams pointer = some stream) :
    m.flowView.held pointer = some (stream.flow, stream.isBoundAddr) := by
  change (m.streams pointer).map _ = _
  rw [held, Option.map_some]

theorem flowView_setStream {old new} (held : m.streams pointer = some old)
    (flow : new.flow = old.flow) (isBound : new.isBoundAddr = old.isBoundAddr) :
    (m.setStream pointer new).flowView = m.flowView := by
  have same : (m.setStream pointer new).flowView.held = m.flowView.held := by
    funext other
    change (update m.streams pointer (some new) other).map _ = (m.streams other).map _
    by_cases here : other = pointer
    · subst here
      rw [update_self, held, Option.map_some, Option.map_some, flow, isBound]
    · rw [update_of_ne here]
  exact congrArg (fun held => { m.flowView with held := held }) same

theorem flowView_addStream (stream : Stream) :
    (m.addStream stream).flowView = m.flowView.add stream.flow stream.isBoundAddr := by
  have held : (fun other => (update m.streams m.nextStream (some stream) other).map
      fun stream => (stream.flow, stream.isBoundAddr)) = update m.flowView.held
        m.nextStream (some (stream.flow, stream.isBoundAddr)) := by
    funext other
    by_cases here : other = m.nextStream
    · rw [here, update_self, update_self, Option.map_some]
    · rw [update_of_ne here, update_of_ne here]
      rfl
  have view : (m.addStream stream).flowView = ⟨fun other => (update m.streams m.nextStream
      (some stream) other).map fun stream => (stream.flow, stream.isBoundAddr), m.nextStream + 1,
      HashTable.insert hashFlow m.tcpFlowTable m.nextStream stream.flow, m.ap⟩ := by
    rw [Manager.addStream]
    split <;> rfl
  rw [view, held]
  rfl

theorem flowView_drop (stream : Stream) :
    (m.drop pointer stream).flowView = m.flowView.drop pointer stream.flow := by
  have held : (m.drop pointer stream).flowView.held = (m.flowView.drop pointer stream.flow).held := by
    funext other
    change (update m.streams pointer none other).map _ = update m.flowView.held pointer none other
    by_cases here : other = pointer
    · rw [here, update_self, update_self, Option.map_none]
    · rw [update_of_ne here, update_of_ne here]
      rfl
  exact congrArg (fun held => { m.flowView.drop pointer stream.flow with held := held }) held

end Views

open Manager

section Calls

variable {network : Network} {m after : Manager} {reply : Reply} {pointer sockid skips : Nat}
  {number : Int}

theorem allocateSocket_cases {socktype}
    (done : m.allocateSocket socktype skips = .ok (some (sockid, after))) :
    ∃ rest, m.freeSmap.drop skips = sockid :: rest ∧
      after = { m.setSocket sockid { Socket.empty with socktype } with
        freeSmap := rest ++ m.freeSmap.take skips } := by
  rw [allocateSocket] at done
  split at done
  · cases done
  · split at done
    · cases done
    · next rest dropped =>
      cases done
      exact ⟨rest, dropped, rfl⟩

theorem freeSocket_flowView : (m.freeSocket sockid).flowView = m.flowView := by
  rw [freeSocket]
  split <;> rfl

theorem mtcpSocket_flowView {inet isStream}
    (done : m.mtcpSocket inet isStream skips = .ok (reply, after)) : after.flowView = m.flowView := by
  rw [mtcpSocket] at done
  split at done
  · cases done
    rfl
  · split at done
    · cases done
      rfl
    · obtain ⟨allocated, isAllocated, done⟩ := bind_ok done
      split at done
      · cases done
        rfl
      · cases done
        obtain ⟨rest, -, rfl⟩ := allocateSocket_cases isAllocated
        rfl

theorem mtcpSetsockNonblock_flowView :
    (m.mtcpSetsockNonblock network number).2.flowView = m.flowView := by
  rw [mtcpSetsockNonblock]
  split <;> rfl

theorem mtcpBind_flowView {addr} : (m.mtcpBind network number addr).2.flowView = m.flowView := by
  rw [mtcpBind]
  split
  · rfl
  · dsimp only
    split
    · rfl
    · split
      · rfl
      · split
        · rfl
        · split <;> rfl

/-- `mtcp_listen` makes a stream socket a listening one before it checks anything else. -/
def Manager.turned (m : Manager) (sockid : Nat) : Manager :=
  if (m.smap sockid).socktype = .stream then
    m.setSocket sockid { m.smap sockid with socktype := .listener }
  else m

def Manager.listening (m : Manager) (sockid backlog : Nat) : Manager :=
  { (({ m.setListener m.nextListener ⟨sockid, backlog, []⟩ with
      nextListener := m.nextListener + 1 } : Manager).setSocket sockid
        { m.smap sockid with held := some (.listener m.nextListener) }) with
    listeners := HashTable.insert hashListener m.listeners m.nextListener
      (m.smap sockid).saddr.sinPort }

theorem mtcpListen_cases {backlog granted queueGranted}
    (done : m.mtcpListen network number backlog granted queueGranted = .ok (reply, after)) :
    (m.inUse network number = none ∧ after = m) ∨
      ∃ sockid, m.inUse network number = some sockid ∧ (after = m.turned sockid ∨
        reply = .done 0 ∧ ((m.turned sockid).smap sockid).socktype = .listener ∧
          (m.turned sockid).listenerHTSearch ((m.turned sockid).smap sockid).saddr.sinPort = .ok none ∧
          after = (m.turned sockid).listening sockid backlog.toNat) := by
  rw [mtcpListen] at done
  split at done
  · next unused =>
    cases done
    exact .inl ⟨unused, rfl⟩
  · next sockid inUse =>
    refine .inr ⟨sockid, inUse, ?_⟩
    dsimp only at done
    rw [← turned] at done
    split at done
    · cases done
      exact .inl rfl
    · next kind =>
      split at done
      · cases done
        exact .inl rfl
      · obtain ⟨found, search, done⟩ := bind_ok done
        split at done
        · cases done
          exact .inl rfl
        · split at done
          · cases done
            exact .inl rfl
          · cases done
            exact .inr ⟨rfl, not_ne_iff.mp kind, search, rfl⟩

theorem mtcpListen_flowView {backlog granted queueGranted}
    (done : m.mtcpListen network number backlog granted queueGranted = .ok (reply, after)) :
    after.flowView = m.flowView := by
  have turned (sockid) : (m.turned sockid).flowView = m.flowView := by
    rw [Manager.turned]
    split <;> rfl
  rcases mtcpListen_cases done with ⟨-, rfl⟩ | ⟨sockid, -, rfl | ⟨-, -, -, rfl⟩⟩
  · rfl
  · exact turned sockid
  · exact turned sockid

def Manager.acceptor (network : Network) (m : Manager) (sockid : Int) : Option (Nat × Listener) :=
  if sockid < 0 ∨ (network.maxConcurrency : Int) ≤ sockid then none
  else if (m.smap sockid.toNat).socktype ≠ .listener then none
  else
    match (m.smap sockid.toNat).held with
    | some (.listener pointer) => (m.listenerAt pointer).map (pointer, ·)
    | _ => none

def Manager.dequeued (m : Manager) (pointer : Nat) (listener : Listener) : Manager :=
  m.setListener pointer { listener with acceptq := listener.acceptq.tail }

theorem mtcpAccept_cases (done : m.mtcpAccept network number skips = .ok (reply, after)) :
    (after = m ∧ ∀ pointer listener, m.acceptor network number = some (pointer, listener) →
      listener.acceptq = []) ∨
      ∃ pointer listener accepted rest stream, m.acceptor network number = some (pointer, listener) ∧
        m.listenerAt pointer = some listener ∧ listener.acceptq = accepted :: rest ∧
        m.streams accepted = some stream ∧ (after = m.dequeued pointer listener ∨
          ∃ (sockid : Nat) (made : Manager), reply = .done sockid ∧
            (m.dequeued pointer listener).allocateSocket .stream skips = .ok (some (sockid, made)) ∧
            after = (made.setSocket sockid { made.smap sockid with
              held := some (.stream accepted)
              saddr := ⟨stream.flow.daddr, stream.flow.dport⟩ }).setStream accepted
                { stream with socket := some sockid }) := by
  rw [Manager.mtcpAccept] at done
  split at done
  · next outside =>
    cases done
    exact .inl ⟨rfl, by simp [acceptor, outside]⟩
  · next inside =>
    dsimp only at done
    split at done
    · next kind =>
      cases done
      exact .inl ⟨rfl, by simp [acceptor, kind]⟩
    · next kind =>
      split at done
      · cases done
      · cases done
      · next pointer held =>
        obtain ⟨listener, isListener, done⟩ := bind_ok done
        have found : m.acceptor network number = some (pointer, listener) := by
          rw [acceptor, if_neg inside, if_neg kind, held]
          simp [listener_ok isListener]
        split at done
        · next empty =>
          refine .inl ⟨?_, fun _ _ other => ?_⟩
          · split at done <;> cases done <;> rfl
          · cases found.symm.trans other
            exact empty
        · next accepted rest queue =>
          obtain ⟨stream, isStream, done⟩ := bind_ok done
          refine .inr ⟨pointer, listener, accepted, rest, stream, found, listener_ok isListener, queue,
            stream_ok isStream, ?_⟩
          rw [dequeued, queue]
          split at done
          · cases done
            exact .inl rfl
          · obtain ⟨allocated, isAllocated, done⟩ := bind_ok done
            split at done
            · cases done
              exact .inl rfl
            · cases done
              exact .inr ⟨_, _, rfl, isAllocated, rfl⟩

theorem mtcpAccept_flowView (done : m.mtcpAccept network number skips = .ok (reply, after)) :
    after.flowView = m.flowView := by
  rcases mtcpAccept_cases done with ⟨rfl, -⟩ |
    ⟨pointer, listener, accepted, rest, stream, -, -, -, isStream, rfl | ⟨sockid, made, -, allocated, rfl⟩⟩
  · rfl
  · rfl
  · obtain ⟨free, -, rfl⟩ := allocateSocket_cases allocated
    refine (flowView_setStream isStream ?_ ?_).trans ?_ <;> rfl

theorem closeStreamSocket_flowView
    (done : m.closeStreamSocket network sockid = .ok (reply, after)) : after.flowView = m.flowView := by
  rw [closeStreamSocket] at done
  split at done
  · cases done
    rfl
  · cases done
  · next pointer _ =>
    obtain ⟨stream, isStream, done⟩ := bind_ok done
    have same := flowView_setStream (stream_ok isStream)
      (rfl : Stream.flow { stream with closed := true, socket := none } = _) rfl
    split at done
    · cases done
      rfl
    · split at done
      · cases done
        exact same
      · split at done
        · cases done
          exact same
        · split at done <;> cases done <;> exact same

theorem closeListeningSocket_flowView (done : m.closeListeningSocket sockid = .ok (reply, after)) :
    after.flowView = m.flowView := by
  rw [closeListeningSocket] at done
  split at done
  · cases done
    rfl
  · cases done
  · obtain ⟨listener, -, done⟩ := bind_ok done
    cases done
    rfl

theorem mtcpClose_flowView (done : m.mtcpClose network number = .ok (reply, after)) :
    after.flowView = m.flowView := by
  rw [Manager.mtcpClose] at done
  split at done
  · cases done
    rfl
  · obtain ⟨⟨reply, closed⟩, isClosed, done⟩ := bind_ok done
    cases done
    refine freeSocket_flowView.trans ?_
    rw [closeSocket] at isClosed
    split at isClosed
    · exact closeStreamSocket_flowView isClosed
    · exact closeListeningSocket_flowView isClosed
    · cases isClosed
      rfl
    · cases isClosed
      rfl
    · cases isClosed
      rfl

theorem handleSynRcvd_flowView {stream segment} (held : m.streams pointer = some stream)
    (done : m.handleSynRcvd pointer stream segment = .ok after) : after.flowView = m.flowView := by
  rw [Manager.handleSynRcvd] at done
  split at done
  · cases done
    rfl
  · split at done
    · cases done
      rfl
    · obtain ⟨found, -, done⟩ := bind_ok done
      split at done
      · cases done
      · obtain ⟨listener, -, done⟩ := bind_ok done
        split at done <;> cases done
        · exact flowView_setStream held rfl rfl
        · exact flowView_setStream held rfl rfl

theorem handleOpening_flowView {segment}
    (done : m.handleOpening pointer segment = .ok after) : after.flowView = m.flowView := by
  obtain ⟨stream, isStream, done⟩ := bind_ok done
  have held := stream_ok isStream
  have listens : (m.handleListen pointer stream segment).flowView = m.flowView := by
    rw [Manager.handleListen]
    split
    · exact flowView_setStream held rfl rfl
    · rfl
  split at done
  · cases done
    exact listens
  · split at done <;> cases done
    · exact flowView_setStream held rfl rfl
    · rfl
  · split at done
    · cases done
      rfl
    · split at done
      · cases done
        exact listens
      · exact handleSynRcvd_flowView held done
  · cases done
    rfl

end Calls

section Streams

variable {network : Network} {m after : Manager} {reply : Reply} {pointer : Nat} {flow : Flow}
  {iss irs : UInt32}

def Manager.hasMemory (m : Manager) : Prop := 0 < m.flowPool ∧ 0 < m.rvPool ∧ 0 < m.svPool

def Manager.allocated (m : Manager) : Manager :=
  { m with flowPool := m.flowPool - 1, rvPool := m.rvPool - 1, svPool := m.svPool - 1 }

theorem createTCPStream_eq (m : Manager) (socket : Option Nat) (flow : Flow) (iss irs : UInt32)
    (locks : Bool) :
    ¬m.hasMemory ∧ createTCPStream m socket flow iss irs locks = (none, m) ∨
      m.hasMemory ∧ createTCPStream m socket flow iss irs locks =
        (if locks then some m.nextStream else none,
          m.allocated.addStream ⟨flow, .listen, iss, irs, socket, false, false⟩) := by
  obtain ⟨smap, freeSmap, streams, nextStream, table, flowCnt, flowPool, rvPool, svPool, rest⟩ := m
  rw [createTCPStream]
  cases flowPool with
  | zero => exact .inl ⟨fun memory => absurd memory.1 (by simp), rfl⟩
  | succ flowPool =>
    cases rvPool with
    | zero => exact .inl ⟨fun memory => absurd memory.2.1 (by simp), rfl⟩
    | succ rvPool =>
      cases svPool with
      | zero => exact .inl ⟨fun memory => absurd memory.2.2 (by simp), rfl⟩
      | succ svPool => exact .inr ⟨⟨by simp, by simp, by simp⟩, rfl⟩

theorem processTCPPacket_cases {segment}
    (done : m.processTCPPacket network flow segment iss = .ok after) :
    after.flowView = m.flowView ∨
      m.streamHTSearch flow = .ok none ∧ segment.syn = true ∧ segment.ack = false ∧
        after.flowView = m.flowView.add flow false := by
  obtain ⟨found, search, opening⟩ := bind_ok done
  clear done
  cases found with
  | some pointer => exact .inl (handleOpening_flowView opening)
  | none =>
    obtain ⟨⟨created, opened⟩, isCreated, handled⟩ := bind_ok opening
    clear opening
    rw [createNewFlowHTEntry] at isCreated
    split at isCreated
    · next first =>
      obtain ⟨wanted, -, made⟩ := bind_ok isCreated
      clear isCreated
      split at made
      · rcases createTCPStream_eq m none flow iss segment.seq true with ⟨-, isMade⟩ | ⟨-, isMade⟩
        · cases (congrArg Except.ok isMade).symm.trans made
          cases handled
          exact .inl rfl
        · cases (congrArg Except.ok isMade).symm.trans made
          simp only [Bool.and_eq_true, Bool.not_eq_true'] at first
          refine .inr ⟨search, first.1, first.2, ?_⟩
          exact (handleOpening_flowView handled).trans (flowView_addStream _)
      · cases made
        cases handled
        exact .inl rfl
    · cases isCreated
      cases handled
      exact .inl rfl

variable {pools pools' : Pools}

theorem destroyTCPStream_cases
    (done : destroyTCPStream network m pools pointer = .ok (pools', after)) :
    ∃ stream, m.streams pointer = some stream ∧ after = m.drop pointer stream ∧
      (stream.isBoundAddr = false ∧ pools' = pools ∨
        stream.isBoundAddr = true ∧ ∃ pool ret saddr,
          returnPool network m.ap stream.flow.saddr = .ok pool ∧
          callPool pools pool (.freeAddress (some stream.flow.source)) = .ok (ret, saddr, pools')) := by
  obtain ⟨stream, isStream, done⟩ := bind_ok done
  refine ⟨stream, stream_ok isStream, ?_⟩
  dsimp only at done
  split at done
  · next isBound =>
    obtain ⟨pool, isPool, done⟩ := bind_ok done
    obtain ⟨⟨ret, saddr, freed⟩, isFreed, done⟩ := bind_ok done
    cases done
    exact ⟨rfl, .inr ⟨isBound, pool, ret, saddr, isPool, isFreed⟩⟩
  · next isBound =>
    cases done
    exact ⟨rfl, .inl ⟨Bool.eq_false_iff.mpr isBound, rfl⟩⟩

theorem destroyAll_preserves (kept : Pools → Manager → Prop)
    (each : ∀ {pools m pointer pools' after}, kept pools m →
      destroyTCPStream network m pools pointer = .ok (pools', after) → kept pools' after)
    {queue} (before : kept pools m)
    (done : destroyAll network queue (pools, m) = .ok (pools', after)) : kept pools' after := by
  induction queue generalizing pools m with
  | nil =>
    cases done
    exact before
  | cons pointer later ih =>
    obtain ⟨⟨nextPools, next⟩, isNext, done⟩ := bind_ok done
    exact ih (each before isNext) done

end Streams

section Connect

variable {network : Network} {m : Manager} {machine after : Machine} {reply : Reply} {cpu : Nat}
  {pools pools' : Pools}

theorem callPool_cases {pool call ret saddr}
    (done : callPool pools pool call = .ok (ret, saddr, pools')) :
    pool = none ∧ ret = -1 ∧ saddr = none ∧ pools' = pools ∨
      ∃ pointer ap result, pool = some pointer ∧ pools pointer = some ap ∧
        call.run ap = some (.ok result) ∧ ret = result.ret ∧ saddr = result.saddr ∧
        pools' = update pools pointer (some result.ap) := by
  cases pool with
  | none =>
    cases done
    exact .inl ⟨rfl, rfl, rfl, rfl⟩
  | some pointer =>
    simp only [callPool] at done
    split at done
    · cases done
    · next ap held =>
      split at done
      · cases done
      · cases done
      · next result ran =>
        cases done
        exact .inr ⟨pointer, ap, result, rfl, held, ran, rfl, rfl, rfl⟩

theorem bindAddress_cases {socket bound daddr isDynBound}
    (done : bindAddress network m cpu pools socket daddr = .ok (.ok (bound, isDynBound, pools'))) :
    socket.bound = true ∧ boundRSSCore socket.saddr daddr network.numQueues network.endianCheck =
        .ok (Int32.ofNat cpu) ∧ bound = socket ∧ isDynBound = false ∧ pools' = pools ∨
      socket.bound = false ∧ isDynBound = true ∧ ∃ pool ap result,
        sourcePool network m.ap daddr.sAddr = .ok (some pool) ∧ pools pool = some ap ∧
        (sourceCall network m.ap cpu daddr socket.saddr).run ap = some (.ok result) ∧ 0 ≤ result.ret ∧
        bound = { socket with saddr := result.saddr.getD socket.saddr, addrBind := true } ∧
        pools' = update pools pool (some result.ap) := by
  rw [bindAddress] at done
  split at done
  · next isBound =>
    split at done
    · cases done
    · next core isCore =>
      split at done
      · cases done
      · next here =>
        cases done
        exact .inl ⟨isBound, isCore.trans (congrArg Except.ok (not_ne_iff.mp here)), rfl, rfl, rfl⟩
  · next isBound =>
    split at done
    · cases done
    · obtain ⟨pool, isPool, called⟩ := bind_ok done
      obtain ⟨⟨ret, saddr, fetched⟩, isFetched, checked⟩ := bind_ok called
      dsimp only at checked
      split at checked
      · cases checked
      · next success =>
        cases checked
        rcases callPool_cases isFetched with
          ⟨-, rfl, -⟩ | ⟨pointer, ap, result, rfl, held, ran, rfl, rfl, rfl⟩
        · exact absurd (by decide) success
        · exact .inr ⟨Bool.eq_false_iff.mpr isBound, rfl, pointer, ap, result, isPool, held, ran,
            Int.not_lt.mp success, rfl, rfl⟩

theorem addStream_streams (stream : Stream) :
    (m.addStream stream).streams = update m.streams m.nextStream (some stream) := by
  rw [addStream]
  split <;> rfl

theorem addStream_setStream (m : Manager) (old new : Stream) (flow : new.flow = old.flow)
    (socket : new.socket = old.socket) :
    (m.addStream old).setStream m.nextStream new = m.addStream new := by
  rw [addStream, addStream, flow, socket]
  cases old.socket <;> simp [setStream, setSocket]

def Manager.submitted (m : Manager) (sockid : Nat) (socket : Socket) (stream : Stream) : Manager :=
  (m.setSocket sockid socket).allocated.addStream stream

def synSentStream (sockid : Nat) (saddr daddr : SockAddr) (iss : UInt32) (isDynBound : Bool) :
    Stream :=
  ⟨⟨saddr.sAddr, daddr.sAddr, saddr.sinPort, daddr.sinPort⟩, .synSent, iss, 0, some sockid,
    isDynBound, false⟩

theorem inUse_eq_some {number sockid} :
    m.inUse network number = some sockid ↔ number = sockid ∧ sockid < network.maxConcurrency ∧
      (m.smap sockid).socktype ≠ .unused := by
  rw [inUse]
  split
  · next outside =>
    refine ⟨nofun, fun ⟨same, inside, _⟩ => ?_⟩
    omega
  · next inside =>
    split
    · next unused =>
      refine ⟨nofun, fun ⟨same, _, used⟩ => absurd ?_ used⟩
      rwa [same, Int.toNat_natCast] at unused
    · next used =>
      rw [Option.some.injEq]
      constructor
      · rintro rfl
        exact ⟨by omega, by omega, used⟩
      · rintro ⟨rfl, -⟩
        rfl

theorem checkConnect_cases {number addr result}
    (done : checkConnect network m number addr = .ok result) :
    (∃ errno, result = .error errno ∧ errno ≠ .einprogress) ∨
      ∃ sockid daddr, result = .ok (sockid, daddr) ∧ m.inUse network number = some sockid ∧
        (m.smap sockid).socktype = .stream ∧ addr = some ⟨true, true, daddr⟩ ∧
        (m.smap sockid).held = none := by
  rw [checkConnect] at done
  split at done
  · cases done
    exact .inl ⟨_, rfl, nofun⟩
  · next sockid inUse =>
    split at done
    · cases done
      exact .inl ⟨_, rfl, nofun⟩
    · next stream =>
      split at done
      · cases done
        exact .inl ⟨_, rfl, nofun⟩
      · next addr =>
        obtain ⟨inet, long, daddr⟩ := addr
        split at done
        · cases done
          exact .inl ⟨_, rfl, nofun⟩
        · next right =>
          simp only [Bool.or_eq_true, Bool.not_eq_true', not_or, Bool.not_eq_false] at right
          obtain ⟨rfl, rfl⟩ := right
          split at done
          · next absent =>
            cases done
            exact .inr ⟨sockid, daddr, rfl, inUse, not_ne_iff.mp stream, rfl, absent⟩
          · cases done
          · obtain ⟨old, -, decided⟩ := bind_ok done
            split at decided <;> cases decided <;> exact .inl ⟨_, rfl, nofun⟩

theorem checkConnect_ok {number addr sockid daddr} :
    checkConnect network m number addr = .ok (.ok (sockid, daddr)) ↔
      m.inUse network number = some sockid ∧ (m.smap sockid).socktype = .stream ∧
        addr = some ⟨true, true, daddr⟩ ∧ (m.smap sockid).held = none := by
  constructor
  · intro done
    rcases checkConnect_cases done with ⟨errno, same, -⟩ | ⟨found, given, same, rest⟩
    · cases same
    · cases same
      exact rest
  · rintro ⟨inUse, stream, rfl, absent⟩
    simp [checkConnect, inUse, stream, absent]

theorem bindAddress_error {socket daddr errno}
    (done : bindAddress network m cpu pools socket daddr = .ok (.error errno)) :
    errno ≠ .einprogress := by
  rw [bindAddress] at done
  split at done
  · split at done
    · cases done
    · split at done <;> cases done
      exact nofun
  · split at done
    · cases done
      exact nofun
    · obtain ⟨pool, -, called⟩ := bind_ok done
      obtain ⟨fetched, -, checked⟩ := bind_ok called
      dsimp only at checked
      split at checked <;> cases checked
      exact nofun

section Forward

variable {number : Int} {addr : Option Address} {sockid : Nat} {daddr : SockAddr} {socket : Socket}
  {isDynBound : Bool} (iss : UInt32) (seen : List TcpState)

theorem ok_bind {ε α β : Type} (value : α) (next : α → Except ε β) :
    (Except.ok value >>= next) = next value := rfl

theorem bind_ok_eq_map {ε α β : Type} (value : Except ε α) (wrap : α → β) :
    (value >>= fun produced => .ok (wrap produced)) = value.map wrap := by
  cases value <;> rfl

variable
  (checked : checkConnect network (machine.cores cpu) number addr = .ok (.ok (sockid, daddr)))
  (bound : bindAddress network (machine.cores cpu) cpu machine.pools
    ((machine.cores cpu).smap sockid) daddr = .ok (.ok (socket, isDynBound, pools)))
include checked bound

theorem mtcpConnect_enomem (locks : Bool) (memory : ¬(machine.cores cpu).hasMemory) :
    mtcpConnect network machine cpu number addr iss seen locks = .ok (.failed (some .enomem),
      machine.put cpu pools ((machine.cores cpu).setSocket sockid socket)) := by
  rcases createTCPStream_eq ((machine.cores cpu).setSocket sockid socket) (some sockid)
    ⟨socket.saddr.sAddr, daddr.sAddr, socket.saddr.sinPort, daddr.sinPort⟩ iss 0 locks with
    ⟨-, refused⟩ | ⟨enough, -⟩
  · simp only [mtcpConnect, checked, bound, ok_bind, refused]
  · exact absurd enough memory

theorem mtcpConnect_enters (memory : (machine.cores cpu).hasMemory) :
    mtcpConnect network machine cpu number addr iss seen true =
      (enterConnectq network ((machine.cores cpu).submitted sockid socket
        (synSentStream sockid socket.saddr daddr iss isDynBound)) (machine.cores cpu).nextStream
        socket.nonblock seen).map fun (reply, queued) => (reply, machine.put cpu pools queued) := by
  rcases createTCPStream_eq ((machine.cores cpu).setSocket sockid socket) (some sockid)
    ⟨socket.saddr.sAddr, daddr.sAddr, socket.saddr.sinPort, daddr.sinPort⟩ iss 0 true with
    ⟨refused, -⟩ | ⟨-, made⟩
  · exact absurd memory refused
  · simp only [mtcpConnect, checked, bound, ok_bind, made]
    have held : ∀ (m : Manager) (stream : Stream),
        (m.addStream stream).stream m.nextStream = .ok stream := by
      intro m stream
      rw [Manager.stream, addStream_streams, update_self]
    change (Manager.stream _ ((machine.cores cpu).setSocket sockid socket).allocated.nextStream >>=
      _) = Except.map _ _
    rw [held, ok_bind]
    change (enterConnectq network (setStream _
      ((machine.cores cpu).setSocket sockid socket).allocated.nextStream
      (synSentStream sockid socket.saddr daddr iss isDynBound)) _ socket.nonblock seen >>= _) = _
    rw [addStream_setStream]
    · exact bind_ok_eq_map _ _
    · rfl
    · rfl

end Forward

theorem mtcpConnect_cases {number : Int} {addr : Option Address} {iss : UInt32} {seen : List TcpState}
    {locks : Bool}
    (done : mtcpConnect network machine cpu number addr iss seen locks = .ok (reply, after)) :
    let m := machine.cores cpu
    (after = machine ∧ ∃ errno, reply = .failed (some errno) ∧ errno ≠ .einprogress) ∨
      ∃ sockid daddr socket isDynBound pools,
        checkConnect network m number addr = .ok (.ok (sockid, daddr)) ∧
        bindAddress network m cpu machine.pools (m.smap sockid) daddr =
          .ok (.ok (socket, isDynBound, pools)) ∧
        (¬m.hasMemory ∧ reply = .failed (some .enomem) ∧
            after = machine.put cpu pools (m.setSocket sockid socket) ∨
          m.hasMemory ∧ (locks → ∃ queued, after = machine.put cpu pools queued ∧
            enterConnectq network (m.submitted sockid socket
              (synSentStream sockid socket.saddr daddr iss isDynBound)) m.nextStream
              socket.nonblock seen = .ok (reply, queued))) := by
  intro m
  obtain ⟨checked, isChecked, binding⟩ := bind_ok done
  cases checked with
  | error errno =>
    cases binding
    obtain ⟨_, same, other⟩ := (checkConnect_cases isChecked).resolve_right nofun
    cases same
    exact .inl ⟨rfl, errno, rfl, other⟩
  | ok checked =>
    obtain ⟨sockid, daddr⟩ := checked
    obtain ⟨bound, isBound, creating⟩ := bind_ok binding
    cases bound with
    | error errno =>
      cases creating
      exact .inl ⟨rfl, errno, rfl, bindAddress_error isBound⟩
    | ok bound =>
      obtain ⟨socket, isDynBound, pools⟩ := bound
      refine .inr ⟨sockid, daddr, socket, isDynBound, pools, isChecked, isBound, ?_⟩
      by_cases memory : (machine.cores cpu).hasMemory
      · refine .inr ⟨memory, fun locked => ?_⟩
        rw [locked, mtcpConnect_enters iss seen isChecked isBound memory] at done
        obtain ⟨⟨reply, queued⟩, entered, same⟩ := map_ok done
        cases same
        exact ⟨queued, rfl, entered⟩
      · rw [mtcpConnect_enomem iss seen isChecked isBound locks memory] at done
        cases done
        exact .inl ⟨memory, rfl, rfl⟩

theorem enterConnectq_flowView {pointer nonblock seen queued}
    (done : enterConnectq network m pointer nonblock seen = .ok (reply, queued)) :
    queued.flowView = m.flowView := by
  rw [enterConnectq] at done
  split at done
  · cases done
    rfl
  · dsimp only at done
    split at done
    · cases done
      rfl
    · split at done
      · cases done
      · obtain ⟨stream, isStream, returned⟩ := bind_ok done
        cases returned
        exact flowView_setStream (stream_ok isStream) rfl rfl

structure Connects (network : Network) (machine : Machine) (cpu : Nat) (number : Int)
    (addr : Option Address) (after : Machine) (sockid : Nat) (daddr : SockAddr) (socket : Socket)
    (isDynBound : Bool) (pools : Pools) (made : Manager) : Prop where
  checked : checkConnect network (machine.cores cpu) number addr = .ok (.ok (sockid, daddr))
  bound : bindAddress network (machine.cores cpu) cpu machine.pools
    ((machine.cores cpu).smap sockid) daddr = .ok (.ok (socket, isDynBound, pools))
  after_eq : after = machine.put cpu pools made
  flows : made.flowView = (machine.cores cpu).flowView ∨
    made.flowView = (machine.cores cpu).flowView.add
      ⟨socket.saddr.sAddr, daddr.sAddr, socket.saddr.sinPort, daddr.sinPort⟩ isDynBound

theorem mtcpConnect_connects {number addr iss seen}
    (done : mtcpConnect network machine cpu number addr iss seen true = .ok (reply, after)) :
    after = machine ∨ ∃ sockid daddr socket isDynBound pools made,
      Connects network machine cpu number addr after sockid daddr socket isDynBound pools made := by
  rcases mtcpConnect_cases done with ⟨same, -⟩ |
    ⟨sockid, daddr, socket, isDynBound, pools, checked, bound, ⟨-, -, isAfter⟩ | ⟨-, enters⟩⟩
  · exact .inl same
  · exact .inr ⟨sockid, daddr, socket, isDynBound, pools, _, checked, bound, isAfter, .inl rfl⟩
  · obtain ⟨queued, isAfter, entered⟩ := enters rfl
    refine .inr ⟨sockid, daddr, socket, isDynBound, pools, queued, checked, bound, isAfter, .inr ?_⟩
    exact (enterConnectq_flowView entered).trans (flowView_addStream _)

def Machine.withoutPool (machine : Machine) (cpu : Nat) : Pools :=
  match (machine.cores cpu).ap with
  | some pool => update machine.pools pool none
  | none => machine.pools

variable {saddrBase daddr : UInt32} {numAddr : Int32} {dport : UInt16} {granted : Bool}
  (done : mtcpInitRss network machine cpu saddrBase numAddr daddr dport granted = .ok (reply, after))
include done

theorem mtcpInitRss_cases :
    after = machine.put cpu (machine.withoutPool cpu) { machine.cores cpu with ap := none } ∨
      ∃ ap, AddrPool.Created ap ∧
        after = { machine.put cpu (update (machine.withoutPool cpu) machine.nextPool (some ap))
          { machine.cores cpu with ap := some machine.nextPool } with
            nextPool := machine.nextPool + 1 } := by
  rw [mtcpInitRss] at done
  dsimp only at done
  split at done
  · cases done
    exact .inl rfl
  · split at done
    · cases done
    · cases done
      exact .inl rfl
    · next ap made =>
      cases done
      obtain ⟨base, -, created⟩ := bind_ok made
      exact .inr ⟨ap, .inr ⟨granted, _, created⟩, rfl⟩

theorem mtcpInitRss_cores :
    ∃ own, after.cores = update machine.cores cpu { machine.cores cpu with ap := own } := by
  rcases mtcpInitRss_cases done with rfl | ⟨ap, -, rfl⟩ <;> exact ⟨_, rfl⟩

end Connect

section Steps

variable {network : Network} {machine after : Machine} {reply : Reply} {cpu : Nat} {call : Call}

theorem onCore_ok {result} (done : machine.onCore cpu result = .ok (reply, after)) :
    ∃ m, result = .ok (reply, m) ∧ after = machine.put cpu machine.pools m := by
  cases result with
  | error stop => cases done
  | ok result =>
    cases done
    exact ⟨_, rfl, rfl⟩

section

variable (network machine cpu)

/-- What one call can do to the flows, one constructor for each outcome. -/
inductive Taken : Call → Reply → Machine → Prop
  | same {call reply m} (flows : m.flowView = (machine.cores cpu).flowView) :
      Taken call reply (machine.put cpu machine.pools m)
  | connect {number addr iss seen reply after sockid daddr socket isDynBound pools made}
      (connects : Connects network machine cpu number addr after sockid daddr socket isDynBound pools
        made) : Taken (.connect number addr iss seen) reply after
  | packet {flow segment iss reply m} (search : (machine.cores cpu).streamHTSearch flow = .ok none)
      (added : m.flowView = (machine.cores cpu).flowView.add flow false) :
      Taken (.packet flow segment iss) reply (machine.put cpu machine.pools m)
  | destroy {call reply queue pools start m} (flows : start.flowView = (machine.cores cpu).flowView)
      (destroyed : destroyAll network queue (machine.pools, start) = .ok (pools, m)) :
      Taken call reply (machine.put cpu pools m)
  | initRss {saddrBase numAddr daddr dport granted reply after} (initialised : mtcpInitRss network
      machine cpu saddrBase numAddr daddr dport granted = .ok (reply, after)) :
      Taken (.initRss saddrBase numAddr daddr dport granted) reply after

end

theorem onCore_taken {result} (flows : ∀ {m}, result = .ok (reply, m) →
      m.flowView = (machine.cores cpu).flowView)
    (done : machine.onCore cpu result = .ok (reply, after)) :
    Taken network machine cpu call reply after := by
  obtain ⟨m, isResult, rfl⟩ := onCore_ok done
  exact .same (flows isResult)

theorem step_taken (done : machine.step network cpu call = .ok (reply, after)) :
    Taken network machine cpu call reply after := by
  cases call with
  | socket inet isStream skips => exact onCore_taken mtcpSocket_flowView done
  | setsockNonblock sockid =>
    refine onCore_taken (fun result => ?_) done
    exact (congrArg (·.2.flowView) (Except.ok.inj result)).symm.trans mtcpSetsockNonblock_flowView
  | bind sockid addr =>
    refine onCore_taken (fun result => ?_) done
    exact (congrArg (·.2.flowView) (Except.ok.inj result)).symm.trans mtcpBind_flowView
  | listen sockid backlog granted queueGranted => exact onCore_taken mtcpListen_flowView done
  | accept sockid skips => exact onCore_taken mtcpAccept_flowView done
  | connect number addr iss seen =>
    rcases mtcpConnect_connects done with rfl | ⟨sockid, daddr, socket, isDynBound, pools, made, connects⟩
    · have taken := @Taken.same network after cpu (.connect number addr iss seen) reply _ rfl
      rwa [show after.put cpu after.pools (after.cores cpu) = after by simp [Machine.put]] at taken
    · exact .connect connects
  | close sockid => exact onCore_taken mtcpClose_flowView done
  | initRss saddrBase numAddr daddr dport granted => exact .initRss done
  | applicationCalls =>
    obtain ⟨handled, isHandled, same⟩ := map_ok done
    cases same
    obtain ⟨-, -, destroying⟩ := bind_ok isHandled
    obtain ⟨⟨pools, m⟩, destroyed, returned⟩ := bind_ok destroying
    cases returned
    refine .destroy ?_ destroyed
    rfl
  | packet flow segment iss =>
    obtain ⟨m, result, isAfter⟩ := onCore_ok done
    obtain ⟨produced, processed, same⟩ := map_ok result
    cases same
    rw [isAfter]
    rcases processTCPPacket_cases processed with same | ⟨search, -, -, added⟩
    · exact .same same
    · exact .packet search added
  | advance pointer state =>
    obtain ⟨m, result, isAfter⟩ := onCore_ok done
    obtain ⟨stream, isStream, same⟩ := map_ok result
    cases same
    rw [isAfter]
    exact .same (flowView_setStream (stream_ok isStream) rfl rfl)
  | destroy pointer =>
    obtain ⟨⟨pools, m⟩, destroyed, same⟩ := map_ok done
    cases same
    refine @Taken.destroy network machine cpu _ _ [pointer] pools _ m rfl ?_
    rw [destroyAll, destroyed]
    rfl

theorem put_elsewhere {pools m other} (elsewhere : other ≠ cpu) :
    (machine.put cpu pools m).cores other = machine.cores other :=
  update_of_ne elsewhere _ _

@[simp] theorem put_here {pools m} : (machine.put cpu pools m).cores cpu = m :=
  update_self _ _ _

theorem step_elsewhere {other} (elsewhere : other ≠ cpu)
    (done : machine.step network cpu call = .ok (reply, after)) :
    after.cores other = machine.cores other := by
  cases step_taken done with
  | same | packet | destroy => exact put_elsewhere elsewhere
  | connect connects =>
    rw [connects.after_eq]
    exact put_elsewhere elsewhere
  | initRss initialised =>
    obtain ⟨own, cores⟩ := mtcpInitRss_cores initialised
    rw [cores, update_of_ne elsewhere]

end Steps

section Runs

variable (network : Network)

def Along (allowed : Machine → Nat → Call → Prop) (machine : Machine) : List (Nat × Call) → Prop
  | [] => True
  | (cpu, call) :: later => allowed machine cpu call ∧ ∀ reply next,
      machine.step network cpu call = .ok (reply, next) → Along allowed next later

theorem run_preserves {network : Network} {allowed : Machine → Nat → Call → Prop}
    {kept : Machine → Prop} {machine after : Machine} {steps : List (Nat × Call)}
    (step : ∀ {machine cpu call reply after}, kept machine → allowed machine cpu call →
      machine.step network cpu call = .ok (reply, after) → kept after)
    (before : kept machine) (along : Along network allowed machine steps)
    (done : machine.run network steps = .ok after) : kept after := by
  induction steps generalizing machine with
  | nil =>
    cases done
    exact before
  | cons first later ih =>
    obtain ⟨cpu, call⟩ := first
    obtain ⟨⟨reply, next⟩, taken, rest⟩ := bind_ok done
    exact ih (step before along.1 taken) (along.2 reply next taken) rest

theorem run_keeps {network : Network} {kept : Machine → Prop} {machine after : Machine}
    {steps : List (Nat × Call)}
    (step : ∀ {machine cpu call reply after}, kept machine →
      machine.step network cpu call = .ok (reply, after) → kept after)
    (before : kept machine) (done : machine.run network steps = .ok after) : kept after := by
  have along : ∀ machine, Along network (fun _ _ _ => True) machine steps := by
    clear done
    induction steps with
    | nil => exact fun _ => trivial
    | cons first later ih => exact fun _ => ⟨trivial, fun _ next _ => ih next⟩
  exact run_preserves (fun before _ => step before) before (along machine) done

end Runs

end Mcc.Core
