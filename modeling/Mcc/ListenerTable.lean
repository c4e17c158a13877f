import Mcc.FlowTable

/-!
The listeners. The table holds pointers to them, under the ports of their sockets: it stays right as
long as no listener is freed and no socket gets another port while it listens, and then the handshake
finds a listener whenever it needs one.
-/

namespace Mcc.Core

open Function (update update_self update_of_ne)

section Invariant

def Stream.waits (stream : Stream) : Prop := stream.state = .listen ∨ stream.state = .synRcvd

structure Manager.Tended (m : Manager) : Prop where
  distinct : m.freeSmap.Nodup
  free : ∀ sockid ∈ m.freeSmap, (m.smap sockid).socktype = .unused
  unmade : ∀ pointer, m.nextListener ≤ pointer → m.listenerAt pointer = none
  owned : ∀ pointer listener, m.listenerAt pointer = some listener →
    (m.smap listener.socket).socktype = .listener ∧
      (m.smap listener.socket).held = some (.listener pointer)
  indexes : HashTable.Indexes hashListener m.portOf m.listeners
  awaited : ∀ pointer stream, m.streams pointer = some stream → stream.waits →
    ∃ found, m.portOf found = .ok stream.flow.sport

structure Tends (m after : Manager) : Prop where
  tended : after.Tended
  ports : ∀ pointer port, m.portOf pointer = .ok port → after.portOf pointer = .ok port

variable {network : Network} {m middle after : Manager} {pointer sockid : Nat}

theorem Manager.Tended.same (tended : m.Tended) : Tends m m := ⟨tended, fun _ _ has => has⟩

theorem Tends.trans (first : Tends m middle) (second : Tends middle after) : Tends m after :=
  ⟨second.tended, fun pointer port has => second.ports pointer port (first.ports pointer port has)⟩

theorem portOf_ok {port} : m.portOf pointer = .ok port ↔ ∃ listener,
    m.listenerAt pointer = some listener ∧ (m.smap listener.socket).saddr.sinPort = port := by
  rw [Manager.portOf, Manager.listener]
  cases m.listenerAt pointer with
  | none => simp [Except.map]
  | some listener => simp [Except.map]

theorem portOf_congr (listenerAt : after.listenerAt pointer = m.listenerAt pointer)
    (port : ∀ listener, m.listenerAt pointer = some listener →
      (after.smap listener.socket).saddr.sinPort = (m.smap listener.socket).saddr.sinPort) :
    after.portOf pointer = m.portOf pointer := by
  rw [Manager.portOf, Manager.portOf, Manager.listener, Manager.listener, listenerAt]
  cases held : m.listenerAt pointer with
  | none => rfl
  | some listener => exact congrArg Except.ok (port listener held)

variable {stream : Stream}

namespace Manager.Tended

section

variable (tended : m.Tended)
include tended

theorem setStream (waits : stream.waits → ∃ found, m.portOf found = .ok stream.flow.sport) :
    Tends m (m.setStream pointer stream) := by
  refine ⟨{ tended with awaited := ?_ }, fun _ _ has => has⟩
  intro other found isFound foundWaits
  by_cases here : other = pointer
  · subst here
    simp only [Manager.setStream, update_self, Option.some.injEq] at isFound
    subst isFound
    exact waits foundWaits
  · simp only [Manager.setStream, update_of_ne here] at isFound
    exact tended.awaited other found isFound foundWaits

theorem setStream_open (notListen : stream.state ≠ .listen)
    (notRcvd : stream.state ≠ .synRcvd) : Tends m (m.setStream pointer stream) := by
  refine tended.setStream fun waits => ?_
  rcases waits with isListen | isRcvd
  · exact absurd isListen notListen
  · exact absurd isRcvd notRcvd

theorem setSocket {socket}
    (listens : ∀ pointer listener, m.listenerAt pointer = some listener → listener.socket = sockid →
      socket.socktype = .listener ∧ socket.held = some (.listener pointer) ∧
        socket.saddr.sinPort = (m.smap sockid).saddr.sinPort)
    (inUse : sockid ∉ m.freeSmap) : Tends m (m.setSocket sockid socket) := by
  have ports : (m.setSocket sockid socket).portOf = m.portOf := by
    funext pointer
    refine portOf_congr rfl fun listener held => ?_
    by_cases here : listener.socket = sockid
    · rw [here, setSocket_smap]
      exact (listens pointer listener held here).2.2
    · rw [setSocket_smap_of_ne here]
  refine ⟨⟨tended.distinct, ?_, tended.unmade, ?_, ?_, ?_⟩, fun pointer port has => ports ▸ has⟩
  · intro other isFree
    have apart : other ≠ sockid := fun same => inUse (same ▸ isFree)
    rw [setSocket_smap_of_ne apart]
    exact tended.free other isFree
  · intro pointer listener held
    by_cases here : listener.socket = sockid
    · obtain ⟨kind, holds, -⟩ := listens pointer listener held here
      rw [here, setSocket_smap]
      exact ⟨kind, holds⟩
    · rw [setSocket_smap_of_ne here]
      exact tended.owned pointer listener held
  · rw [ports]
    exact tended.indexes
  · rw [ports]
    exact tended.awaited

theorem not_free (used : (m.smap sockid).socktype ≠ .unused) :
    sockid ∉ m.freeSmap := fun isFree => used (tended.free sockid isFree)

theorem setSocket_other {socket} (other : (m.smap sockid).socktype ≠ .listener)
    (inUse : sockid ∉ m.freeSmap) :
    Tends m (m.setSocket sockid socket) :=
  tended.setSocket (fun pointer listener held here =>
    (other (here ▸ (tended.owned pointer listener held).1)).elim) inUse

theorem setSocket_stream {socket} (isStream : (m.smap sockid).socktype = .stream) :
    Tends m (m.setSocket sockid socket) := by
  refine tended.setSocket_other ?_ (tended.not_free ?_)
  · rw [isStream]
    exact nofun
  · rw [isStream]
    exact nofun

theorem setListener {old new} (held : m.listenerAt pointer = some old) (socket : new.socket = old.socket) :
    Tends m (m.setListener pointer new) := by
  have found : ∀ other listener, (m.setListener pointer new).listenerAt other = some listener →
      ∃ before, m.listenerAt other = some before ∧ listener.socket = before.socket := by
    intro other listener isListener
    by_cases here : other = pointer
    · subst here
      simp only [Manager.setListener, update_self, Option.some.injEq] at isListener
      exact ⟨old, held, isListener ▸ socket⟩
    · simp only [Manager.setListener, update_of_ne here] at isListener
      exact ⟨listener, isListener, rfl⟩
  have ports : (m.setListener pointer new).portOf = m.portOf := by
    funext other
    by_cases here : other = pointer
    · subst here
      simp [Manager.portOf, Manager.listener, Manager.setListener, held, socket, Except.map]
    · refine portOf_congr ?_ fun _ _ => rfl
      simp only [Manager.setListener, update_of_ne here]
  refine ⟨⟨tended.distinct, tended.free, ?_, ?_, ?_, ?_⟩, fun pointer port has => ports ▸ has⟩
  · intro other beyond
    have apart : other ≠ pointer := by
      rintro rfl
      cases (tended.unmade other beyond).symm.trans held
    simp only [Manager.setListener, update_of_ne apart]
    exact tended.unmade other beyond
  · intro other listener isListener
    obtain ⟨before, isBefore, same⟩ := found other listener isListener
    rw [same]
    exact tended.owned other before isBefore
  · rw [ports]
    exact tended.indexes
  · rw [ports]
    exact tended.awaited

theorem allocate {socktype skips} (done : m.allocateSocket socktype skips = .ok (some (sockid, after))) :
    Tends m after ∧ sockid ∉ after.freeSmap ∧ after.smap sockid = { Socket.empty with socktype } := by
  obtain ⟨rest, dropped, rfl⟩ := allocateSocket_cases done
  have split : m.freeSmap = m.freeSmap.take skips ++ sockid :: rest := by
    rw [← dropped, List.take_append_drop]
  have distinct := tended.distinct
  rw [split] at distinct
  have order : (m.freeSmap.take skips ++ sockid :: rest).Perm
      (sockid :: (rest ++ m.freeSmap.take skips)) :=
    List.perm_append_comm
  obtain ⟨gone, left⟩ := List.nodup_cons.mp (order.nodup_iff.mp distinct)
  have isFree : sockid ∈ m.freeSmap := split ▸ by simp
  have fewer : Manager.Tended { m with freeSmap := rest ++ m.freeSmap.take skips } := by
    refine { tended with distinct := left, free := fun other member => tended.free other ?_ }
    rw [split]
    exact order.mem_iff.mpr (List.mem_cons_of_mem _ member)
  have unused : (m.smap sockid).socktype ≠ .listener := by
    rw [tended.free sockid isFree]
    exact nofun
  have set := @Manager.Tended.setSocket_other _ sockid fewer { Socket.empty with socktype } unused gone
  exact ⟨⟨set.tended, set.ports⟩, gone, setSocket_smap _⟩

theorem freeSocket (unheld : ∀ pointer, (m.smap sockid).held ≠ some (.listener pointer)) :
    Tends m (m.freeSocket sockid) := by
  rw [Manager.freeSocket]
  dsimp only
  split
  · exact tended.same
  · next used =>
    have isUsed := tended.not_free used
    have set := @Manager.Tended.setSocket _ sockid tended
      { m.smap sockid with socktype := .unused, held := none }
      (fun pointer listener held here =>
        (unheld pointer (here ▸ (tended.owned pointer listener held).2)).elim)
      isUsed
    refine ⟨{ set.tended with distinct := ?_, free := ?_ }, set.ports⟩
    · refine List.nodup_append.mpr ⟨tended.distinct, List.nodup_singleton _, ?_⟩
      rintro other member last isLast rfl
      exact isUsed (List.mem_singleton.mp isLast ▸ member)
    · intro other member
      rcases List.mem_append.mp member with before | isLast
      · exact set.tended.free other before
      · rw [List.mem_singleton.mp isLast]
        exact congrArg Socket.socktype (setSocket_smap _)

theorem listen {backlog} (kind : (m.smap sockid).socktype = .listener)
    (unheard : ∀ pointer, m.portOf pointer ≠ .ok (m.smap sockid).saddr.sinPort) :
    Tends m (m.listening sockid backlog) := by
  have smapOther : ∀ other, other ≠ sockid → (m.listening sockid backlog).smap other = m.smap other :=
    fun other apart => setSocket_smap_of_ne apart _
  have newOther : ∀ other, other ≠ m.nextListener →
      (m.listening sockid backlog).listenerAt other = m.listenerAt other :=
    fun other apart => update_of_ne apart _ _
  have newHere : (m.listening sockid backlog).listenerAt m.nextListener = some ⟨sockid, backlog, []⟩ :=
    update_self _ _ _
  have apart : ∀ pointer listener, m.listenerAt pointer = some listener → listener.socket ≠ sockid := by
    rintro pointer listener held rfl
    exact unheard pointer (portOf_ok.mpr ⟨listener, held, rfl⟩)
  have isNew : ∀ port, m.portOf m.nextListener ≠ .ok port := by
    intro port has
    obtain ⟨listener, held, -⟩ := portOf_ok.mp has
    cases (tended.unmade _ (Nat.le_refl _)).symm.trans held
  have portNew : (m.listening sockid backlog).portOf m.nextListener =
      .ok (m.smap sockid).saddr.sinPort :=
    portOf_ok.mpr ⟨_, newHere, congrArg (·.saddr.sinPort) (setSocket_smap _)⟩
  have portOther : ∀ other, other ≠ m.nextListener →
      (m.listening sockid backlog).portOf other = m.portOf other := by
    intro other new
    refine portOf_congr (newOther other new) fun listener held => ?_
    rw [smapOther _ (apart other listener held)]
  have ports : ∀ pointer port, m.portOf pointer = .ok port →
      (m.listening sockid backlog).portOf pointer = .ok port := by
    intro pointer port has
    rw [portOther pointer fun same => isNew port (same ▸ has), has]
  refine ⟨⟨tended.distinct, ?_, ?_, ?_, tended.indexes.insert isNew portNew portOther, ?_⟩, ports⟩
  · intro other isFree
    have unused := tended.free other isFree
    rw [smapOther other (fun same => by rw [same, kind] at unused; cases unused)]
    exact unused
  · intro pointer beyond
    rw [newOther pointer (Nat.ne_of_gt beyond)]
    exact tended.unmade pointer (Nat.le_of_lt beyond)
  · intro pointer listener held
    by_cases new : pointer = m.nextListener
    · subst new
      cases newHere.symm.trans held
      rw [show (m.listening sockid backlog).smap sockid = _ from setSocket_smap _]
      exact ⟨kind, rfl⟩
    · rw [newOther pointer new] at held
      rw [smapOther _ (apart pointer listener held)]
      exact tended.owned pointer listener held
  · intro pointer stream isStream waits
    obtain ⟨found, has⟩ := tended.awaited pointer stream isStream waits
    exact ⟨found, ports found _ has⟩

theorem addStream (owner : ∀ sockid, stream.socket = some sockid → (m.smap sockid).socktype = .stream)
    (waits : stream.waits → ∃ found, m.portOf found = .ok stream.flow.sport) :
    Tends m (m.addStream stream) := by
  have grows : Tends m { m with
      nextStream := m.nextStream + 1
      streams := update m.streams m.nextStream (some stream)
      tcpFlowTable := HashTable.insert hashFlow m.tcpFlowTable m.nextStream stream.flow
      flowCnt := m.flowCnt + 1 } := by
    refine ⟨{ tended with awaited := ?_ }, fun _ _ has => has⟩
    intro other found isFound foundWaits
    by_cases here : other = m.nextStream
    · subst here
      cases (update_self m.nextStream _ m.streams).symm.trans isFound
      exact waits foundWaits
    · exact tended.awaited other found ((update_of_ne here _ m.streams).symm.trans isFound) foundWaits
  rw [Manager.addStream]
  dsimp only
  split
  · next sockid isSocket =>
    exact grows.trans (grows.tended.setSocket_stream (owner sockid isSocket))
  · exact grows

theorem drop : Tends m (m.drop pointer stream) := by
  refine ⟨{ tended with awaited := fun other found isFound => ?_ }, fun _ _ has => has⟩
  by_cases here : other = pointer
  · subst here
    simp [Manager.drop] at isFound
  · simp only [Manager.drop, update_of_ne here] at isFound
    exact tended.awaited other found isFound

end

end Manager.Tended

end Invariant

open Manager

section Calls

variable {network : Network} {m after : Manager} {reply : Reply} {pointer sockid skips : Nat}
  {number : Int}

theorem Manager.Tended.in_use (tended : m.Tended) (inUse : m.inUse network number = some sockid) :
    sockid ∉ m.freeSmap := tended.not_free (inUse_eq_some.mp inUse).2.2

theorem Manager.Tended.turned (tended : m.Tended) : Tends m (m.turned sockid) := by
  rw [Manager.turned]
  split
  · next isStream =>
    exact tended.setSocket_stream isStream
  · exact tended.same

section

variable (tended : m.Tended)
include tended

theorem mtcpSocket_tends {inet isStream}
    (done : m.mtcpSocket inet isStream skips = .ok (reply, after)) : Tends m after := by
  rw [mtcpSocket] at done
  split at done
  · cases done
    exact tended.same
  · split at done
    · cases done
      exact tended.same
    · obtain ⟨allocated, isAllocated, done⟩ := bind_ok done
      split at done <;> cases done
      · exact tended.same
      · exact (tended.allocate isAllocated).1

theorem mtcpSetsockNonblock_tends : Tends m (m.mtcpSetsockNonblock network number).2 := by
  rw [mtcpSetsockNonblock]
  split
  · exact tended.same
  · next sockid inUse =>
    refine tended.setSocket (fun pointer listener held here => ?_) (tended.in_use inUse)
    subst here
    obtain ⟨kind, holds⟩ := tended.owned pointer listener held
    exact ⟨kind, holds, rfl⟩

theorem mtcpBind_tends {addr}
    (keeps : ∀ sockid pointer given, m.inUse network number = some sockid →
      (m.smap sockid).held = some (.listener pointer) → addr = some given →
      (m.smap sockid).addrBind = true ∨ given.addr.sinPort = (m.smap sockid).saddr.sinPort) :
    Tends m (m.mtcpBind network number addr).2 := by
  rw [mtcpBind]
  split
  · exact tended.same
  · next sockid inUse =>
    dsimp only
    split
    · exact tended.same
    · split
      · exact tended.same
      · next given =>
        split
        · exact tended.same
        · next unbound =>
          split
          · exact tended.same
          · refine tended.setSocket (fun pointer listener held here => ?_) (tended.in_use inUse)
            subst here
            obtain ⟨kind, holds⟩ := tended.owned pointer listener held
            have port := keeps _ pointer given inUse holds rfl
            exact ⟨kind, holds, port.resolve_left unbound⟩

theorem mtcpListen_tends {backlog granted queueGranted}
    (done : m.mtcpListen network number backlog granted queueGranted = .ok (reply, after)) :
    Tends m after := by
  rcases mtcpListen_cases done with ⟨-, rfl⟩ | ⟨sockid, inUse, rfl | ⟨-, kind, search, rfl⟩⟩
  · exact tended.same
  · exact tended.turned
  · have turns := @Manager.Tended.turned _ sockid tended
    refine turns.trans (turns.tended.listen kind ?_)
    rcases turns.tended.indexes.search ((m.turned sockid).smap sockid).saddr.sinPort with
      ⟨other, isOther, -⟩ | ⟨-, unheard⟩
    · cases search.symm.trans isOther
    · exact unheard

theorem mtcpAccept_tends
    (done : m.mtcpAccept network number skips = .ok (reply, after)) : Tends m after := by
  rcases mtcpAccept_cases done with ⟨rfl, -⟩ |
    ⟨found, listener, accepted, rest, stream, -, isListener, -, isStream, rest⟩
  · exact tended.same
  · have dequeued : Tends m (m.dequeued found listener) := tended.setListener isListener rfl
    rcases rest with rfl | ⟨sockid, made, -, allocated, rfl⟩
    · exact dequeued
    · obtain ⟨allocates, gone, isNew⟩ := dequeued.tended.allocate allocated
      have kind : (made.smap sockid).socktype ≠ .listener := by
        rw [isNew]
        exact nofun
      have given := @Manager.Tended.setSocket_other _ sockid allocates.tended
        { made.smap sockid with
          held := some (.stream accepted), saddr := ⟨stream.flow.daddr, stream.flow.dport⟩ } kind gone
      refine dequeued.trans (allocates.trans (given.trans (given.tended.setStream ?_)))
      intro waits
      obtain ⟨heard, has⟩ := tended.awaited accepted stream isStream waits
      exact ⟨heard, given.ports _ _ (allocates.ports _ _ (dequeued.ports _ _ has))⟩

theorem closeStreamSocket_tends (done : m.closeStreamSocket network sockid = .ok (reply, after)) :
    Tends m after ∧ after.smap = m.smap := by
  rw [closeStreamSocket] at done
  split at done
  · cases done
    exact ⟨tended.same, rfl⟩
  · cases done
  · next pointer _ =>
    obtain ⟨stream, isStream, done⟩ := bind_ok done
    have marks : Tends m (m.setStream pointer { stream with closed := true, socket := none }) :=
      tended.setStream fun waits => tended.awaited pointer stream (stream_ok isStream) waits
    have queues {marked : Manager} (marks : Tends m marked) :
        Tends m (marked.enqueueDestroy network pointer) :=
      ⟨{ marks.tended with }, marks.ports⟩
    dsimp only at done
    split at done
    · cases done
      exact ⟨tended.same, rfl⟩
    · split at done
      · cases done
        exact ⟨queues marks, rfl⟩
      · split at done
        · cases done
          exact ⟨queues marks, rfl⟩
        · split at done <;> cases done <;> exact ⟨marks, rfl⟩

theorem mtcpClose_tends (spared : ∀ sockid pointer, m.inUse network number = some sockid →
      (m.smap sockid).held ≠ some (.listener pointer))
    (done : m.mtcpClose network number = .ok (reply, after)) : Tends m after := by
  rw [Manager.mtcpClose] at done
  split at done
  · cases done
    exact tended.same
  · next sockid inUse =>
    obtain ⟨⟨reply, closed⟩, isClosed, done⟩ := bind_ok done
    cases done
    have unheld := fun pointer => spared sockid pointer inUse
    obtain ⟨closes, same⟩ : Tends m closed ∧ closed.smap = m.smap := by
      rw [closeSocket] at isClosed
      split at isClosed
      · exact closeStreamSocket_tends tended isClosed
      · rw [closeListeningSocket] at isClosed
        split at isClosed
        · cases isClosed
          exact ⟨tended.same, rfl⟩
        · cases isClosed
        · next pointer held => exact absurd held (unheld pointer)
      · cases isClosed
        exact ⟨tended.same, rfl⟩
      · cases isClosed
        exact ⟨tended.same, rfl⟩
      · cases isClosed
        exact ⟨tended.same, rfl⟩
    refine closes.trans (closes.tended.freeSocket ?_)
    rw [same]
    exact unheld

end

variable {seen : List TcpState}

theorem awaitEstablished_done {state}
    (done : awaitEstablished seen = some (state, reply)) : state ≠ .listen ∧ state ≠ .synRcvd := by
  induction seen with
  | nil => cases done
  | cons first later ih =>
    rw [awaitEstablished] at done
    split at done
    · next beyond =>
      cases done
      constructor
      · rintro rfl
        exact absurd beyond (by decide)
      · rintro rfl
        exact absurd beyond (by decide)
    · split at done
      · next isEstablished =>
        cases done
        rw [isEstablished]
        exact ⟨nofun, nofun⟩
      · exact ih done

theorem enterConnectq_tends {nonblock} (tended : m.Tended)
    (done : enterConnectq network m pointer nonblock seen = .ok (reply, after)) : Tends m after := by
  rw [enterConnectq] at done
  split at done
  · cases done
    exact ⟨{ tended with }, fun _ _ has => has⟩
  · next connectq _ =>
    have queues : Tends m { m with connectq } :=
      ⟨{ tended with }, fun _ _ has => has⟩
    dsimp only at done
    split at done
    · cases done
      exact queues
    · split at done
      · cases done
      · next state _ awaited =>
        obtain ⟨stream, -, done⟩ := bind_ok done
        cases done
        obtain ⟨notListen, notRcvd⟩ := awaitEstablished_done awaited
        exact queues.trans (queues.tended.setStream_open notListen notRcvd)

theorem mtcpConnect_tends {machine next cpu addr iss} (tended : (machine.cores cpu).Tended)
    (done : mtcpConnect network machine cpu number addr iss seen true = .ok (reply, next)) :
    Tends (machine.cores cpu) (next.cores cpu) := by
  rcases mtcpConnect_cases done with ⟨rfl, -⟩ |
    ⟨sockid, daddr, socket, isDynBound, pools, checked, bound, exit⟩
  · exact tended.same
  · obtain ⟨-, isStream, -, -⟩ := checkConnect_ok.mp checked
    have kind : socket.socktype = .stream := by
      rcases bindAddress_cases bound with ⟨-, -, rfl, -⟩ | ⟨-, -, _, _, _, -, -, -, -, rfl, -⟩
      · exact isStream
      · exact isStream
    have binds : Tends (machine.cores cpu) ((machine.cores cpu).setSocket sockid socket) :=
      tended.setSocket_stream isStream
    rcases exit with ⟨-, -, rfl⟩ | ⟨-, enters⟩
    · rw [put_here]
      exact binds
    · obtain ⟨queued, rfl, entered⟩ := enters rfl
      rw [put_here]
      have takes : Tends ((machine.cores cpu).setSocket sockid socket)
          ((machine.cores cpu).setSocket sockid socket).allocated :=
        ⟨{ binds.tended with }, fun _ _ has => has⟩
      have adds := @Manager.Tended.addStream _
        (synSentStream sockid socket.saddr daddr iss isDynBound) takes.tended ?_ ?_
      · exact binds.trans (takes.trans (adds.trans (enterConnectq_tends adds.tended entered)))
      · rintro found same
        cases same
        exact (congrArg Socket.socktype (setSocket_smap _)).trans kind
      · rintro (isListen | isRcvd)
        · cases isListen
        · cases isRcvd

theorem destroyAll_tends {queue pools pools'} (tended : m.Tended)
    (done : destroyAll network queue (pools, m) = .ok (pools', after)) : Tends m after := by
  refine destroyAll_preserves (fun _ gone => Tends m gone) ?_ tended.same done
  intro pools gone pointer pools' next tends destroyed
  obtain ⟨stream, -, rfl, -⟩ := destroyTCPStream_cases destroyed
  exact tends.trans tends.tended.drop

section Handshake

variable {flow : Flow} {segment : Segment} {iss : UInt32}

theorem Manager.Tended.search (tended : m.Tended) (port : UInt16) :
    (∃ found listener, m.listenerHTSearch port = .ok (some found) ∧ m.portOf found = .ok port ∧
        m.listener found = .ok listener) ∨
      m.listenerHTSearch port = .ok none ∧ ∀ found, m.portOf found ≠ .ok port := by
  rcases tended.indexes.search port with ⟨found, isFound, has⟩ | absent
  · obtain ⟨listener, held, -⟩ := portOf_ok.mp has
    refine .inl ⟨found, listener, isFound, has, ?_⟩
    rw [Manager.listener, held]
  · exact .inr absent

variable {stream : Stream}

theorem handleListen_tends (tended : m.Tended) (held : m.streams pointer = some stream)
    (waits : stream.waits) : Tends m (m.handleListen pointer stream segment) := by
  rw [Manager.handleListen]
  split
  · exact tended.setStream fun _ => tended.awaited pointer stream held waits
  · exact tended.same

theorem handleSynRcvd_tends (tended : m.Tended)
    (done : m.handleSynRcvd pointer stream segment = .ok after) : Tends m after := by
  rw [Manager.handleSynRcvd] at done
  split at done
  · cases done
    exact tended.same
  · split at done
    · cases done
      exact tended.same
    · obtain ⟨search, -, done⟩ := bind_ok done
      split at done
      · cases done
      · obtain ⟨listener, isListener, done⟩ := bind_ok done
        split at done <;> cases done
        · have opens : Tends m (m.setStream pointer { stream with state := .established }) :=
            tended.setStream_open (by simp) (by simp)
          exact opens.trans (opens.tended.setListener (listener_ok isListener) rfl)
        · exact tended.setStream_open (by simp) (by simp)

theorem handleOpening_tends (tended : m.Tended)
    (crossing : segment.syn = true → segment.ack = false → segment.rst = false →
      ∀ stream, m.streams pointer = some stream → stream.state ≠ .synSent)
    (done : m.handleOpening pointer segment = .ok after) : Tends m after := by
  obtain ⟨stream, isStream, done⟩ := bind_ok done
  have held := stream_ok isStream
  split at done
  · next isListen =>
    cases done
    exact handleListen_tends tended held (.inl isListen)
  · next isSent =>
    split at done
    · next bare =>
      simp only [Bool.and_eq_true, Bool.not_eq_true'] at bare
      exact absurd isSent (crossing bare.1.1 bare.1.2 bare.2 stream held)
    · cases done
      exact tended.same
  · next isRcvd =>
    split at done
    · cases done
      exact tended.same
    · split at done
      · cases done
        exact handleListen_tends tended held (.inr isRcvd)
      · exact handleSynRcvd_tends tended done
  · cases done
    exact tended.same

theorem filterSYNPacket_heard {ip port} (tended : m.Tended)
    (wanted : m.filterSYNPacket network ip port = .ok true) : ∃ found, m.portOf found = .ok port := by
  rcases tended.search port with ⟨found, listener, -, has, -⟩ | ⟨search, -⟩
  · exact ⟨found, has⟩
  · rw [filterSYNPacket, search, ok_bind] at wanted
    cases wanted

section

variable (tended : m.Tended)
include tended

theorem filterSYNPacket_returns (ip : UInt32) (port : UInt16) :
    ∃ wanted, m.filterSYNPacket network ip port = .ok wanted := by
  rcases tended.search port with ⟨found, listener, search, -, isListener⟩ | ⟨search, -⟩
  · simp only [filterSYNPacket, search, ok_bind, isListener]
    split
    · exact ⟨_, rfl⟩
    · split <;> exact ⟨_, rfl⟩
  · rw [filterSYNPacket, search]
    exact ⟨_, rfl⟩

theorem opened_tends (wanted : m.filterSYNPacket network flow.saddr flow.sport = .ok true) :
    Tends m (m.allocated.addStream ⟨flow, .listen, iss, segment.seq, none, false, false⟩) := by
  have takes : Tends m m.allocated :=
    ⟨{ tended with }, fun _ _ has => has⟩
  obtain ⟨found, has⟩ := filterSYNPacket_heard tended wanted
  exact takes.trans (takes.tended.addStream nofun fun _ => ⟨found, takes.ports found _ has⟩)

theorem createNewFlowHTEntry_cases :
    m.createNewFlowHTEntry network flow segment iss = .ok (none, m) ∨
      m.filterSYNPacket network flow.saddr flow.sport = .ok true ∧
        m.createNewFlowHTEntry network flow segment iss = .ok (some m.nextStream,
          m.allocated.addStream ⟨flow, .listen, iss, segment.seq, none, false, false⟩) := by
  rw [createNewFlowHTEntry]
  split
  · obtain ⟨wanted, isWanted⟩ := @filterSYNPacket_returns network m tended flow.saddr flow.sport
    rw [isWanted, ok_bind]
    cases wanted with
    | false => exact .inl rfl
    | true =>
      rw [if_pos rfl]
      rcases createTCPStream_eq m none flow iss segment.seq true with ⟨-, made⟩ | ⟨-, made⟩
      · exact .inl (congrArg Except.ok made)
      · exact .inr ⟨rfl, congrArg Except.ok made⟩
  · exact .inl rfl

theorem processTCPPacket_tends (listed : m.flowView.Listed)
    (crossing : segment.syn = true → segment.ack = false → segment.rst = false →
      ∀ pointer stream, m.streams pointer = some stream → stream.flow = flow → stream.state ≠ .synSent)
    (done : m.processTCPPacket network flow segment iss = .ok after) : Tends m after := by
  obtain ⟨found, search, opening⟩ := bind_ok done
  cases found with
  | some pointer =>
    refine handleOpening_tends tended (fun syn ack rst stream held => ?_) opening
    refine crossing syn ack rst pointer stream held ?_
    rcases listed.search flow with ⟨other, found, isOther, isFound, isFlow⟩ | ⟨absent, -⟩
    · cases search.symm.trans isOther
      cases held.symm.trans isFound
      exact isFlow
    · cases search.symm.trans absent
  | none =>
    obtain ⟨⟨created, opened⟩, isCreated, handled⟩ := bind_ok opening
    rcases @createNewFlowHTEntry_cases network m flow segment iss tended with refused | ⟨wanted, made⟩
    · cases refused.symm.trans isCreated
      cases handled
      exact tended.same
    · cases made.symm.trans isCreated
      have opens := @opened_tends network m flow segment iss tended wanted
      refine opens.trans (handleOpening_tends opens.tended (fun _ _ _ stream held => ?_) handled)
      rw [addStream_streams] at held
      cases (update_self m.allocated.nextStream _ m.allocated.streams).symm.trans held
      exact nofun

theorem handleOpening_returns (held : m.streams pointer = some stream) :
    ∃ after, m.handleOpening pointer segment = .ok after := by
  have isStream : m.stream pointer = .ok stream := by rw [Manager.stream, held]
  rw [handleOpening, isStream, ok_bind]
  split
  · exact ⟨_, rfl⟩
  · split <;> exact ⟨_, rfl⟩
  · next isRcvd =>
    split
    · exact ⟨_, rfl⟩
    · split
      · exact ⟨_, rfl⟩
      · rw [Manager.handleSynRcvd]
        split
        · exact ⟨_, rfl⟩
        · split
          · exact ⟨_, rfl⟩
          · obtain ⟨heard, hears⟩ := tended.awaited pointer stream held (.inr isRcvd)
            rcases tended.search stream.flow.sport with
              ⟨found, listener, search, -, isListener⟩ | ⟨-, absent⟩
            · simp only [search, ok_bind, isListener]
              split <;> exact ⟨_, rfl⟩
            · exact absurd hears (absent heard)
  · exact ⟨_, rfl⟩

theorem processTCPPacket_returns (listed : m.flowView.Listed) :
    ∃ after, m.processTCPPacket network flow segment iss = .ok after := by
  rw [Manager.processTCPPacket]
  rcases listed.search flow with ⟨pointer, stream, search, held, -⟩ | ⟨search, -⟩
  · rw [search, ok_bind]
    exact @handleOpening_returns m pointer segment stream tended held
  · rw [search, ok_bind]
    rcases @createNewFlowHTEntry_cases network m flow segment iss tended with refused | ⟨wanted, made⟩
    · simp only [refused, ok_bind]
      exact ⟨m, rfl⟩
    · simp only [made, ok_bind]
      have opens := @opened_tends network m flow segment iss tended wanted
      exact @handleOpening_returns _ m.nextStream segment
        ⟨flow, .listen, iss, segment.seq, none, false, false⟩ opens.tended
        (by rw [addStream_streams]; exact update_self _ _ _)

end

theorem mtcpListen_unheard {backlog : Int} (tended : m.Tended)
    (inUse : m.inUse network number = some sockid)
    (kind : (m.smap sockid).socktype = .stream ∨ (m.smap sockid).socktype = .listener)
    (size : 0 < backlog ∧ backlog ≤ network.maxConcurrency)
    (unheard : ∀ pointer, m.portOf pointer ≠ .ok (m.smap sockid).saddr.sinPort) :
    ∃ after, m.mtcpListen network number backlog true true = .ok (.done 0, after) := by
  have socket : (m.turned sockid).smap sockid = { m.smap sockid with socktype := .listener } := by
    rw [turned]
    split
    · exact setSocket_smap _
    · next other => rw [← kind.resolve_left other]
  have absent : (m.turned sockid).listenerHTSearch (m.smap sockid).saddr.sinPort = .ok none := by
    rcases tended.turned.tended.search (m.smap sockid).saddr.sinPort with
      ⟨found, listener, -, has, -⟩ | ⟨search, -⟩
    · obtain ⟨held, isHeld, port⟩ := portOf_ok.mp has
      refine absurd (portOf_ok.mpr ⟨held, ?_, ?_⟩) (unheard found)
      · rw [turned] at isHeld
        split at isHeld <;> exact isHeld
      · rw [← port, turned]
        split
        · by_cases here : held.socket = sockid
          · rw [here, setSocket_smap]
          · rw [setSocket_smap_of_ne here]
        · rfl
    · exact search
  have fits : ¬(backlog ≤ 0 ∨ (network.maxConcurrency : Int) < backlog) := by omega
  rw [turned] at socket absent
  simp only [mtcpListen, inUse, socket, absent, ok_bind, if_neg fits]
  exact ⟨_, rfl⟩

end Handshake

end Calls

section Runs

variable {network : Network} {machine after : Machine} {cpu : Nat} {call : Call} {reply : Reply}

/-- No socket that has a listener is closed or gets another port, and no SYN comes to a stream that
has itself sent one. -/
def SparesListeners (network : Network) (machine : Machine) (cpu : Nat) : Call → Prop
  | .bind number addr => ∀ sockid pointer given, (machine.cores cpu).inUse network number = some sockid →
      ((machine.cores cpu).smap sockid).held = some (.listener pointer) → addr = some given →
      ((machine.cores cpu).smap sockid).addrBind = true ∨
        given.addr.sinPort = ((machine.cores cpu).smap sockid).saddr.sinPort
  | .close number => ∀ sockid pointer, (machine.cores cpu).inUse network number = some sockid →
      ((machine.cores cpu).smap sockid).held ≠ some (.listener pointer)
  | .packet flow segment _ => segment.syn = true → segment.ack = false → segment.rst = false →
      ∀ pointer stream, (machine.cores cpu).streams pointer = some stream → stream.flow = flow →
        stream.state ≠ .synSent
  | _ => True

def Manager.Listens (m : Manager) (pointer : Nat) (port : UInt16) : Prop :=
  ∃ listener, m.listenerAt pointer = some listener ∧ (m.smap listener.socket).socktype = .listener ∧
    (m.smap listener.socket).held = some (.listener pointer) ∧
    (m.smap listener.socket).saddr.sinPort = port

theorem Manager.Tended.listens {m : Manager} {pointer : Nat} {port : UInt16} (tended : m.Tended)
    (has : m.portOf pointer = .ok port) : m.Listens pointer port := by
  obtain ⟨listener, held, isPort⟩ := portOf_ok.mp has
  obtain ⟨kind, holds⟩ := tended.owned pointer listener held
  exact ⟨listener, held, kind, holds, isPort⟩

theorem step_tends_here (tended : (machine.cores cpu).Tended) (listed : (machine.views cpu).Listed)
    (spared : SparesListeners network machine cpu call)
    (done : machine.step network cpu call = .ok (reply, after)) :
    Tends (machine.cores cpu) (after.cores cpu) := by
  have onCore : ∀ {result}, machine.onCore cpu result = .ok (reply, after) →
      ∃ m, result = .ok (reply, m) ∧ after.cores cpu = m := by
    intro result done
    obtain ⟨m, isResult, rfl⟩ := onCore_ok done
    exact ⟨m, isResult, put_here⟩
  cases call with
  | socket inet isStream skips =>
    obtain ⟨m, result, rfl⟩ := onCore done
    exact mtcpSocket_tends tended result
  | setsockNonblock number =>
    obtain ⟨m, result, isAfter⟩ := onCore done
    rw [isAfter, ← show _ = m from congrArg Prod.snd (Except.ok.inj result)]
    exact mtcpSetsockNonblock_tends tended
  | bind number addr =>
    obtain ⟨m, result, isAfter⟩ := onCore done
    rw [isAfter, ← show _ = m from congrArg Prod.snd (Except.ok.inj result)]
    exact mtcpBind_tends tended spared
  | listen number backlog granted queueGranted =>
    obtain ⟨m, result, rfl⟩ := onCore done
    exact mtcpListen_tends tended result
  | accept number skips =>
    obtain ⟨m, result, rfl⟩ := onCore done
    exact mtcpAccept_tends tended result
  | connect number addr iss seen => exact mtcpConnect_tends tended done
  | close number =>
    obtain ⟨m, result, rfl⟩ := onCore done
    exact mtcpClose_tends tended spared result
  | initRss saddrBase numAddr daddr dport granted =>
    obtain ⟨own, cores⟩ := mtcpInitRss_cores done
    rw [cores, update_self]
    exact ⟨{ tended with }, fun _ _ has => has⟩
  | applicationCalls =>
    obtain ⟨handled, isHandled, same⟩ := map_ok done
    cases same
    obtain ⟨-, -, destroying⟩ := bind_ok isHandled
    obtain ⟨⟨pools, m⟩, destroyed, returned⟩ := bind_ok destroying
    cases returned
    rw [put_here]
    have emptied : Tends (machine.cores cpu) { machine.cores cpu with connectq := [], destroyq := [] } :=
      ⟨{ tended with }, fun _ _ has => has⟩
    exact emptied.trans (destroyAll_tends emptied.tended destroyed)
  | packet flow segment iss =>
    obtain ⟨m, result, rfl⟩ := onCore done
    obtain ⟨produced, processed, same⟩ := map_ok result
    cases same
    exact processTCPPacket_tends tended listed spared processed
  | advance pointer state =>
    obtain ⟨m, result, isAfter⟩ := onCore done
    obtain ⟨stream, -, same⟩ := map_ok result
    cases same
    rw [isAfter]
    have opened := state.property
    refine tended.setStream_open (fun isListen => ?_) fun isRcvd => ?_
    · rw [show state.val = .listen from isListen] at opened
      cases opened
    · rw [show state.val = .synRcvd from isRcvd] at opened
      cases opened
  | destroy pointer =>
    obtain ⟨⟨pools, m⟩, destroyed, same⟩ := map_ok done
    cases same
    rw [put_here]
    obtain ⟨stream, -, rfl, -⟩ := destroyTCPStream_cases destroyed
    exact tended.drop

structure Machine.Tended (machine : Machine) : Prop where
  listeners : ∀ core, (machine.cores core).Tended
  flows : ∀ core, (machine.views core).Listed

theorem start_tended (network : Network) : (Machine.start network).Tended := by
  refine ⟨fun core => ⟨List.nodup_range, fun _ _ => rfl, fun _ _ => rfl, nofun, ?_, nofun⟩,
    start_listed network⟩
  exact HashTable.indexes_empty nofun

theorem step_tends (tended : machine.Tended) (spared : SparesListeners network machine cpu call)
    (done : machine.step network cpu call = .ok (reply, after)) (core : Nat) :
    Tends (machine.cores core) (after.cores core) := by
  by_cases here : core = cpu
  · subst here
    exact step_tends_here (tended.listeners core) (tended.flows core) spared done
  · rw [step_elsewhere here done]
    exact (tended.listeners core).same

theorem run_tends {steps} (tended : machine.Tended)
    (spared : Along network (SparesListeners network) machine steps)
    (done : machine.run network steps = .ok after) :
    after.Tended ∧ ∀ core, Tends (machine.cores core) (after.cores core) := by
  induction steps generalizing machine with
  | nil =>
    cases done
    exact ⟨tended, fun core => (tended.listeners core).same⟩
  | cons first later ih =>
    obtain ⟨cpu, call⟩ := first
    obtain ⟨⟨reply, next⟩, taken, rest⟩ := bind_ok done
    have tends := step_tends tended spared.1 taken
    have tendedNext : next.Tended :=
      ⟨fun core => (tends core).tended, step_listed tended.flows taken⟩
    obtain ⟨tendedAfter, later⟩ := ih tendedNext (spared.2 reply next taken) rest
    exact ⟨tendedAfter, fun core => (tends core).trans (later core)⟩

theorem along_append {allowed first later} (along : Along network allowed machine (first ++ later))
    (done : machine.run network first = .ok after) :
    Along network allowed machine first ∧ Along network allowed after later := by
  induction first generalizing machine with
  | nil =>
    cases done
    exact ⟨trivial, along⟩
  | cons step rest ih =>
    obtain ⟨cpu, call⟩ := step
    obtain ⟨⟨reply, next⟩, taken, ran⟩ := bind_ok done
    refine ⟨⟨along.1, fun other found isFound => ?_⟩, (ih (along.2 reply next taken) ran).2⟩
    cases taken.symm.trans isFound
    exact (ih (along.2 reply next taken) ran).1

/-- In the table are just listeners of sockets that listen on their port; the handshake never misses
one; and a free port can be listened on. -/
theorem listener_table_sound {first later : List (Nat × Call)} {final : Machine}
    (spared : Along network (SparesListeners network) (Machine.start network) (first ++ later))
    (reached : (Machine.start network).run network first = .ok machine)
    (continued : machine.run network later = .ok final) (cpu : Nat) :
    (∀ bin pointer, pointer ∈ (machine.cores cpu).listeners bin → ∃ port, hashListener port = bin ∧
        (machine.cores cpu).Listens pointer port ∧ (final.cores cpu).Listens pointer port) ∧
      (∀ flow segment iss, ∃ after,
        (final.cores cpu).processTCPPacket network flow segment iss = .ok after) ∧
      ∀ number sockid backlog, (final.cores cpu).inUse network number = some sockid →
        ((final.cores cpu).smap sockid).socktype = .stream ∨
          ((final.cores cpu).smap sockid).socktype = .listener →
        0 < backlog ∧ backlog ≤ (network.maxConcurrency : Int) →
        (∀ pointer, ¬(final.cores cpu).Listens pointer ((final.cores cpu).smap sockid).saddr.sinPort) →
        ∃ listening, (final.cores cpu).mtcpListen network number backlog true true =
          .ok (.done 0, listening) := by
  obtain ⟨sparedFirst, sparedLater⟩ := along_append spared reached
  obtain ⟨tended, -⟩ := run_tends (start_tended network) sparedFirst reached
  obtain ⟨tendedFinal, tends⟩ := run_tends tended sparedLater continued
  have here := tendedFinal.listeners cpu
  refine ⟨fun bin pointer member => ?_, fun flow segment iss => ?_, ?_⟩
  · obtain ⟨port, has, isBin⟩ := ((tended.listeners cpu).indexes.mem_iff bin pointer).mp member
    exact ⟨port, isBin, (tended.listeners cpu).listens has,
      here.listens ((tends cpu).ports pointer port has)⟩
  · exact processTCPPacket_returns here (tendedFinal.flows cpu)
  · intro number sockid backlog inUse kind size unheard
    exact mtcpListen_unheard here inUse kind size fun pointer has => unheard pointer (here.listens has)

def synToPort : Call :=
  .packet ⟨htonl 0x0A000001, htonl 0x0A000002, htons 80, htons 5000⟩ ⟨true, false, false, 7, 0⟩ 3

def serves : List (Nat × Call) :=
  [(0, .socket true true 0), (0, .bind 0 (some ⟨true, true, ⟨inaddrAny, htons 80⟩⟩)),
    (0, .listen 0 1 true true)]

theorem listener_table_serves :
    ∃ machine final, (Machine.start oneInterface).run oneInterface serves = .ok machine ∧
      machine.run oneInterface [(0, synToPort)] = .ok final ∧
      ∃ port, hashListener port = hashListener (htons 80) ∧ (final.cores 0).Listens 0 port := by
  obtain ⟨machine, reached⟩ :
      ∃ machine, (Machine.start oneInterface).run oneInterface serves = .ok machine := ⟨_, rfl⟩
  obtain ⟨final, continued⟩ : ∃ final, machine.run oneInterface [(0, synToPort)] = .ok final := by
    cases reached
    exact ⟨_, rfl⟩
  have spared : Along oneInterface (SparesListeners oneInterface) (Machine.start oneInterface)
      (serves ++ [(0, synToPort)]) := by
    refine ⟨trivial, fun _ _ made => ?_⟩
    cases made
    refine ⟨fun _ _ _ inUse held => ?_, fun _ _ bound => ?_⟩
    · cases inUse
      cases held
    · cases bound
      refine ⟨trivial, fun _ _ listened => ?_⟩
      cases listened
      exact ⟨fun _ _ _ _ _ isStream => (nomatch isStream), fun _ _ _ => trivial⟩
  have sound := (listener_table_sound spared reached continued 0).1 (hashListener (htons 80)) 0 (by
    cases reached
    exact List.mem_singleton.mpr rfl)
  obtain ⟨port, isBin, -, listens⟩ := sound
  exact ⟨machine, final, reached, continued, port, isBin, listens⟩

theorem closed_listener_dangles :
    ∃ machine, (Machine.start oneInterface).run oneInterface (serves ++ [(0, .close 0)]) = .ok machine ∧
      (machine.cores 0).listeners (hashListener (htons 80)) = [0] ∧
      (machine.cores 0).listenerAt 0 = none ∧
      machine.run oneInterface [(0, synToPort)] = .error .dangling ∧
      machine.run oneInterface [(0, .socket true true 0),
        (0, .bind 1 (some ⟨true, true, ⟨inaddrAny, htons 80⟩⟩)), (0, .listen 1 1 true true)] =
          .error .dangling :=
  ⟨_, rfl, rfl, rfl, rfl, rfl⟩

end Runs

end Mcc.Core
