import Mcc.AddressReturn

/-!
What a failed call leaves behind. `mtcp_connect` takes an address, a stream, an entry of the flow
table and a place in a queue one after the other, and not every exit gives back what was taken before.
`mtcp_listen` turns the socket and `mtcp_accept` takes a stream before their last checks.
-/

namespace Mcc.Core

open TailQueue
open Function (update update_self update_of_ne)

section Shortage

def Mapped (pools : Pools) : Prop :=
  ∀ pool ap, pools pool = some ap → ap.Indexed

variable {network : Network} {pools pools' : Pools} {pool : Nat}

theorem Mapped.update {ap} (mapped : Mapped pools) (indexed : ap.Indexed) :
    Mapped (update pools pool (some ap)) := by
  intro other found isFound
  by_cases here : other = pool
  · subst here
    rw [update_self] at isFound
    exact Option.some.inj isFound ▸ indexed
  · rw [update_of_ne here] at isFound
    exact mapped other found isFound

theorem run_indexed {ap : AddrPool} {call : PoolCall} {result : PoolReturn} (indexed : ap.Indexed)
    (done : call.run ap = some (.ok result)) : result.ap.Indexed := by
  rcases PoolCall.run_cases done with ⟨-, same⟩ | ⟨walk, -, rfl⟩ | ⟨addr, walk, -, -, rfl⟩
  · exact same ▸ indexed
  · exact indexed
  · exact indexed

theorem callPool_mapped {called : Option Nat} {call : PoolCall} {ret : Int}
    {saddr : Option SockAddr} (mapped : Mapped pools)
    (done : callPool pools called call = .ok (ret, saddr, pools')) : Mapped pools' := by
  rcases callPool_cases done with ⟨-, -, -, rfl⟩ | ⟨pointer, ap, result, -, held, ran, -, -, rfl⟩
  · exact mapped
  · exact mapped.update (run_indexed (mapped pointer ap held) ran)

theorem destroyTCPStream_mapped {m gone pointer} (mapped : Mapped pools)
    (done : destroyTCPStream network m pools pointer = .ok (pools', gone)) : Mapped pools' := by
  obtain ⟨stream, -, -, ⟨-, rfl⟩ | ⟨-, called, ret, saddr, -, freed⟩⟩ := destroyTCPStream_cases done
  · exact mapped
  · exact callPool_mapped mapped freed

theorem withoutPool_mapped {machine : Machine} {cpu : Nat} (mapped : Mapped machine.pools) :
    Mapped (machine.withoutPool cpu) := by
  intro other found isFound
  rw [Machine.withoutPool] at isFound
  cases isOwn : (machine.cores cpu).ap with
  | none =>
    rw [isOwn] at isFound
    exact mapped other found isFound
  | some own =>
    simp only [isOwn] at isFound
    by_cases here : other = own
    · subst here
      rw [update_self] at isFound
      cases isFound
    · rw [update_of_ne here] at isFound
      exact mapped other found isFound

theorem step_mapped {machine after : Machine} {cpu : Nat} {call : Call} {reply : Reply}
    (mapped : Mapped machine.pools) (done : machine.step network cpu call = .ok (reply, after)) :
    Mapped after.pools := by
  cases step_taken done with
  | same | packet => exact mapped
  | connect connects =>
    rw [connects.after_eq]
    rcases bindAddress_cases connects.bound with ⟨-, -, -, -, rfl⟩ |
      ⟨-, -, pool, ap, result, -, held, ran, -, -, rfl⟩
    · exact mapped
    · exact mapped.update (run_indexed (mapped pool ap held) ran)
  | destroy _ destroyed =>
    exact destroyAll_preserves (fun pools _ => Mapped pools) destroyTCPStream_mapped mapped destroyed
  | initRss initialised =>
    rcases mtcpInitRss_cases initialised with rfl | ⟨ap, created, rfl⟩
    · exact withoutPool_mapped mapped
    · exact (withoutPool_mapped mapped).update created.session_sound.indexed

theorem run_mapped {machine : Machine} {steps : List (Nat × Call)}
    (done : (Machine.start network).run network steps = .ok machine) : Mapped machine.pools := by
  have start : Mapped (Machine.start network).pools := by
    obtain ⟨handedOut, holding⟩ := start_orderly network
    intro pool ap held
    exact (holding.sound held).indexed
  exact @run_keeps network (fun machine => Mapped machine.pools) _ _ _ step_mapped start done

def Lacks (pool : Nat) (full short : Pools) : Prop :=
  ∃ ap less : AddrPool, full pool = some ap ∧ short pool = some less ∧ ap.mapper.isSome ∧
    less.mapper = ap.mapper ∧ less.addrBase = ap.addrBase ∧ less.numAddr = ap.numAddr ∧
    ap.numFree = less.numFree + 1

theorem Lacks.ne {full short} (lacks : Lacks pool full short) : short ≠ full := by
  rintro rfl
  obtain ⟨ap, less, isAp, isLess, -, -, -, -, count⟩ := lacks
  cases isAp.symm.trans isLess
  omega

theorem lookup_congr {ap less : AddrPool} (mapped : ap.mapper.isSome)
    (mapper : less.mapper = ap.mapper) (base : less.addrBase = ap.addrBase)
    (count : less.numAddr = ap.numAddr) (addr : SockAddr) : less.lookup addr = ap.lookup addr := by
  obtain ⟨map, isMap⟩ := Option.isSome_iff_exists.mp mapped
  simp only [AddrPool.lookup, mapper, isMap, base, count]

theorem Lacks.elsewhere {full short other ap less}
    (lacks : Lacks pool full short) (apart : pool ≠ other) :
    Lacks pool (update full other (some ap)) (update short other (some less)) := by
  obtain ⟨here, lessHere, isHere, isLess, rest⟩ := lacks
  refine ⟨here, lessHere, ?_, ?_, rest⟩
  · rw [update_of_ne apart, isHere]
  · rw [update_of_ne apart, isLess]

theorem Lacks.freed {full short full' short' : Pools} {called : Option Nat} {addr : SockAddr}
    {ret ret' : Int} {saddr saddr' : Option SockAddr} (lacks : Lacks pool full short)
    (done : callPool full called (.freeAddress (some addr)) = .ok (ret, saddr, full'))
    (doneShort : callPool short called (.freeAddress (some addr)) = .ok (ret', saddr', short')) :
    Lacks pool full' short' := by
  rcases callPool_cases done with ⟨rfl, -, -, rfl⟩ | ⟨pointer, ap, result, rfl, held, ran, -, -, rfl⟩
  · cases doneShort
    exact lacks
  · rcases callPool_cases doneShort with ⟨absent, -⟩ |
      ⟨other, less, resultLess, same, heldLess, ranLess, -, -, rfl⟩
    · cases absent
    · cases same
      by_cases apart : pool = pointer
      · subst apart
        obtain ⟨here, lessHere, isHere, isLess, mapped, mapper, base, numAddr, count⟩ := lacks
        cases held.symm.trans isHere
        cases heldLess.symm.trans isLess
        refine ⟨result.ap, resultLess.ap, update_self _ _ _, update_self _ _ _, ?_⟩
        simp only [PoolCall.run, freeAddress, lookup_congr mapped mapper base numAddr] at ran ranLess
        -- the entry that the map gives decides in both states
        cases found : ap.lookup addr with
        | none =>
          rw [found] at ran
          cases ran
        | some entry =>
          rw [found] at ran ranLess
          cases entry with
          | none =>
            cases ran
            cases ranLess
            exact ⟨mapped, mapper, base, numAddr, count⟩
          | some walk =>
            cases ran
            cases ranLess
            refine ⟨mapped, mapper, base, numAddr, ?_⟩
            simp only [AddrPool.takeBack]
            omega
      · exact lacks.elsewhere apart

theorem Lacks.destroyAll {full short full' short' m other gone otherGone queue}
    (lacks : Lacks pool full short) (streams : other.streams = m.streams)
    (isAp : other.ap = m.ap) (done : destroyAll network queue (full, m) = .ok (full', gone))
    (doneShort : destroyAll network queue (short, other) = .ok (short', otherGone)) :
    Lacks pool full' short' := by
  induction queue generalizing full short m other with
  | nil =>
    cases done
    cases doneShort
    exact lacks
  | cons pointer later ih =>
    obtain ⟨⟨freed, next⟩, isNext, rest⟩ := bind_ok done
    obtain ⟨⟨freedShort, nextShort⟩, isNextShort, restShort⟩ := bind_ok doneShort
    obtain ⟨stream, isStream, rfl, address⟩ := destroyTCPStream_cases isNext
    obtain ⟨found, isFound, rfl, addressShort⟩ := destroyTCPStream_cases isNextShort
    rw [streams] at isFound
    cases isStream.symm.trans isFound
    rw [isAp] at addressShort
    have apLater : (other.drop pointer stream).ap = (m.drop pointer stream).ap := isAp
    refine ih ?_ ?_ apLater rest restShort
    · rcases address with ⟨notBound, rfl⟩ | ⟨isBound, called, ret, saddr, isCalled, freed⟩
      · rcases addressShort with ⟨-, rfl⟩ | ⟨isBound, -⟩
        · exact lacks
        · cases notBound.symm.trans isBound
      · rcases addressShort with ⟨notBound, -⟩ | ⟨-, calledShort, _, _, isShort, freedToo⟩
        · cases notBound.symm.trans isBound
        · cases isCalled.symm.trans isShort
          exact lacks.freed freed freedToo
    · simp only [Manager.drop, streams]

end Shortage

section Atomicity

variable (network : Network)

def Manager.socketAt (m : Manager) (number : Int) : Option Socket :=
  if number < 0 ∨ (network.maxConcurrency : Int) ≤ number then none else some (m.smap number.toNat)

def Offers (machine : Machine) (cpu : Nat) (saddr daddr : SockAddr) : Prop :=
  ∃ pool ap entry, sourcePool network (machine.cores cpu).ap daddr.sAddr = .ok (some pool) ∧
    machine.pools pool = some ap ∧ ap.links.Leads (.first .freeList) entry ∧
    ((machine.cores cpu).ap = none → ap.suits (Int32.ofNat cpu) network.numQueues
      network.endianCheck daddr saddr entry = .ok true)

structure TakesNothing (machine : Machine) (cpu : Nat) (number : Int) (addr : Option Address) :
    Prop where
  noStream : ∀ socket pointer, (machine.cores cpu).socketAt network number = some socket →
    socket.held ≠ some (.stream pointer)
  refused : ∀ sockid daddr, (machine.cores cpu).inUse network number = some sockid →
    ((machine.cores cpu).smap sockid).socktype = .stream → addr = some ⟨true, true, daddr⟩ →
    if ((machine.cores cpu).smap sockid).bound then
      boundRSSCore ((machine.cores cpu).smap sockid).saddr daddr network.numQueues
          network.endianCheck ≠ .ok (Int32.ofNat cpu) ∨
        ¬(machine.cores cpu).hasMemory
    else ¬Offers network machine cpu ((machine.cores cpu).smap sockid).saddr daddr

structure Restored (cpu : Nat) (number : Int) (quiet settled : Machine) : Prop where
  pools : settled.pools = quiet.pools
  tcpFlowTable : (settled.cores cpu).tcpFlowTable = (quiet.cores cpu).tcpFlowTable
  flowCnt : (settled.cores cpu).flowCnt = (quiet.cores cpu).flowCnt
  flowPool : (settled.cores cpu).flowPool = (quiet.cores cpu).flowPool
  rvPool : (settled.cores cpu).rvPool = (quiet.cores cpu).rvPool
  svPool : (settled.cores cpu).svPool = (quiet.cores cpu).svPool
  noStream : ∀ socket pointer, (settled.cores cpu).socketAt network number = some socket →
    socket.held ≠ some (.stream pointer)
  notBound : ∀ socket before, (settled.cores cpu).socketAt network number = some socket →
    (quiet.cores cpu).socketAt network number = some before → socket.addrBind = true →
    before.addrBind = true
  again : ∀ addr, checkConnect network (settled.cores cpu) number addr =
    checkConnect network (quiet.cores cpu) number addr

def Atomic (cpu : Nat) (number : Int) (quiet after : Machine) : Prop :=
  ∃ settled, handleApplicationCalls network after cpu = .ok settled ∧
    Restored network cpu number quiet settled

variable {network} {machine after quiet : Machine} {cpu : Nat} {number : Int} {sockid : Nat}

theorem socketAt_of {m n : Manager} (inUse : m.inUse network number = some sockid) :
    n.socketAt network number = some (n.smap sockid) := by
  obtain ⟨rfl, inside, -⟩ := inUse_eq_some.mp inUse
  rw [Manager.socketAt, if_neg (by omega), Int.toNat_natCast]

theorem fetch_offers {own ap daddr saddr result}
    (ran : (sourceCall network own cpu daddr saddr).run ap = some (.ok result)) :
    (0 ≤ result.ret → result.ap.numFree = ap.numFree - 1 ∧ result.ap.mapper = ap.mapper ∧
        result.ap.addrBase = ap.addrBase ∧ result.ap.numAddr = ap.numAddr ∧
        ∃ entry, ap.links.Leads (.first .freeList) entry ∧
          (own = none → ap.suits (Int32.ofNat cpu) network.numQueues network.endianCheck daddr saddr
            entry = .ok true)) ∧
      (result.ret < 0 → ∀ entry, ap.links.Leads (.first .freeList) entry → own = none ∧
        ap.suits (Int32.ofNat cpu) network.numQueues network.endianCheck daddr saddr entry =
          .ok false) := by
  cases own with
  | some pool =>
    simp only [sourceCall, PoolCall.run, fetchAddressPerCore] at ran
    split at ran
    · next empty =>
      cases ran
      refine ⟨fun success => absurd (show (0 : Int) ≤ -1 from success) (by decide),
        fun _ entry leads => ?_⟩
      cases leads with
      | here start => cases empty.symm.trans start
      | later start _ => cases empty.symm.trans start
    · next walk start =>
      cases ran
      exact ⟨fun _ => ⟨rfl, rfl, rfl, rfl, walk, .here start, by simp⟩,
        fun failed => absurd (show (0 : Int) < 0 from failed) (by decide)⟩
  | none =>
    simp only [sourceCall, PoolCall.run, fetchAddress] at ran
    split at ran
    · cases ran
    · cases ran
    · next searched =>
      cases ran
      exact ⟨fun success => absurd (show (0 : Int) ≤ -1 from success) (by decide),
        fun _ entry leads => ⟨rfl, find_refused searched leads⟩⟩
    · next walk searched =>
      cases ran
      exact ⟨fun _ => ⟨rfl, rfl, rfl, rfl, walk, find_leads searched, fun _ => find_wanted searched⟩,
        fun failed => absurd (show (0 : Int) < 0 from failed) (by decide)⟩

theorem bindAddress_refused {daddr errno socket}
    (done : bindAddress network (machine.cores cpu) cpu machine.pools socket daddr = .ok (.error errno)) :
    socket.bound = true ∧ boundRSSCore socket.saddr daddr network.numQueues network.endianCheck ≠
        .ok (Int32.ofNat cpu) ∨
      socket.bound = false ∧ ¬Offers network machine cpu socket.saddr daddr := by
  rw [bindAddress] at done
  split at done
  · next isBound =>
    split at done
    · cases done
    · next core isCore =>
      split at done
      · next elsewhere =>
        refine .inl ⟨isBound, fun here => elsewhere ?_⟩
        exact Except.ok.inj (isCore.symm.trans here)
      · cases done
  · next isBound =>
    refine .inr ⟨Bool.eq_false_iff.mpr isBound, fun offers => ?_⟩
    obtain ⟨pool, ap, entry, source, held, leads, suits⟩ := offers
    split at done
    · next unrouted =>
      rcases sourcePool_some.mp source with own | ⟨-, route, -⟩
      · cases own.symm.trans unrouted.1
      · omega
    · obtain ⟨found, isFound, called⟩ := bind_ok done
      obtain ⟨⟨ret, saddr, fetched⟩, isFetched, checked⟩ := bind_ok called
      cases source.symm.trans isFound
      dsimp only at checked
      split at checked
      · next failed =>
        rcases callPool_cases isFetched with
          ⟨absent, -⟩ | ⟨pointer, ap, result, same, isAp, ran, rfl, -, -⟩
        · cases absent
        · cases same
          cases held.symm.trans isAp
          obtain ⟨isNone, refused⟩ := (fetch_offers ran).2 failed entry leads
          cases (suits isNone).symm.trans refused
      · cases checked

theorem handleApplicationCalls_ok
    (drained : handleApplicationCalls network machine cpu = .ok after) :
    (after.cores cpu).smap = (machine.cores cpu).smap ∧ ∃ m,
      destroyAll network (machine.cores cpu).destroyq (machine.pools,
        { machine.cores cpu with connectq := [], destroyq := [] }) = .ok (after.pools, m) := by
  obtain ⟨-, -, draining⟩ := bind_ok drained
  obtain ⟨⟨pools, m⟩, destroyed, returned⟩ := bind_ok draining
  cases returned
  refine ⟨?_, m, destroyed⟩
  rw [put_here]
  refine destroyAll_preserves (fun _ gone => gone.smap = (machine.cores cpu).smap) ?_ ?_ destroyed
  · intro pools gone pointer pools' next same done
    obtain ⟨stream, -, rfl, -⟩ := destroyTCPStream_cases done
    exact same
  · rfl

theorem enterConnectq_held {m queued pointer nonblock seen reply}
    (done : enterConnectq network m pointer nonblock seen = .ok (reply, queued)) :
    queued.smap = m.smap := by
  rw [enterConnectq] at done
  split at done
  · cases done
    rfl
  · dsimp only at done
    split at done
    · cases done
      rfl
    · split at done
      · cases done
      · obtain ⟨stream, -, returned⟩ := bind_ok done
        cases returned
        rfl

section

variable {addr : Option Address} {daddr : SockAddr} {socket : Socket} {isDynBound : Bool}
  {pools : Pools}
  (checked : checkConnect network (machine.cores cpu) number addr = .ok (.ok (sockid, daddr)))
  (bound : bindAddress network (machine.cores cpu) cpu machine.pools
    ((machine.cores cpu).smap sockid) daddr = .ok (.ok (socket, isDynBound, pools)))
include checked bound

theorem TakesNothing.noMemory (nothing : TakesNothing network machine cpu number addr) :
    ¬(machine.cores cpu).hasMemory ∧ socket = (machine.cores cpu).smap sockid ∧
      pools = machine.pools := by
  obtain ⟨inUse, isStream, isAddr, -⟩ := checkConnect_ok.mp checked
  have refused := nothing.refused sockid daddr inUse isStream isAddr
  rcases bindAddress_cases bound with ⟨isBound, here, rfl, -, rfl⟩ |
    ⟨notBound, -, pool, ap, result, source, held, ran, success, -, -⟩
  · rw [if_pos isBound] at refused
    exact ⟨refused.resolve_left fun elsewhere => elsewhere here, rfl, rfl⟩
  · rw [if_neg (by simp [notBound])] at refused
    obtain ⟨-, -, -, -, entry, leads, suits⟩ := (fetch_offers ran).1 success
    exact absurd ⟨pool, ap, entry, source, held, leads, suits⟩ refused

/-- Every exit after the stream was made leaves it at its socket, that without its locks too. -/
theorem mtcpConnect_held {iss seen locks reply} (memory : (machine.cores cpu).hasMemory)
    (done : mtcpConnect network machine cpu number addr iss seen locks = .ok (reply, after)) :
    ((after.cores cpu).smap sockid).held = some (.stream (machine.cores cpu).nextStream) := by
  cases locks with
  | true =>
    rw [mtcpConnect_enters iss seen checked bound memory] at done
    obtain ⟨⟨reply, queued⟩, entered, same⟩ := map_ok done
    cases same
    rw [put_here, enterConnectq_held entered]
    simp [Manager.submitted, Manager.addStream, synSentStream, Manager.setSocket, Manager.allocated]
  | false =>
    rcases createTCPStream_eq ((machine.cores cpu).setSocket sockid socket) (some sockid)
      ⟨socket.saddr.sAddr, daddr.sAddr, socket.saddr.sinPort, daddr.sinPort⟩ iss 0 false with
      ⟨refused, -⟩ | ⟨-, made⟩
    · exact absurd memory refused
    · simp only [mtcpConnect, checked, bound, ok_bind, made] at done
      cases done
      rw [put_here]
      simp [Manager.addStream, Manager.setSocket, Manager.allocated]

end

theorem TakesNothing.unchanged {addr iss seen locks reply}
    (nothing : TakesNothing network machine cpu number addr)
    (done : mtcpConnect network machine cpu number addr iss seen locks = .ok (reply, after)) :
    after = machine := by
  rcases mtcpConnect_cases done with ⟨same, -⟩ |
    ⟨sockid, daddr, socket, isDynBound, pools, checked, bound, exit⟩
  · exact same
  · obtain ⟨noMemory, rfl, rfl⟩ := TakesNothing.noMemory checked bound nothing
    rcases exit with ⟨-, -, rfl⟩ | ⟨memory, -⟩
    · simp [Machine.put, Manager.setSocket]
    · exact absurd memory noMemory

theorem leaked_address {pool ap less socket settled}
    (mapped : Mapped machine.pools) (held : machine.pools pool = some ap)
    (count : less.numFree = ap.numFree - 1) (mapper : less.mapper = ap.mapper)
    (base : less.addrBase = ap.addrBase) (numAddr : less.numAddr = ap.numAddr)
    (drained : handleApplicationCalls network machine cpu = .ok quiet)
    (drainedAfter : handleApplicationCalls network (machine.put cpu
      (update machine.pools pool (some less))
      ((machine.cores cpu).setSocket sockid socket)) cpu = .ok settled) :
    settled.pools ≠ quiet.pools := by
  obtain ⟨-, m, destroyed⟩ := handleApplicationCalls_ok drained
  obtain ⟨-, other, destroyedAfter⟩ := handleApplicationCalls_ok drainedAfter
  rw [put_here] at destroyedAfter
  have isMapped : ap.mapper.isSome := by
    obtain ⟨map, isMap, -⟩ := mapped pool ap held
    rw [isMap]
    rfl
  have lacks : Lacks pool machine.pools (update machine.pools pool (some less)) :=
    ⟨ap, less, held, update_self _ _ _, isMapped, mapper, base, numAddr, by omega⟩
  refine (lacks.destroyAll ?_ ?_ destroyed destroyedAfter).ne
  · rfl
  · rfl

theorem not_atomic {pointer}
    (isSocket : ∀ m : Manager, m.socketAt network number = some (m.smap sockid))
    (held : ((after.cores cpu).smap sockid).held = some (.stream pointer)) :
    ¬Atomic network cpu number quiet after := by
  rintro ⟨settled, isSettled, restored⟩
  obtain ⟨smap, -⟩ := handleApplicationCalls_ok isSettled
  exact restored.noStream _ pointer (isSocket _) (smap ▸ held)

theorem failed_connect_atomic_iff {calls : List (Nat × Call)} {addr : Option Address} {iss : UInt32}
    {seen : List TcpState} {locks : Bool} {errno : Errno}
    (reached : (Machine.start network).run network calls = .ok machine)
    (drained : handleApplicationCalls network machine cpu = .ok quiet)
    (failed : mtcpConnect network machine cpu number addr iss seen locks =
      .ok (.failed (some errno), after)) :
    Atomic network cpu number quiet after ↔ TakesNothing network machine cpu number addr := by
  obtain ⟨smapQuiet, -⟩ := handleApplicationCalls_ok drained
  constructor
  · intro atomic
    obtain ⟨settled, isSettled, restored⟩ := id atomic
    obtain ⟨smapSettled, -⟩ := handleApplicationCalls_ok isSettled
    have noStream : ∀ socket pointer, (machine.cores cpu).socketAt network number = some socket →
        socket.held ≠ some (.stream pointer) := by
      intro socket pointer isSocket held
      rcases mtcpConnect_cases failed with ⟨rfl, -⟩ | ⟨sockid, daddr, _, _, _, checked, -⟩
      · refine restored.noStream socket pointer ?_ held
        rw [← isSocket, Manager.socketAt, Manager.socketAt, smapSettled]
      · obtain ⟨inUse, -, -, empty⟩ := checkConnect_ok.mp checked
        cases isSocket.symm.trans (socketAt_of inUse)
        cases held.symm.trans empty
    refine ⟨noStream, fun sockid daddr inUse isStream isAddr => ?_⟩
    obtain ⟨checked, isChecked, binding⟩ := bind_ok failed
    have accepted : checkConnect network (machine.cores cpu) number addr = .ok (.ok (sockid, daddr)) := by
      cases held : ((machine.cores cpu).smap sockid).held with
      | none => exact checkConnect_ok.mpr ⟨inUse, isStream, isAddr, held⟩
      | some object =>
        cases object with
        | stream pointer => exact absurd held (noStream _ pointer (socketAt_of inUse))
        | listener pointer => simp [checkConnect, inUse, isStream, isAddr, held] at isChecked
    cases accepted.symm.trans isChecked
    obtain ⟨bound, isBound, -⟩ := bind_ok binding
    cases bound with
    | error refusal =>
      rcases bindAddress_refused isBound with ⟨bound, elsewhere⟩ | ⟨unbound, offerless⟩
      · rw [if_pos bound]
        exact .inl elsewhere
      · rwa [if_neg (by simp [unbound])]
    | ok bound =>
      obtain ⟨socket, isDynBound, pools⟩ := bound
      by_cases memory : (machine.cores cpu).hasMemory
      · exact absurd atomic (not_atomic (fun _ => socketAt_of inUse)
          (mtcpConnect_held isChecked isBound memory failed))
      · rw [mtcpConnect_enomem iss seen isChecked isBound locks memory] at failed
        cases failed
        rcases bindAddress_cases isBound with ⟨bound, -⟩ |
          ⟨-, -, pool, ap, result, -, held, ran, success, -, rfl⟩
        · rw [if_pos bound]
          exact .inr memory
        · obtain ⟨count, mapper, base, numAddr, -⟩ := (fetch_offers ran).1 success
          exact absurd restored.pools (leaked_address (run_mapped reached) held count mapper base
            numAddr drained isSettled)
  · intro nothing
    cases nothing.unchanged failed
    refine ⟨quiet, drained, rfl, rfl, rfl, rfl, rfl, rfl, ?_, ?_, fun _ => rfl⟩
    · intro socket pointer isSocket
      refine nothing.noStream socket pointer ?_
      rw [← isSocket, Manager.socketAt, Manager.socketAt, smapQuiet]
    · intro socket before isSocket isBefore marked
      cases isSocket.symm.trans isBefore
      exact marked

def twoQueues : Network :=
  { oneSubnet with numQueues := 2, maxConcurrency := 2, hasQueues := by decide, hasSockets := Nat.two_pos }

def remote : Option Address := some ⟨true, true, ⟨htonl 0xC0A80001, htons 80⟩⟩

def ownPort (port : UInt16) : Option Address := some ⟨true, true, ⟨htonl 0x0A000001, htons port⟩⟩

/-- One socket has its stream, the other is bound to a port whose packets come to the other core. -/
def wrongCore : List (Nat × Call) :=
  [(0, .socket true true 0), (0, .setsockNonblock 0), (0, .bind 0 (ownPort 1025)),
    (0, .connect 0 remote 0 []), (0, .socket true true 0), (0, .bind 1 (ownPort 1026))]

theorem failed_connect_wrong_core :
    ∃ machine quiet, (Machine.start twoQueues).run twoQueues wrongCore = .ok machine ∧
      handleApplicationCalls twoQueues machine 0 = .ok quiet ∧ (machine.cores 0).flowCnt = 1 ∧
      mtcpConnect twoQueues machine 0 1 remote 0 [] true = .ok (.failed (some .einval), machine) ∧
      Atomic twoQueues 0 1 quiet machine := by
  obtain ⟨machine, quiet, reached, drained, count, refused, socket⟩ :
      ∃ machine quiet, (Machine.start twoQueues).run twoQueues wrongCore = .ok machine ∧
        handleApplicationCalls twoQueues machine 0 = .ok quiet ∧ (machine.cores 0).flowCnt = 1 ∧
        mtcpConnect twoQueues machine 0 1 remote 0 [] true = .ok (.failed (some .einval), machine) ∧
        (machine.cores 0).smap 1 = ⟨.stream, true, false, ⟨htonl 0x0A000001, htons 1026⟩, none⟩ :=
    ⟨_, _, rfl, rfl, rfl, rfl, rfl⟩
  refine ⟨machine, quiet, reached, drained, count, refused,
    (failed_connect_atomic_iff reached drained refused).mpr ⟨?_, ?_⟩⟩
  · intro found pointer isFound held
    cases socket.symm.trans (Option.some.inj isFound)
    cases held
  · intro sockid daddr inUse _ isAddr
    obtain rfl : sockid = 1 := by
      have same := (inUse_eq_some.mp inUse).1
      omega
    simp only [remote, Option.some.injEq, Address.mk.injEq] at isAddr
    rw [socket, ← isAddr.2.2]
    exact .inl (by decide +kernel)

/-- A blocking `mtcp_connect` that meets a close by the peer fails and leaves its stream in the
table. -/
theorem connect_keeps_stream :
    ∃ machine after quiet, (Machine.start oneSubnet).run oneSubnet [(0, .socket true true 0),
        (0, .bind 0 (ownPort 1025))] = .ok machine ∧
      handleApplicationCalls oneSubnet machine 0 = .ok quiet ∧
      mtcpConnect oneSubnet machine 0 0 remote 0 [.synSent, .closeWait] true =
        .ok (.failed (some .enosys), after) ∧
      ¬Atomic oneSubnet 0 0 quiet after := by
  exact ⟨_, _, _, rfl, rfl, rfl, @not_atomic oneSubnet _ _ 0 0 0 0 (fun _ => rfl) rfl⟩

end Atomicity

section ListenAccept

def Manager.KeepsWaiting (m after : Manager) : Prop :=
  ∀ pointer listener, m.listenerAt pointer = some listener → ∀ stream ∈ listener.acceptq,
    (∃ same, after.listenerAt pointer = some same ∧ stream ∈ same.acceptq) ∨ after.streams stream = none

variable {network : Network} {m : Manager} {number : Int} {pointer accepted : Nat}
  {listener : Listener} {rest : List Nat} {stream : Stream}

theorem turned_same_iff {sockid} :
    ((m.turned sockid).smap = m.smap ∧ (m.turned sockid).listenerAt = m.listenerAt ∧
      (m.turned sockid).listeners = m.listeners) ↔ (m.smap sockid).socktype ≠ .stream := by
  rw [Manager.turned]
  split
  · next isStream =>
    refine ⟨fun kept => ?_, fun other => absurd isStream other⟩
    have same := congrFun kept.1 sockid
    rw [setSocket_smap] at same
    rw [← same]
    simp
  · next other => exact ⟨fun _ => other, fun _ => ⟨rfl, rfl, rfl⟩⟩

theorem dequeued_keepsWaiting_iff (held : m.listenerAt pointer = some listener)
    (queue : listener.acceptq = accepted :: rest) (isStream : m.streams accepted = some stream) :
    m.KeepsWaiting (m.dequeued pointer listener) ↔ accepted ∈ rest := by
  have here : (m.dequeued pointer listener).listenerAt pointer =
      some { listener with acceptq := rest } := by
    rw [Manager.dequeued, queue]
    exact update_self _ _ _
  constructor
  · intro keeps
    rcases keeps pointer listener held accepted (queue ▸ List.mem_cons_self) with
      ⟨same, isSame, member⟩ | gone
    · cases here.symm.trans isSame
      exact member
    · cases isStream.symm.trans gone
  · intro again other found isFound waiting member
    refine .inl ?_
    by_cases isHere : other = pointer
    · subst isHere
      cases held.symm.trans isFound
      refine ⟨_, here, ?_⟩
      rw [queue] at member
      rcases List.mem_cons.mp member with rfl | later
      · exact again
      · exact later
    · exact ⟨found, (update_of_ne isHere _ _).trans isFound, member⟩

theorem failed_calls_lose_nothing_iff (network : Network) (m : Manager) (number backlog : Int)
    (granted queueGranted : Bool) (skips : Nat) :
    (∀ errno after,
      m.mtcpListen network number backlog granted queueGranted = .ok (.failed errno, after) →
      ((after.smap = m.smap ∧ after.listenerAt = m.listenerAt ∧ after.listeners = m.listeners) ↔
        ∀ sockid, m.inUse network number = some sockid → (m.smap sockid).socktype ≠ .stream)) ∧
    (∀ errno after, m.mtcpAccept network number skips = .ok (.failed errno, after) →
      (m.KeepsWaiting after ↔ ∀ pointer listener accepted rest,
        m.acceptor network number = some (pointer, listener) →
        listener.acceptq = accepted :: rest → accepted ∈ rest)) := by
  constructor
  · intro errno after failed
    rcases mtcpListen_cases failed with ⟨unused, rfl⟩ | ⟨sockid, inUse, rfl | ⟨done, -⟩⟩
    · simp [unused]
    · simp only [turned_same_iff, inUse, Option.some.injEq, forall_eq']
    · cases done
  · intro errno after failed
    rcases mtcpAccept_cases failed with ⟨rfl, empty⟩ |
      ⟨pointer, listener, accepted, rest, stream, found, held, queue, isStream, rfl | ⟨_, _, done, -⟩⟩
    · refine ⟨fun _ pointer listener accepted rest found queue => ?_,
        fun _ pointer listener held stream member => .inl ⟨listener, held, member⟩⟩
      cases (empty pointer listener found).symm.trans queue
    · rw [dequeued_keepsWaiting_iff held queue isStream]
      constructor
      · intro again other same first others isFound isQueue
        cases found.symm.trans isFound
        cases queue.symm.trans isQueue
        exact again
      · exact fun again => again pointer listener accepted rest found queue
    · cases done

def oneListener (socktype : EventPoll.SocketType) (acceptq : List Nat) : Manager :=
  { Manager.start oneSubnet with
    smap := fun _ => { Socket.empty with
      socktype, nonblock := true, held := some (.listener 0) }
    freeSmap := []
    listenerAt := fun _ => some ⟨0, 1, acceptq⟩
    streams := fun _ => some ⟨⟨0, 0, 0, 0⟩, .established, 0, 0, none, false, false⟩ }

theorem failed_calls_empty_queue : (oneListener .listener []).mtcpListen oneSubnet 0 0 true true =
        .ok (.failed (some .einval), oneListener .listener []) ∧
      (oneListener .listener []).mtcpAccept oneSubnet 0 0 =
        .ok (.failed (some .eagain), oneListener .listener []) ∧
      (oneListener .listener []).KeepsWaiting (oneListener .listener []) := by
  refine ⟨rfl, rfl, ((failed_calls_lose_nothing_iff oneSubnet (oneListener .listener []) 0 0 true
    true 0).2 (some .eagain) _ rfl).mpr ?_⟩
  intro pointer listener accepted rest found queue
  cases found
  cases queue

/-- A backlog of zero leaves the socket a listening one, and without a free socket the stream that
`mtcp_accept` took is lost. -/
theorem failed_calls_lose_stream : (∃ after, (oneListener .stream []).mtcpListen oneSubnet 0 0 true true =
        .ok (.failed (some .einval), after) ∧ (after.smap 0).socktype = .listener ∧
        ((oneListener .stream []).smap 0).socktype = .stream) ∧
      ∃ after, (oneListener .listener [5]).mtcpAccept oneSubnet 0 0 =
        .ok (.failed (some .enfile), after) ∧ ¬(oneListener .listener [5]).KeepsWaiting after := by
  refine ⟨⟨_, rfl, rfl, rfl⟩, _, rfl, fun keeps => ?_⟩
  rcases keeps 0 _ rfl 5 List.mem_cons_self with ⟨same, isSame, member⟩ | gone
  · cases isSame
    cases member
  · cases gone

end ListenAccept

end Mcc.Core
