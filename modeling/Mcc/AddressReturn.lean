import Mcc.SocketFrame

/-!
Where the addresses go that `mtcp_connect` takes from a pool. The pool is found by routing the
destination when the address is taken, and by routing the address itself when it is given back.
-/

namespace Mcc.Core

open FlowView Socket

open Function (update update_self update_of_ne update_eq_self)

section Routing

variable {network : Network} {own : Option Nat}

/-- If connections leave by an interface, its own address is routed to the interface with its
number. -/
def Network.ReturnsHome (network : Network) : Prop :=
  ∀ daddr nif address, getOutputInterface network daddr = nif → 0 ≤ nif →
    network.eths[nif.toNat]? = some address →
    arrayAt network.nifToEidx (getOutputInterface network address) = .ok nif

theorem arrayAt_ok {α : Type} {entries : List α} {index : Int} {entry : α} :
    arrayAt entries index = .ok entry ↔ 0 ≤ index ∧ entries[index.toNat]? = some entry := by
  rw [arrayAt]
  split
  · next negative => exact ⟨nofun, fun inside => absurd inside.1 (Int.not_le.mpr negative)⟩
  · next inside =>
    rw [and_iff_right (Int.not_lt.mp inside)]
    split
    · next found => rw [found, Except.ok.injEq, Option.some.injEq]
    · next absent => simp [absent]

theorem ap_at {index : Int} {pool : Nat} :
    arrayAt (ap network) index = .ok (some pool) ↔ index = pool ∧ pool < network.eths.length := by
  have fits := network.ethsFit
  have entry : (ap network)[index.toNat]? = some (some pool) ↔
      index.toNat = pool ∧ pool < network.eths.length := by
    by_cases inside : index.toNat < maxDevices
    · rw [ap, List.getElem?_map, List.getElem?_range inside, Option.map_some, Option.some.injEq]
      split
      · next configured =>
        rw [Option.some.injEq]
        constructor
        · rintro rfl
          exact ⟨rfl, configured⟩
        · exact fun found => found.1
      · next unconfigured => exact ⟨nofun, fun ⟨same, less⟩ => absurd (same ▸ less) unconfigured⟩
    · have absent : (ap network)[index.toNat]? = none := by simpa [ap] using inside
      rw [absent]
      refine ⟨nofun, fun ⟨same, less⟩ => ?_⟩
      omega
  rw [arrayAt_ok, entry]
  omega

theorem chosen_some {index : Int} {pool : Nat} :
    (match arrayAt (ap network) index with
      | .error fault => (.error (.fault fault) : Except Stop (Option Nat))
      | .ok found => .ok found) = .ok (some pool) ↔ index = pool ∧ pool < network.eths.length := by
  rw [← ap_at]
  cases arrayAt (ap network) index with
  | error fault => exact ⟨nofun, nofun⟩
  | ok found => simp

theorem sourcePool_some {daddr pool} :
    sourcePool network own daddr = .ok (some pool) ↔ own = some pool ∨ own = none ∧
      getOutputInterface network daddr = (pool : Int) ∧ pool < network.eths.length := by
  cases own with
  | some chosen => simp [sourcePool]
  | none =>
    simp only [reduceCtorEq, false_or, true_and]
    exact chosen_some

theorem returnPool_some {saddr pool} :
    returnPool network own saddr = .ok (some pool) ↔ own = some pool ∨ own = none ∧
      pool < network.eths.length ∧
        arrayAt network.nifToEidx (getOutputInterface network saddr) = .ok (pool : Int) := by
  cases own with
  | some chosen => simp [returnPool]
  | none =>
    simp only [reduceCtorEq, false_or, true_and, returnPool]
    split
    · next negative =>
      refine ⟨nofun, fun ⟨_, home⟩ => ?_⟩
      exact absurd (arrayAt_ok.mp home).1 (Int.not_le.mpr negative)
    · cases arrayAt network.nifToEidx (getOutputInterface network saddr) with
      | error fault => exact ⟨nofun, nofun⟩
      | ok home => exact chosen_some.trans (by rw [and_comm, Except.ok.injEq])

end Routing

section Holding

structure Holding (network : Network) (pools : Pools) (nextPool : Nat) (views : Nat → FlowView)
    (handedOut : Nat → List SockAddr) : Prop where
  sound : ∀ {pool ap}, pools pool = some ap → Session.Sound ⟨ap, handedOut pool⟩
  unmade : ∀ {pool}, nextPool ≤ pool → pools pool = none
  devices : network.eths.length ≤ nextPool
  device : ∀ {pool address}, network.eths[pool]? = some address →
    ∃ ap, pools pool = some ap ∧ ∀ addr ∈ ap.pool, addr.sAddr = address
  own : ∀ {cpu pool}, (views cpu).ap = some pool → network.eths.length ≤ pool ∧ ∃ ap, pools pool = some ap
  single : ∀ {cpu other pool}, (views cpu).ap = some pool → (views other).ap = some pool → cpu = other
  unused : ∀ {cpu pointer}, (views cpu).next ≤ pointer → (views cpu).held pointer = none
  holds : ∀ {cpu pointer flow}, (views cpu).held pointer = some (flow, true) →
    ∃ pool, sourcePool network (views cpu).ap flow.daddr = .ok (some pool) ∧
      returnPool network (views cpu).ap flow.saddr = .ok (some pool) ∧
      flow.source ∈ handedOut pool
  distinct : ∀ {cpu pointer flow other otherPointer otherFlow pool},
    (views cpu).held pointer = some (flow, true) →
    (views other).held otherPointer = some (otherFlow, true) →
    returnPool network (views cpu).ap flow.saddr = .ok (some pool) →
    returnPool network (views other).ap otherFlow.saddr = .ok (some pool) →
    flow.source = otherFlow.source → cpu = other ∧ pointer = otherPointer

variable {network : Network} {pools : Pools} {nextPool : Nat} {views : Nat → FlowView}
  {handedOut : Nat → List SockAddr} {cpu pool pointer : Nat} {ap : AddrPool} {flow : Flow}

theorem add_ap {isBound} (other : Nat) :
    (update views cpu ((views cpu).add flow isBound) other).ap = (views other).ap := by
  by_cases here : other = cpu
  · rw [here, update_self]
    rfl
  · rw [update_of_ne here]

theorem add_held {isBound other found}
    (held : (update views cpu ((views cpu).add flow isBound) other).held pointer = some found) :
    other = cpu ∧ pointer = (views cpu).next ∧ found = (flow, isBound) ∨
      (views other).held pointer = some found := by
  by_cases here : other = cpu
  · subst here
    rw [update_self] at held
    simp only [add] at held
    by_cases new : pointer = (views other).next
    · rw [new, update_self] at held
      exact .inl ⟨rfl, new, (Option.some.inj held).symm⟩
    · rw [update_of_ne new] at held
      exact .inr held
  · rw [update_of_ne here] at held
    exact .inr held

theorem drop_ap (other : Nat) :
    (update views cpu ((views cpu).drop pointer flow) other).ap = (views other).ap := by
  by_cases here : other = cpu
  · rw [here, update_self]
    rfl
  · rw [update_of_ne here]

theorem drop_held {other otherPointer found}
    (held : (update views cpu ((views cpu).drop pointer flow) other).held otherPointer = some found) :
    (views other).held otherPointer = some found ∧ ¬(other = cpu ∧ otherPointer = pointer) := by
  by_cases here : other = cpu
  · subst here
    rw [update_self] at held
    simp only [drop] at held
    by_cases gone : otherPointer = pointer
    · rw [gone, update_self] at held
      cases held
    · rw [update_of_ne gone] at held
      exact ⟨held, fun both => gone both.2⟩
  · rw [update_of_ne here] at held
    exact ⟨held, fun both => here both.1⟩

theorem setAp_other {own other otherPointer}
    (idle : ∀ pointer flow, (views cpu).held pointer ≠ some (flow, true))
    (held : (update views cpu { views cpu with ap := own } other).held otherPointer =
      some (flow, true)) : update views cpu { views cpu with ap := own } other = views other := by
  by_cases here : other = cpu
  · subst here
    rw [update_self] at held
    exact absurd held (idle _ _)
  · exact update_of_ne here _ _

variable (holding : Holding network pools nextPool views handedOut)
include holding

namespace Holding

theorem returnPool_live {saddr}
    (found : returnPool network (views cpu).ap saddr = .ok (some pool)) : ∃ ap, pools pool = some ap := by
  rcases returnPool_some.mp found with own | ⟨-, inside, -⟩
  · exact (holding.own own).2
  · obtain ⟨ap, isPool, -⟩ := holding.device (List.getElem?_eq_getElem inside)
    exact ⟨ap, isPool⟩

theorem returnPool_home {daddr addr} (home : network.ReturnsHome)
    (source : sourcePool network (views cpu).ap daddr = .ok (some pool))
    (isPool : pools pool = some ap) (member : addr ∈ ap.pool) :
    returnPool network (views cpu).ap addr.sAddr = .ok (some pool) := by
  refine returnPool_some.mpr ?_
  rcases sourcePool_some.mp source with own | ⟨absent, route, inside⟩
  · exact .inl own
  · refine .inr ⟨absent, inside, ?_⟩
    have configured := List.getElem?_eq_getElem inside
    obtain ⟨found, isFound, address⟩ := holding.device configured
    cases isPool.symm.trans isFound
    rw [address addr member]
    exact home daddr pool _ route (Int.natCast_nonneg pool) configured

theorem replace {changed out} (isPool : pools pool = some ap)
    (same : changed.pool = ap.pool) (sound : Session.Sound ⟨changed, out⟩)
    (keeps : ∀ {cpu pointer flow}, (views cpu).held pointer = some (flow, true) →
      returnPool network (views cpu).ap flow.saddr = .ok (some pool) → flow.source ∈ out) :
    Holding network (update pools pool (some changed)) nextPool views (update handedOut pool out) where
  __ := holding
  sound {other found} isFound := by
    by_cases here : other = pool
    · subst here
      rw [update_self] at isFound ⊢
      cases isFound
      exact sound
    · rw [update_of_ne here] at isFound ⊢
      exact holding.sound isFound
  unmade {other} beyond := by
    have absent := holding.unmade beyond
    rw [update_of_ne]
    · exact absent
    · rintro rfl
      cases isPool.symm.trans absent
  device {other address} configured := by
    obtain ⟨found, isFound, addresses⟩ := holding.device configured
    by_cases here : other = pool
    · subst here
      cases isPool.symm.trans isFound
      rw [update_self]
      exact ⟨changed, rfl, same ▸ addresses⟩
    · rw [update_of_ne here]
      exact ⟨found, isFound, addresses⟩
  own {cpu other} isOwn := by
    obtain ⟨beyond, found, isFound⟩ := holding.own isOwn
    refine ⟨beyond, ?_⟩
    by_cases here : other = pool
    · rw [here, update_self]
      exact ⟨changed, rfl⟩
    · rw [update_of_ne here]
      exact ⟨found, isFound⟩
  holds {cpu pointer flow} held := by
    obtain ⟨other, source, back, member⟩ := holding.holds held
    refine ⟨other, source, back, ?_⟩
    by_cases here : other = pool
    · subst here
      rw [update_self]
      exact keeps held back
    · rw [update_of_ne here]
      exact member

theorem source_mem (held : (views cpu).held pointer = some (flow, true))
    (back : returnPool network (views cpu).ap flow.saddr = .ok (some pool)) :
    flow.source ∈ handedOut pool := by
  obtain ⟨other, -, found, member⟩ := holding.holds held
  cases found.symm.trans back
  exact member

theorem take {call : PoolCall} {result : PoolReturn} (isPool : pools pool = some ap)
    (isFetch : ∀ addr, call ≠ .freeAddress addr) (ran : call.run ap = some (.ok result))
    (success : 0 ≤ result.ret) :
    ∃ addr ∈ ap.pool, result.saddr = some addr ∧ addr ∉ handedOut pool ∧
      Holding network (update pools pool (some result.ap)) nextPool views
        (update handedOut pool (addr :: handedOut pool)) := by
  have sound := holding.sound isPool
  rcases PoolCall.run_cases ran with ⟨failed, -⟩ | ⟨walk, -, rfl⟩ | ⟨addr, walk, isFree, -⟩
  · omega
  · obtain ⟨addr, member, isAddr, isNew⟩ := sound.fetched isFetch ran rfl
    refine ⟨addr, member, isAddr, isNew, ?_⟩
    have frees : Session.FreesInUse ⟨ap, handedOut pool⟩ call := fun other same =>
      absurd same (isFetch _)
    have next : Session.Sound ⟨(ap.handOut walk).ap, addr :: handedOut pool⟩ := by
      rcases sound.step frees with ⟨-, fails⟩ | ⟨result, done, next⟩
      · cases fails.symm.trans ran
      · cases done.symm.trans ran
        rwa [Session.next_fetched isFetch rfl isAddr] at next
    exact holding.replace isPool rfl next fun held back =>
      List.mem_cons_of_mem _ (holding.source_mem held back)
  · exact absurd isFree (isFetch _)

theorem fewer {left} (sameAp : ∀ cpu, (left cpu).ap = (views cpu).ap)
    (unused : ∀ {cpu pointer}, (left cpu).next ≤ pointer → (left cpu).held pointer = none)
    (held : ∀ {cpu pointer flow}, (left cpu).held pointer = some (flow, true) →
      (views cpu).held pointer = some (flow, true)) : Holding network pools nextPool left handedOut where
  __ := holding
  own isOwn := holding.own (sameAp _ ▸ isOwn)
  single first second := holding.single (sameAp _ ▸ first) (sameAp _ ▸ second)
  unused := unused
  holds isHeld := by
    rw [sameAp]
    exact holding.holds (held isHeld)
  distinct first second firstBack secondBack := by
    rw [sameAp] at firstBack secondBack
    exact holding.distinct (held first) (held second) firstBack secondBack

theorem add_unused {isBound other}
    (beyond : (update views cpu ((views cpu).add flow isBound) other).next ≤ pointer) :
    (update views cpu ((views cpu).add flow isBound) other).held pointer = none := by
  by_cases here : other = cpu
  · subst here
    rw [update_self] at beyond ⊢
    simp only [add] at beyond ⊢
    rw [update_of_ne (by omega)]
    exact holding.unused (by omega)
  · rw [update_of_ne here] at beyond ⊢
    exact holding.unused beyond

theorem add_other :
    Holding network pools nextPool (update views cpu ((views cpu).add flow false))
      handedOut := by
  refine holding.fewer add_ap holding.add_unused fun held => ?_
  rcases add_held held with ⟨-, -, same⟩ | before
  · cases same
  · exact before

theorem add_taken (source : sourcePool network (views cpu).ap flow.daddr = .ok (some pool))
    (back : returnPool network (views cpu).ap flow.saddr = .ok (some pool))
    (member : flow.source ∈ handedOut pool)
    (taken : ∀ {other pointer found}, (views other).held pointer = some (found, true) →
      returnPool network (views other).ap found.saddr = .ok (some pool) →
      found.source ≠ flow.source) :
    Holding network pools nextPool (update views cpu ((views cpu).add flow true)) handedOut where
  __ := holding
  own isOwn := holding.own (add_ap _ ▸ isOwn)
  single first second := holding.single (add_ap _ ▸ first) (add_ap _ ▸ second)
  unused := holding.add_unused
  holds held := by
    rw [add_ap]
    rcases add_held held with ⟨rfl, -, same⟩ | before
    · cases same
      exact ⟨pool, source, back, member⟩
    · exact holding.holds before
  distinct first second firstBack secondBack same := by
    rw [add_ap] at firstBack secondBack
    rcases add_held first with ⟨rfl, rfl, isFirst⟩ | firstBefore
    · cases isFirst
      rcases add_held second with ⟨rfl, rfl, -⟩ | secondBefore
      · exact ⟨rfl, rfl⟩
      · cases firstBack.symm.trans back
        exact absurd same.symm (taken secondBefore secondBack)
    · rcases add_held second with ⟨rfl, rfl, isSecond⟩ | secondBefore
      · cases isSecond
        cases secondBack.symm.trans back
        exact absurd same (taken firstBefore firstBack)
      · exact holding.distinct firstBefore secondBefore firstBack secondBack same

theorem drop :
    Holding network pools nextPool (update views cpu ((views cpu).drop pointer flow))
      handedOut := by
  refine holding.fewer drop_ap ?_ fun held => (drop_held held).1
  intro other otherPointer beyond
  have before : (views other).held otherPointer = none := by
    refine holding.unused (Nat.le_trans (Nat.le_of_eq ?_) beyond)
    by_cases here : other = cpu
    · rw [here, update_self]
      rfl
    · rw [update_of_ne here]
  rw [Option.eq_none_iff_forall_ne_some]
  intro found held
  cases before.symm.trans (drop_held held).1

theorem give_back (held : (views cpu).held pointer = some (flow, true)) :
    ∃ pool ap entry, returnPool network (views cpu).ap flow.saddr = .ok (some pool) ∧
      pools pool = some ap ∧
      freeAddress ap (some flow.source) = some ⟨0, none, ap.takeBack entry⟩ ∧
      Holding network (update pools pool (some (ap.takeBack entry))) nextPool
        (update views cpu ((views cpu).drop pointer flow))
        (update handedOut pool ((handedOut pool).erase flow.source)) := by
  obtain ⟨pool, -, back, member⟩ := holding.holds held
  obtain ⟨ap, isPool⟩ := holding.returnPool_live back
  have sound := holding.sound isPool
  rcases freeAddress_cases sound.indexed (some flow.source) with
    ⟨absent, -⟩ | ⟨known, entry, isKnown, isEntry, freed⟩
  · exact absurd (sound.handedOut_mem member) (absent _ rfl)
  · cases isKnown
    refine ⟨pool, ap, entry, back, isPool, freed, ?_⟩
    refine holding.drop.replace isPool rfl (sound.takeBack isEntry member) fun isHeld isBack => ?_
    rw [drop_ap] at isBack
    obtain ⟨before, other⟩ := drop_held isHeld
    refine (List.mem_erase_of_ne fun same => other ?_).mpr (holding.source_mem before isBack)
    exact holding.distinct before held isBack back same

theorem renewed {changed next own out}
    (idle : ∀ pointer flow, (views cpu).held pointer ≠ some (flow, true))
    (sound : ∀ {pool ap}, changed pool = some ap → Session.Sound ⟨ap, out pool⟩)
    (unmade : ∀ {pool}, next ≤ pool → changed pool = none) (later : nextPool ≤ next)
    (kept : ∀ {pool}, pool < nextPool → (views cpu).ap ≠ some pool → changed pool = pools pool)
    (taken : ∀ {pool}, pool < nextPool → out pool = handedOut pool)
    (fresh : ∀ {pool}, own = some pool → nextPool ≤ pool ∧ ∃ ap, changed pool = some ap) :
    Holding network changed next (update views cpu { views cpu with ap := own }) out := by
  have below : ∀ {pool ap}, pools pool = some ap → pool < nextPool := fun isPool =>
    Nat.lt_of_not_le fun beyond => nomatch (holding.unmade beyond).symm.trans isPool
  have others : ∀ {other}, other ≠ cpu → update views cpu { views cpu with ap := own }
      other = views other := fun apart => update_of_ne apart _ _
  have owned : ∀ {other pool}, other ≠ cpu → (views other).ap = some pool →
      pool < nextPool ∧ changed pool = pools pool ∧ network.eths.length ≤ pool := by
    intro other pool apart isOwn
    obtain ⟨beyond, ap, isPool⟩ := holding.own isOwn
    exact ⟨below isPool, kept (below isPool) fun mine => apart (holding.single isOwn mine), beyond⟩
  constructor
  · exact sound
  · exact unmade
  · exact Nat.le_trans holding.devices later
  · intro pool address configured
    have inside := (List.getElem?_eq_some_iff.mp configured).1
    rw [kept (Nat.lt_of_lt_of_le inside holding.devices) fun mine =>
      Nat.not_lt.mpr (holding.own mine).1 inside]
    exact holding.device configured
  · intro other pool isOwn
    by_cases here : other = cpu
    · rw [here, update_self] at isOwn
      obtain ⟨beyond, isPool⟩ := fresh isOwn
      exact ⟨Nat.le_trans holding.devices beyond, isPool⟩
    · rw [others here] at isOwn
      obtain ⟨-, same, beyond⟩ := owned here isOwn
      exact ⟨beyond, same ▸ (holding.own isOwn).2⟩
  · intro first second pool firstOwn secondOwn
    by_cases here : first = cpu <;> by_cases there : second = cpu
    · exact here.trans there.symm
    · rw [here, update_self] at firstOwn
      rw [others there] at secondOwn
      exact absurd (owned there secondOwn).1 (Nat.not_lt.mpr (fresh firstOwn).1)
    · rw [others here] at firstOwn
      rw [there, update_self] at secondOwn
      exact absurd (owned here firstOwn).1 (Nat.not_lt.mpr (fresh secondOwn).1)
    · rw [others here] at firstOwn
      rw [others there] at secondOwn
      exact holding.single firstOwn secondOwn
  · intro other pointer beyond
    by_cases here : other = cpu
    · subst here
      rw [update_self] at beyond ⊢
      exact holding.unused beyond
    · rw [others here] at beyond ⊢
      exact holding.unused beyond
  · intro other pointer flow held
    have same := setAp_other idle held
    rw [same] at held ⊢
    obtain ⟨pool, source, back, member⟩ := holding.holds held
    obtain ⟨found, isFound⟩ := holding.returnPool_live back
    exact ⟨pool, source, back, taken (below isFound) ▸ member⟩
  · intro first firstPointer firstFlow second secondPointer secondFlow pool firstHeld secondHeld
      firstBack secondBack
    have here := setAp_other idle firstHeld
    have there := setAp_other idle secondHeld
    rw [here] at firstHeld firstBack
    rw [there] at secondHeld secondBack
    exact holding.distinct firstHeld secondHeld firstBack secondBack

end Holding

end Holding

section Runs

variable {network : Network} {machine after : Machine} {cpu pointer : Nat} {call : Call} {reply : Reply}

def Machine.views (machine : Machine) (cpu : Nat) : FlowView := (machine.cores cpu).flowView

theorem put_views {pools m} : (machine.put cpu pools m).views = update machine.views cpu m.flowView :=
  Function.comp_update Manager.flowView machine.cores cpu m

def Machine.Orderly (network : Network) (machine : Machine) : Prop :=
  ∃ handedOut, Holding network machine.pools machine.nextPool machine.views handedOut

def InitsIdle (machine : Machine) (cpu : Nat) : Call → Prop
  | .initRss .. => ∀ pointer stream, (machine.cores cpu).streams pointer = some stream →
      stream.isBoundAddr = false
  | _ => True

theorem Machine.orderly_put {pools m}
    (holding : ∃ handedOut, Holding network pools machine.nextPool
      (update machine.views cpu m.flowView) handedOut) : (machine.put cpu pools m).Orderly network := by
  rwa [Machine.Orderly, put_views]

theorem Machine.Orderly.same {m : Manager} (orderly : machine.Orderly network)
    (same : m.flowView = machine.views cpu) : ∃ handedOut, Holding network machine.pools
      machine.nextPool (update machine.views cpu m.flowView) handedOut := by
  rwa [same, update_eq_self]

theorem sourceCall_fetches {own daddr saddr} (addr : Option SockAddr) :
    sourceCall network own cpu daddr saddr ≠ .freeAddress addr := by
  cases own <;> exact nofun

theorem Connects.orderly {number : Int} {addr : Option Address} {sockid : Nat} {daddr : SockAddr}
    {socket : Socket} {isDynBound : Bool} {pools : Pools} {made : Manager}
    (home : network.ReturnsHome) (orderly : machine.Orderly network)
    (connects : Connects network machine cpu number addr after sockid daddr socket isDynBound pools
      made) : after.Orderly network := by
  rw [connects.after_eq]
  refine Machine.orderly_put ?_
  rcases bindAddress_cases connects.bound with ⟨-, -, rfl, rfl, rfl⟩ |
    ⟨-, rfl, pool, ap, result, source, isPool, ran, success, rfl, rfl⟩
  · rcases connects.flows with same | added
    · exact orderly.same same
    · obtain ⟨handedOut, holding⟩ := orderly
      exact ⟨handedOut, added ▸ holding.add_other⟩
  · obtain ⟨handedOut, holding⟩ := orderly
    obtain ⟨taken, member, isTaken, isNew, next⟩ :=
      holding.take isPool sourceCall_fetches ran success
    refine ⟨update handedOut pool (taken :: handedOut pool), ?_⟩
    rcases connects.flows with same | added
    · rw [same]
      exact (update_eq_self cpu machine.views).symm ▸ next
    · rw [added]
      simp only [isTaken, Option.getD_some]
      refine next.add_taken source (holding.returnPool_home home source isPool member) ?_ ?_
      · rw [update_self]
        exact List.mem_cons_self
      · intro other pointer found held back same
        have member := holding.source_mem held back
        rw [same] at member
        exact isNew member

theorem destroyTCPStream_holding {pools pools' m gone nextPool views}
    (holding : ∃ handedOut, Holding network pools nextPool (update views cpu m.flowView)
      handedOut) (done : destroyTCPStream network m pools pointer = .ok (pools', gone)) :
    ∃ handedOut, Holding network pools' nextPool (update views cpu gone.flowView)
      handedOut := by
  obtain ⟨handedOut, holding⟩ := holding
  obtain ⟨stream, isStream, rfl, back⟩ := destroyTCPStream_cases done
  have dropped : update (update views cpu m.flowView) cpu
      ((update views cpu m.flowView cpu).drop pointer stream.flow) =
        update views cpu (m.drop pointer stream).flowView := by
    rw [update_self, Function.update_idem, flowView_drop]
  rw [← dropped]
  rcases back with ⟨-, rfl⟩ | ⟨isBound, pool, ret, saddr, isPool, freed⟩
  · exact ⟨handedOut, holding.drop⟩
  · have held : (update views cpu m.flowView cpu).held pointer = some (stream.flow, true) := by
      rw [update_self, flowView_held isStream, isBound]
    obtain ⟨found, ap, entry, back, isAp, isFreed, next⟩ := holding.give_back held
    rw [update_self] at back
    cases back.symm.trans isPool
    have called : callPool pools (some found) (.freeAddress (some stream.flow.source)) =
        .ok (0, none, update pools found (some (ap.takeBack entry))) := by
      simp only [callPool, isAp, PoolCall.run, isFreed, Option.map_some]
    cases called.symm.trans freed
    exact ⟨_, next⟩

theorem mtcpInitRss_orderly {saddrBase daddr numAddr dport granted} (orderly : machine.Orderly network)
    (idle : ∀ pointer stream, (machine.cores cpu).streams pointer = some stream →
      stream.isBoundAddr = false)
    (done : mtcpInitRss network machine cpu saddrBase numAddr daddr dport granted =
      .ok (reply, after)) : after.Orderly network := by
  obtain ⟨handedOut, holding⟩ := orderly
  have noneHeld : ∀ pointer flow, (machine.views cpu).held pointer ≠ some (flow, true) := by
    intro pointer flow held
    obtain ⟨stream, isStream, same⟩ := Option.map_eq_some_iff.mp held
    cases (idle pointer stream isStream).symm.trans (congrArg Prod.snd same)
  have kept : ∀ {pool}, (machine.views cpu).ap ≠ some pool →
      machine.withoutPool cpu pool = machine.pools pool := by
    intro pool other
    rw [Machine.withoutPool]
    cases isOwn : (machine.cores cpu).ap with
    | some own => exact update_of_ne (by rintro rfl; exact other isOwn) _ _
    | none => rfl
  have left : ∀ {pool ap}, machine.withoutPool cpu pool = some ap → machine.pools pool = some ap := by
    intro pool ap isPool
    by_cases own : (machine.cores cpu).ap = some pool
    · rw [Machine.withoutPool, own] at isPool
      cases (update_self _ _ _).symm.trans isPool
    · exact kept own ▸ isPool
  have gone : ∀ {pool}, machine.nextPool ≤ pool → machine.withoutPool cpu pool = none := fun beyond =>
    Option.eq_none_iff_forall_ne_some.mpr fun _ isPool =>
      nomatch (holding.unmade beyond).symm.trans (left isPool)
  rcases mtcpInitRss_cases done with rfl | ⟨ap, made, rfl⟩
  · refine ⟨handedOut, ?_⟩
    rw [put_views]
    exact holding.renewed noneHeld (fun isPool => holding.sound (left isPool)) gone (Nat.le_refl _)
      (fun _ => kept) (fun _ => rfl) nofun
  · refine ⟨update handedOut machine.nextPool [], ?_⟩
    change Holding network (update (machine.withoutPool cpu) machine.nextPool (some ap))
      (machine.nextPool + 1) (machine.put cpu (update (machine.withoutPool cpu)
        machine.nextPool (some ap)) { machine.cores cpu with ap := some machine.nextPool }).views _
    rw [put_views]
    refine holding.renewed noneHeld ?_ ?_ (Nat.le_succ _) ?_ ?_ ?_
    · intro pool found isFound
      by_cases here : pool = machine.nextPool
      · subst here
        rw [update_self] at isFound ⊢
        cases isFound
        exact made.session_sound
      · rw [update_of_ne here] at isFound ⊢
        exact holding.sound (left isFound)
    · intro pool beyond
      rw [update_of_ne (by omega)]
      exact gone (by omega)
    · exact fun below other => (update_of_ne (Nat.ne_of_lt below) _ _).trans (kept other)
    · exact fun below => update_of_ne (Nat.ne_of_lt below) _ _
    · intro pool isOwn
      cases isOwn
      exact ⟨Nat.le_refl _, ap, update_self _ _ _⟩

theorem step_orderly (home : network.ReturnsHome) (orderly : machine.Orderly network)
    (idle : InitsIdle machine cpu call) (done : machine.step network cpu call = .ok (reply, after)) :
    after.Orderly network := by
  cases step_taken done with
  | same flows => exact Machine.orderly_put (orderly.same flows)
  | connect connects => exact connects.orderly home orderly
  | packet _ added =>
    obtain ⟨handedOut, holding⟩ := orderly
    exact Machine.orderly_put ⟨handedOut, added ▸ holding.add_other⟩
  | destroy flows destroyed =>
    exact Machine.orderly_put (destroyAll_preserves (fun pools m => ∃ handedOut, Holding network pools
      machine.nextPool (update machine.views cpu m.flowView) handedOut)
      destroyTCPStream_holding (orderly.same flows) destroyed)
  | initRss initialised => exact mtcpInitRss_orderly orderly idle initialised

theorem interfacePool_eq (address : UInt32) :
    ∃ ap, createAddressPool true address 1 = .ok (some ap) ∧ interfacePool address = some ap ∧
      ∀ addr ∈ ap.pool, addr.sAddr = address := by
  obtain ⟨ap, created, entries⟩ := createAddressPool_one address
  refine ⟨ap, created, congrArg (fun made => made.toOption.join) created, fun addr member => ?_⟩
  rw [entries] at member
  obtain ⟨port, -, rfl⟩ := List.mem_map.mp member
  simp [addressAt]

theorem start_pool {pool address} (configured : network.eths[pool]? = some address) :
    (Machine.start network).pools pool = interfacePool address := by
  change network.eths[pool]?.bind interfacePool = _
  rw [configured, Option.bind_some]

theorem start_no_pool {pool} (absent : network.eths[pool]? = none) :
    (Machine.start network).pools pool = none := by
  change network.eths[pool]?.bind interfacePool = _
  rw [absent, Option.bind_none]

theorem start_orderly (network : Network) : (Machine.start network).Orderly network := by
  refine ⟨fun _ => [], ?_⟩
  constructor
  · intro pool ap isPool
    cases configured : network.eths[pool]? with
    | none => cases (start_no_pool configured).symm.trans isPool
    | some address =>
      obtain ⟨found, created, isFound, -⟩ := interfacePool_eq address
      cases isFound.symm.trans ((start_pool configured).symm.trans isPool)
      exact AddrPool.Created.session_sound (.inl ⟨true, address, 1, created⟩)
  · intro pool beyond
    exact start_no_pool (List.getElem?_eq_none beyond)
  · exact Nat.le_refl _
  · intro pool address configured
    obtain ⟨found, -, isFound, addresses⟩ := interfacePool_eq address
    exact ⟨found, (start_pool configured).trans isFound, addresses⟩
  · exact nofun
  · exact nofun
  · exact fun _ => rfl
  · exact nofun
  · exact nofun

structure Pinned (pointer : Nat) (flow : Flow) (own : Option Nat) (view : FlowView) : Prop where
  below : pointer < view.next
  held : ∀ found, view.held pointer = some found → found = (flow, true) ∧ view.ap = own

variable {flow : Flow} {own : Option Nat} {view : FlowView}

theorem Pinned.add {other isBound} (pinned : Pinned pointer flow own view) :
    Pinned pointer flow own (view.add other isBound) where
  below := Nat.lt_succ_of_lt pinned.below
  held found isFound := by
    simp only [FlowView.add] at isFound
    rw [update_of_ne (Nat.ne_of_lt pinned.below)] at isFound
    exact pinned.held found isFound

theorem Pinned.drop {gone other} (pinned : Pinned pointer flow own view) :
    Pinned pointer flow own (view.drop gone other) where
  below := pinned.below
  held found isFound := by
    simp only [FlowView.drop] at isFound
    by_cases same : pointer = gone
    · rw [same, update_self] at isFound
      cases isFound
    · rw [update_of_ne same] at isFound
      exact pinned.held found isFound

theorem step_views (kept : FlowView → Prop) {core} (before : kept (machine.views core))
    (drop : ∀ {view pointer flow isBound}, kept view → view.held pointer = some (flow, isBound) →
      kept (view.drop pointer flow))
    (renewed : ∀ {saddrBase numAddr daddr dport granted own},
      call = .initRss saddrBase numAddr daddr dport granted → kept (machine.views cpu) →
        kept { machine.views cpu with ap := own })
    (active : ∀ {number addr iss seen sockid daddr socket isDynBound pools made},
      call = .connect number addr iss seen → Connects network machine cpu number addr after sockid
        daddr socket isDynBound pools made → kept (machine.views cpu) → kept ((machine.views cpu).add
          ⟨socket.saddr.sAddr, daddr.sAddr, socket.saddr.sinPort, daddr.sinPort⟩ isDynBound))
    (passive : ∀ {flow}, (machine.cores cpu).streamHTSearch flow = .ok none →
      kept (machine.views cpu) → kept ((machine.views cpu).add flow false))
    (done : machine.step network cpu call = .ok (reply, after)) : kept (after.views core) := by
  by_cases elsewhere : core ≠ cpu
  · rw [Machine.views, step_elsewhere elsewhere done]
    exact before
  obtain rfl : core = cpu := not_ne_iff.mp elsewhere
  cases step_taken done with
  | same flows =>
    rw [put_views, update_self, flows]
    exact before
  | connect connects =>
    have added := active rfl connects before
    rw [connects.after_eq, put_views, update_self]
    rcases connects.flows with same | isAdded
    · rw [same]
      exact before
    · rw [isAdded]
      exact added
  | packet search added =>
    rw [put_views, update_self, added]
    exact passive search before
  | destroy flows destroyed =>
    rw [put_views, update_self]
    refine destroyAll_preserves (fun _ m => kept m.flowView) ?_ ?_ destroyed
    · intro pools m pointer pools' gone before done
      obtain ⟨stream, isStream, rfl, -⟩ := destroyTCPStream_cases done
      rw [flowView_drop]
      exact drop before (flowView_held isStream)
    · rw [flows]
      exact before
  | initRss initialised =>
    obtain ⟨own, cores⟩ := mtcpInitRss_cores initialised
    rw [Machine.views, cores, update_self]
    exact renewed rfl before

theorem step_pinned {watched} (pinned : Pinned pointer flow own (machine.views watched))
    (idle : InitsIdle machine cpu call) (done : machine.step network cpu call = .ok (reply, after)) :
    Pinned pointer flow own (after.views watched) := by
  refine step_views (Pinned pointer flow own) pinned (fun pinned _ => pinned.drop) ?_
    (fun _ _ => Pinned.add) (fun _ => Pinned.add) done
  rintro saddrBase numAddr daddr dport granted renewed rfl pinned
  refine ⟨pinned.below, fun found held => ?_⟩
  -- the core has to be idle, so that the stream is gone already
  obtain ⟨rfl, -⟩ := pinned.held found held
  obtain ⟨stream, isStream, same⟩ := Option.map_eq_some_iff.mp held
  cases (idle pointer stream isStream).symm.trans (congrArg Prod.snd same)

def ReturnsTo (network : Network) (machine : Machine) (cpu pointer pool : Nat) : Prop :=
  ∃ stream pools, (machine.cores cpu).streams pointer = some stream ∧
    returnPool network (machine.cores cpu).ap stream.flow.saddr = .ok (some pool) ∧
    callPool machine.pools (some pool) (.freeAddress (some stream.flow.source)) = .ok (0, none, pools) ∧
    destroyTCPStream network (machine.cores cpu) machine.pools pointer =
      .ok (pools, (machine.cores cpu).drop pointer stream)

structure Takes (network : Network) (machine : Machine) (cpu : Nat) (after : Machine)
    (pointer pool : Nat) : Prop where
  taken : ∃ number daddr iss seen reply, machine.step network cpu
      (.connect number (some ⟨true, true, daddr⟩) iss seen) = .ok (reply, after) ∧
    sourcePool network (machine.cores cpu).ap daddr.sAddr = .ok (some pool)
  isNew : pointer = (machine.cores cpu).nextStream
  isBound : ∃ stream, (after.cores cpu).streams pointer = some stream ∧ stream.isBoundAddr = true

def AddressesReturn (network : Network) : Prop :=
  ∀ steps machine, (Machine.start network).run network steps = .ok machine →
    Along network InitsIdle (Machine.start network) steps →
    ∀ cpu after pointer pool, Takes network machine cpu after pointer pool →
      ∀ later final, after.run network later = .ok final → Along network InitsIdle after later →
        (final.cores cpu).streams pointer ≠ none → ReturnsTo network final cpu pointer pool

theorem Takes.pinned {pool} (orderly : machine.Orderly network)
    (takes : Takes network machine cpu after pointer pool) :
    ∃ flow, Pinned pointer flow (machine.cores cpu).ap (after.views cpu) ∧
      sourcePool network (machine.cores cpu).ap flow.daddr = .ok (some pool) := by
  obtain ⟨⟨number, daddr, iss, seen, reply, done, source⟩, rfl, stream, isStream, isBound⟩ := takes
  obtain ⟨handedOut, holding⟩ := orderly
  have absent : (machine.views cpu).held (machine.cores cpu).nextStream = none :=
    holding.unused (Nat.le_refl _)
  have held : (after.views cpu).held (machine.cores cpu).nextStream =
      some (stream.flow, stream.isBoundAddr) := flowView_held isStream
  rcases mtcpConnect_connects done with rfl | ⟨sockid, found, socket, isDynBound, pools, made, connects⟩
  · cases absent.symm.trans held
  · obtain ⟨-, -, same, -⟩ := checkConnect_ok.mp connects.checked
    cases same
    rw [connects.after_eq, Machine.views, put_here] at held ⊢
    rcases connects.flows with same | added
    · rw [same] at held
      cases absent.symm.trans held
    · rw [added] at held ⊢
      simp only [add] at held
      change update _ (machine.cores cpu).nextStream _ _ = _ at held
      rw [update_self, isBound] at held
      refine ⟨stream.flow, ⟨Nat.lt_succ_self _, fun found isFound => ?_⟩, ?_⟩
      · simp only [add] at isFound
        change update _ (machine.cores cpu).nextStream _ _ = _ at isFound
        rw [update_self, held] at isFound
        cases isFound
        exact ⟨rfl, rfl⟩
      · obtain ⟨isFlow, -⟩ := Prod.mk.inj (Option.some.inj held)
        rw [← isFlow]
        exact source

theorem Pinned.returns {pool} (orderly : machine.Orderly network)
    (pinned : Pinned pointer flow own (machine.views cpu))
    (source : sourcePool network own flow.daddr = .ok (some pool))
    (live : (machine.cores cpu).streams pointer ≠ none) : ReturnsTo network machine cpu pointer pool := by
  obtain ⟨handedOut, holding⟩ := orderly
  obtain ⟨stream, isStream⟩ := Option.ne_none_iff_exists'.mp live
  have held := flowView_held isStream
  obtain ⟨same, isOwn⟩ := pinned.held _ held
  rw [same] at held
  obtain ⟨isFlow, isBound⟩ := Prod.mk.inj same
  obtain ⟨chosen, from_, back, -⟩ := holding.holds held
  obtain ⟨found, ap, entry, isBack, isAp, freed, -⟩ := holding.give_back held
  rw [isOwn] at from_
  cases source.symm.trans from_
  cases back.symm.trans isBack
  have isBack : returnPool network (machine.cores cpu).ap stream.flow.saddr = .ok (some pool) := by
    rw [isFlow]
    exact back
  have called : callPool machine.pools (some pool) (.freeAddress (some stream.flow.source)) =
      .ok (0, none, update machine.pools pool (some (ap.takeBack entry))) := by
    rw [isFlow]
    simp only [callPool, isAp, PoolCall.run, freed, Option.map_some]
  refine ⟨stream, _, isStream, isBack, called, ?_⟩
  have isHere : (machine.cores cpu).stream pointer = .ok stream := by
    rw [Manager.stream, isStream]
  rw [destroyTCPStream, isHere, ok_bind]
  simp only [isBound, if_true]
  change (returnPool network (machine.cores cpu).ap _ >>= _) = _
  rw [isBack, ok_bind, called]
  rfl

theorem addressesReturn_of_home (home : network.ReturnsHome) : AddressesReturn network := by
  intro steps before ran idle cpu after pointer pool takes later final continued idleLater live
  have orderly : before.Orderly network :=
    run_preserves (fun kept allowed done => step_orderly home kept allowed done)
      (start_orderly network) idle ran
  obtain ⟨flow, pinned, source⟩ := takes.pinned orderly
  have orderlyAfter : after.Orderly network := by
    obtain ⟨number, daddr, iss, seen, reply, done, -⟩ := takes.taken
    have allowed : InitsIdle before cpu (.connect number (some ⟨true, true, daddr⟩) iss seen) := trivial
    exact step_orderly home orderly allowed done
  have orderlyFinal : final.Orderly network :=
    run_preserves (fun kept allowed done => step_orderly home kept allowed done)
      orderlyAfter idleLater continued
  have pinnedFinal : Pinned pointer flow (before.cores cpu).ap (final.views cpu) :=
    @run_preserves network InitsIdle
      (fun machine => Pinned pointer flow (before.cores cpu).ap (machine.views cpu)) after final later
      (fun kept allowed done => step_pinned kept allowed done) pinned idleLater continued
  exact pinnedFinal.returns orderlyFinal source live

theorem fresh_fetch {address ap}
    (created : createAddressPool true address 1 = .ok (some ap)) (server : SockAddr) :
    ∃ cpu addr, addr ∈ ap.pool ∧ ∃ result, (sourceCall network none cpu server
      ⟨inaddrAny, inportAny⟩).run ap = some (.ok result) ∧ result.ret = 0 ∧ result.saddr = some addr := by
  obtain ⟨found, isFound, entries⟩ := createAddressPool_one address
  cases created.symm.trans isFound
  have sound : Session.Sound ⟨ap, []⟩ :=
    AddrPool.Created.session_sound (.inl ⟨true, address, 1, created⟩)
  obtain ⟨free, used, ledger, handed⟩ := sound.ledger
  have unused : used = [] := List.map_eq_nil_iff.mp (List.nil_perm.mp handed)
  have first : 0 ∈ free := by
    have all := ledger.partition.mem_iff (a := 0)
    rw [unused, List.append_nil] at all
    refine all.mpr (List.mem_range.mpr ?_)
    rw [entries, List.length_map, List.length_range']
    decide
  obtain ⟨core, isCore⟩ : ∃ core, getRSSCPUCore (ntohl (ap.addr 0).sAddr) (ntohl server.sAddr)
      (ntohs (ap.addr 0).sinPort) (ntohs server.sinPort) network.numQueues network.endianCheck =
        .ok core := by
    rw [getRSSCPUCore, if_neg network.hasQueues]
    exact ⟨_, rfl⟩
  have isCpu : Int32.ofNat core.toInt.toNat = core := by
    obtain ⟨-, queue⟩ := getRSSCPUCore_eq_ok.mp isCore
    have bound := core.toInt_lt
    apply Int32.toInt_inj.mp
    rw [Int32.toInt_ofNat_of_lt (by omega)]
    omega
  refine ⟨core.toInt.toNat, ?_⟩
  rcases fetchAddress_cases ledger (Int32.ofNat core.toInt.toNat) network.numQueues
    network.endianCheck (some server) (some ⟨inaddrAny, inportAny⟩) with
    ⟨zero, -⟩ | ⟨refuses, -⟩ | ⟨before, walk, later, -, -, isFree, -, -, -, fetched⟩
  · exact absurd zero network.hasQueues
  · have refused := refuses server ⟨inaddrAny, inportAny⟩ rfl rfl 0 first
    rw [AddrPool.suits, if_neg (by simp), if_neg (by simp), isCore, isCpu] at refused
    simp [ok_bind] at refused
  · have inside : walk < ap.pool.length :=
      ledger.inside (List.mem_append_left _ (isFree ▸ by simp))
    exact ⟨ap.addr walk, List.mem_of_getElem? (AddrPool.getElem?_addr inside), _, fetched, rfl, rfl⟩

theorem mtcpSocket_start (network : Network) :
    ∃ m, (Manager.start network).mtcpSocket true true 0 = .ok (.done 0, m) ∧
      m.smap 0 = { empty with socktype := .stream } ∧ m.hasMemory ∧ m.connectq = [] ∧ m.ap = none ∧
      m.nextStream = 0 := by
  obtain ⟨most, isMost⟩ := Nat.exists_eq_succ_of_ne_zero network.hasSockets.ne'
  have free : (Manager.start network).freeSmap = 0 :: (List.range most).map Nat.succ := by
    change List.range network.maxConcurrency = _
    rw [isMost, List.range_succ_eq_map]
  refine ⟨{ (Manager.start network).setSocket 0 { empty with socktype := .stream } with
    freeSmap := (List.range most).map Nat.succ }, ?_, ?_, ?_, rfl, rfl, rfl⟩
  · simp [Manager.mtcpSocket, Manager.allocateSocket, free, ok_bind]
  · simp [Manager.setSocket]
  · exact ⟨network.hasSockets, network.hasSockets, network.hasSockets⟩

theorem prepared (network : Network) (cpu : Nat) :
    ∃ machine, (Machine.start network).run network [(cpu, .socket true true 0),
        (cpu, .setsockNonblock 0)] = .ok machine ∧
      machine.pools = (Machine.start network).pools ∧
      (machine.cores cpu).smap 0 = { empty with socktype := .stream, nonblock := true } ∧
      (machine.cores cpu).hasMemory ∧ (machine.cores cpu).connectq = [] ∧
      (machine.cores cpu).ap = none ∧ (machine.cores cpu).nextStream = 0 := by
  obtain ⟨m, made, socket, rest⟩ := mtcpSocket_start network
  have found : m.inUse network 0 = some 0 :=
    inUse_eq_some.mpr ⟨rfl, network.hasSockets, by rw [socket]; decide⟩
  let opened := (Machine.start network).put cpu (Machine.start network).pools m
  let marked := m.setSocket 0 { empty with socktype := .stream, nonblock := true }
  refine ⟨opened.put cpu opened.pools marked, ?_, rfl, ?_⟩
  · have first : (Machine.start network).step network cpu (.socket true true 0) =
        .ok (.done 0, opened) := by
      change Machine.onCore _ cpu ((Manager.start network).mtcpSocket true true 0) = _
      rw [made]
      rfl
    have second : opened.step network cpu (.setsockNonblock 0) =
        .ok (.done 0, opened.put cpu opened.pools marked) := by
      rw [Machine.step, put_here]
      simp only [Manager.mtcpSetsockNonblock, found, socket]
      rfl
    simp only [Machine.run, first, second, ok_bind]
  · rw [put_here]
    exact ⟨setSocket_smap _, rest⟩

theorem connects_from {daddr address nif} (route : getOutputInterface network daddr = nif)
    (nonneg : 0 ≤ nif) (configured : network.eths[nif.toNat]? = some address) :
    ∃ cpu machine after, (Machine.start network).run network [(cpu, .socket true true 0),
        (cpu, .setsockNonblock 0)] = .ok machine ∧
      Takes network machine cpu after 0 nif.toNat ∧ (after.cores cpu).ap = none ∧
      (∀ pool, pool ≠ nif.toNat → after.pools pool = (Machine.start network).pools pool) ∧
      ∃ stream, (after.cores cpu).streams 0 = some stream ∧ stream.flow.saddr = address := by
  obtain ⟨ap, created, isInterface, entries⟩ := interfacePool_eq address
  obtain ⟨cpu, addr, member, result, ran, success, isAddr⟩ :=
    @fresh_fetch network address ap created ⟨daddr, 0⟩
  obtain ⟨machine, done, pools, socket, memory, connectq, isAp, next⟩ := prepared network cpu
  have isPool : machine.pools nif.toNat = some ap := by
    rw [pools, start_pool configured, isInterface]
  have source : sourcePool network (machine.cores cpu).ap daddr = .ok (some nif.toNat) := by
    refine sourcePool_some.mpr (.inr ⟨isAp, ?_, (List.getElem?_eq_some_iff.mp configured).1⟩)
    rw [route, Int.toNat_of_nonneg nonneg]
  have checked : checkConnect network (machine.cores cpu) 0 (some ⟨true, true, ⟨daddr, 0⟩⟩) =
      .ok (.ok (0, ⟨daddr, 0⟩)) := by
    refine checkConnect_ok.mpr ⟨inUse_eq_some.mpr ⟨rfl, network.hasSockets, ?_⟩, ?_, rfl, ?_⟩
    all_goals rw [socket]
    · exact nofun
    · rfl
  let bound : Socket := ⟨.stream, true, true, addr, none⟩
  let taken : Pools := update machine.pools nif.toNat (some result.ap)
  have isBound : bindAddress network (machine.cores cpu) cpu machine.pools
      ((machine.cores cpu).smap 0) ⟨daddr, 0⟩ = .ok (.ok (bound, true, taken)) := by
    have called : callPool machine.pools (some nif.toNat) (sourceCall network none cpu ⟨daddr, 0⟩
        ⟨inaddrAny, inportAny⟩) = .ok (0, some addr, taken) := by
      simp only [callPool, isPool, ran, success, isAddr, taken]
    rw [socket, bindAddress, if_neg (by decide),
      if_neg fun unrouted => Int.not_lt.mpr nonneg (route ▸ unrouted.2), source, ok_bind, isAp]
    change (callPool machine.pools (some nif.toNat) (sourceCall network none cpu ⟨daddr, 0⟩
      ⟨inaddrAny, inportAny⟩) >>= _) = _
    rw [called, ok_bind]
    rfl
  let stream := synSentStream 0 bound.saddr ⟨daddr, 0⟩ 0 true
  let queued : Manager := { (machine.cores cpu).submitted 0 bound stream with connectq := [0] }
  have connected : machine.step network cpu (.connect 0 (some ⟨true, true, ⟨daddr, 0⟩⟩) 0 []) =
      .ok (.failed (some .einprogress), machine.put cpu taken queued) := by
    change mtcpConnect network machine cpu 0 _ 0 [] true = _
    have empty : ((machine.cores cpu).submitted 0 bound stream).connectq = [] := connectq
    have entered : enterConnectq network ((machine.cores cpu).submitted 0 bound stream) 0 true [] =
        .ok (.failed (some .einprogress), queued) := by
      rw [enterConnectq, empty]
      rfl
    rw [mtcpConnect_enters 0 [] checked isBound memory, next]
    exact congrArg (Except.map _) entered
  have held : ((machine.put cpu taken queued).cores cpu).streams 0 = some stream := by
    rw [put_here]
    change (Manager.addStream _ stream).streams 0 = _
    rw [addStream_streams]
    change update _ (machine.cores cpu).nextStream _ 0 = _
    rw [next, update_self]
  refine ⟨cpu, machine, machine.put cpu taken queued, done, ⟨⟨0, ⟨daddr, 0⟩, 0, [], _, connected, source⟩,
    next.symm, stream, held, rfl⟩, ?_, ?_, stream, held, ?_⟩
  · rw [put_here]
    exact isAp
  · intro pool other
    rw [← pools]
    exact update_of_ne other _ _
  · exact entries addr member

/-- As long as no core gets another pool while it uses addresses, they all go back just if the
routes lead back. -/
theorem addresses_return_iff (network : Network) : AddressesReturn network ↔ network.ReturnsHome := by
  refine ⟨fun returns daddr nif address route nonneg configured => ?_, addressesReturn_of_home⟩
  obtain ⟨cpu, machine, after, ran, takes, isAp, -, stream, isStream, isAddress⟩ :=
    connects_from route nonneg configured
  have live : (after.cores cpu).streams 0 ≠ none := by
    rw [isStream]
    exact nofun
  have idle : Along network InitsIdle (Machine.start network) [(cpu, .socket true true 0),
      (cpu, .setsockNonblock 0)] := ⟨trivial, fun _ _ _ => ⟨trivial, fun _ _ _ => trivial⟩⟩
  obtain ⟨found, pools, isFound, back, -⟩ :=
    returns _ machine ran idle cpu after 0 nif.toNat takes [] after rfl trivial live
  cases isStream.symm.trans isFound
  rw [isAp, isAddress] at back
  rcases returnPool_some.mp back with own | ⟨-, -, isEidx⟩
  · cases own
  · rwa [Int.toNat_of_nonneg nonneg] at isEidx

def oneSubnet : Network where
  rtable := [⟨htonl 0xFFFFFF00, htonl 0x0A000000, 24, 0⟩, ⟨htonl 0xFFFFFF00, htonl 0x0A000000, 24, 1⟩,
    ⟨htonl 0xFFFF0000, htonl 0xC0A80000, 16, 1⟩]
  gateway := none
  nifToEidx := 0 :: 1 :: List.replicate 126 (-1)
  eths := [htonl 0x0A000001, htonl 0x0A000002]
  numCpus := 1
  numQueues := 1
  endianCheck := false
  maxConcurrency := 1
  hasQueues := by decide
  hasSockets := by decide
  ethsFit := by decide

theorem second_interface_strays :
    ∃ cpu machine after, (Machine.start oneSubnet).run oneSubnet [(cpu, .socket true true 0),
        (cpu, .setsockNonblock 0)] = .ok machine ∧ Takes oneSubnet machine cpu after 0 1 ∧
      ∃ stream pools, (after.cores cpu).streams 0 = some stream ∧
        returnPool oneSubnet (after.cores cpu).ap stream.flow.saddr = .ok (some 0) ∧
        callPool after.pools (some 0) (.freeAddress (some stream.flow.source)) =
          .ok (-1, none, pools) := by
  have route : getOutputInterface oneSubnet (htonl 0xC0A80001) = 1 := by decide +kernel
  obtain ⟨cpu, machine, after, ran, takes, isAp, others, stream, isStream, isAddress⟩ :=
    connects_from route (by decide) (by decide +kernel : oneSubnet.eths[1]? = some (htonl 0x0A000002))
  obtain ⟨ap, created, isInterface, entries⟩ := interfacePool_eq (htonl 0x0A000001)
  have isPool : after.pools 0 = some ap := by
    have configured : oneSubnet.eths[0]? = some (htonl 0x0A000001) := rfl
    rw [others 0 (by decide), start_pool configured, isInterface]
  have sound : Session.Sound ⟨ap, []⟩ :=
    AddrPool.Created.session_sound (.inl ⟨true, _, 1, created⟩)
  have refused : freeAddress ap (some stream.flow.source) = some ⟨-1, none, ap⟩ := by
    refine sound.refused_iff.mpr fun member => ?_
    have address : stream.flow.saddr = htonl 0x0A000001 := entries _ member
    rw [isAddress] at address
    exact absurd address (by decide +kernel)
  refine ⟨cpu, machine, after, ran, takes, stream, update after.pools 0 (some ap), isStream, ?_, ?_⟩
  · rw [isAp, isAddress]
    decide +kernel
  · simp only [callPool, isPool, PoolCall.run, refused, Option.map_some]

end Runs

end Mcc.Core
