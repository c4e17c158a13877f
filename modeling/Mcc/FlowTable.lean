import Mcc.AddressReturn

/-!
The streams of the flow table. A passive open looks for the flow first, an active one does not: that
there is one stream for a connection then rests on the pools and on the addresses that sockets are
bound to.
-/

namespace Mcc.Core

open Function (update update_self update_of_ne)

section Views

def FlowView.flowOf (view : FlowView) (pointer : Nat) : Except Stop Flow :=
  match view.held pointer with
  | some (flow, _) => .ok flow
  | none => .error .dangling

structure FlowView.Listed (view : FlowView) : Prop where
  unused : ∀ pointer, view.next ≤ pointer → view.held pointer = none
  indexes : HashTable.Indexes hashFlow view.flowOf view.table

def FlowView.Unique (view : FlowView) : Prop :=
  ∀ pointer other flow, view.flowOf pointer = .ok flow → view.flowOf other = .ok flow → pointer = other

variable {view : FlowView} {pointer : Nat} {flow : Flow}

theorem flowOf_ok :
    view.flowOf pointer = .ok flow ↔ ∃ isBound, view.held pointer = some (flow, isBound) := by
  rw [FlowView.flowOf]
  split
  · next found isBound held => simp [held]
  · next held => simp [held]

theorem flowOf_view (m : Manager) : m.flowOf = m.flowView.flowOf := by
  funext pointer
  rw [Manager.flowOf, Manager.stream, FlowView.flowOf]
  change _ = match (m.streams pointer).map fun stream => (stream.flow, stream.isBoundAddr) with
    | some (flow, _) => Except.ok flow
    | none => Except.error Stop.dangling
  cases m.streams pointer <;> rfl

theorem add_flowOf_next {isBound} : (view.add flow isBound).flowOf view.next = .ok flow := by
  simp [FlowView.flowOf, FlowView.add]

theorem add_flowOf {isBound other} (apart : other ≠ view.next) :
    (view.add flow isBound).flowOf other = view.flowOf other := by
  simp only [FlowView.flowOf, FlowView.add, update_of_ne apart]

theorem drop_flowOf_ne {found} : (view.drop pointer flow).flowOf pointer ≠ .ok found := by
  intro isFound
  simp [FlowView.flowOf, FlowView.drop] at isFound

theorem drop_flowOf {other} (apart : other ≠ pointer) :
    (view.drop pointer flow).flowOf other = view.flowOf other := by
  simp only [FlowView.flowOf, FlowView.drop, update_of_ne apart]

theorem FlowView.Listed.add {isBound} (listed : view.Listed) : (view.add flow isBound).Listed := by
  have absent : ∀ found, view.flowOf view.next ≠ .ok found := by
    intro found isFound
    obtain ⟨isBound, held⟩ := flowOf_ok.mp isFound
    cases (listed.unused view.next (Nat.le_refl _)).symm.trans held
  refine ⟨fun pointer beyond => ?_,
    listed.indexes.insert absent add_flowOf_next fun _ apart => add_flowOf apart⟩
  have beyond : view.next + 1 ≤ pointer := beyond
  simp only [FlowView.add]
  rw [update_of_ne (by omega)]
  exact listed.unused pointer (by omega)

theorem FlowView.Listed.drop (listed : view.Listed) (has : view.flowOf pointer = .ok flow) :
    (view.drop pointer flow).Listed := by
  refine ⟨fun other beyond => ?_,
    listed.indexes.remove has (fun _ => drop_flowOf_ne) fun _ apart => drop_flowOf apart⟩
  simp only [FlowView.drop]
  by_cases same : other = pointer
  · rw [same, update_self]
  · rw [update_of_ne same]
    exact listed.unused other beyond

theorem FlowView.Unique.add {isBound} (unique : view.Unique)
    (isNew : ∀ pointer, view.flowOf pointer ≠ .ok flow) : (view.add flow isBound).Unique := by
  intro pointer other found first second
  by_cases firstNew : pointer = view.next
  · by_cases secondNew : other = view.next
    · exact firstNew.trans secondNew.symm
    · rw [firstNew, add_flowOf_next] at first
      rw [add_flowOf secondNew] at second
      cases first
      exact absurd second (isNew other)
  · rw [add_flowOf firstNew] at first
    by_cases secondNew : other = view.next
    · rw [secondNew, add_flowOf_next] at second
      cases second
      exact absurd first (isNew pointer)
    · rw [add_flowOf secondNew] at second
      exact unique pointer other found first second

theorem FlowView.Unique.drop (unique : view.Unique) : (view.drop pointer flow).Unique := by
  have stays : ∀ other found, (view.drop pointer flow).flowOf other = .ok found →
      view.flowOf other = .ok found := by
    intro other found isFound
    by_cases same : other = pointer
    · exact absurd isFound (same ▸ drop_flowOf_ne)
    · rwa [drop_flowOf same] at isFound
  intro first second found isFirst isSecond
  exact unique first second found (stays first found isFirst) (stays second found isSecond)

theorem FlowView.Listed.search {m : Manager} (listed : m.flowView.Listed) (flow : Flow) :
    (∃ pointer stream, m.streamHTSearch flow = .ok (some pointer) ∧ m.streams pointer = some stream ∧
        stream.flow = flow) ∨
      m.streamHTSearch flow = .ok none ∧ ∀ pointer, m.flowView.flowOf pointer ≠ .ok flow := by
  rw [Manager.streamHTSearch, flowOf_view]
  rcases listed.indexes.search flow with ⟨pointer, search, has⟩ | absent
  · obtain ⟨isBound, held⟩ := flowOf_ok.mp has
    obtain ⟨stream, isStream, same⟩ := Option.map_eq_some_iff.mp held
    exact .inl ⟨pointer, stream, search, isStream, congrArg Prod.fst same⟩
  · exact .inr absent

end Views

section Runs

variable {network : Network} {machine after : Machine} {cpu : Nat} {call : Call} {reply : Reply}

/-- A socket that is bound is not connected where the core has a stream already, and no stream with
an address of its own has one that a connection to its peer could get from a pool. -/
def ConnectsApart (network : Network) (machine : Machine) (cpu : Nat) : Call → Prop
  | .connect number addr _ _ => ∀ sockid daddr,
      checkConnect network (machine.cores cpu) number addr = .ok (.ok (sockid, daddr)) →
      let socket := (machine.cores cpu).smap sockid
      ∀ pointer stream, (machine.cores cpu).streams pointer = some stream →
        stream.flow.daddr = daddr.sAddr → stream.flow.dport = daddr.sinPort →
        if socket.bound then stream.flow.source ≠ socket.saddr
        else stream.isBoundAddr = false → ∀ pool ap,
          sourcePool network (machine.cores cpu).ap daddr.sAddr = .ok (some pool) →
          machine.pools pool = some ap → stream.flow.source ∉ ap.pool
  | _ => True

def KeepsApart (network : Network) (machine : Machine) (cpu : Nat) (call : Call) : Prop :=
  InitsIdle machine cpu call ∧ ConnectsApart network machine cpu call

theorem views_flowOf {pointer flow} (has : (machine.views cpu).flowOf pointer = .ok flow) :
    ∃ stream, (machine.cores cpu).streams pointer = some stream ∧ stream.flow = flow ∧
      (machine.views cpu).held pointer = some (flow, stream.isBoundAddr) := by
  obtain ⟨isBound, held⟩ := flowOf_ok.mp has
  obtain ⟨stream, isStream, same⟩ := Option.map_eq_some_iff.mp held
  cases same
  exact ⟨stream, isStream, rfl, held⟩

theorem views_flowOf_iff {pointer flow} : (machine.views cpu).flowOf pointer = .ok flow ↔
    ∃ stream, (machine.cores cpu).streams pointer = some stream ∧ stream.flow = flow := by
  constructor
  · intro has
    obtain ⟨stream, isStream, isFlow, -⟩ := views_flowOf has
    exact ⟨stream, isStream, isFlow⟩
  · rintro ⟨stream, isStream, rfl⟩
    exact flowOf_ok.mpr ⟨_, flowView_held isStream⟩

theorem Connects.isNew {number addr iss seen sockid daddr socket isDynBound pools made}
    (orderly : machine.Orderly network)
    (apart : ConnectsApart network machine cpu (.connect number addr iss seen))
    (connects : Connects network machine cpu number addr after sockid daddr socket isDynBound pools
      made) (pointer : Nat) :
    (machine.views cpu).flowOf pointer ≠
      .ok ⟨socket.saddr.sAddr, daddr.sAddr, socket.saddr.sinPort, daddr.sinPort⟩ := by
  intro has
  obtain ⟨stream, isStream, isFlow, held⟩ := views_flowOf has
  have differs := apart sockid daddr connects.checked pointer stream isStream (by rw [isFlow])
    (by rw [isFlow])
  have source : stream.flow.source = socket.saddr := by rw [isFlow]; rfl
  rcases bindAddress_cases connects.bound with ⟨isBound, -, rfl, -, -⟩ |
    ⟨notBound, -, pool, ap, result, isSource, isPool, ran, success, rfl, -⟩
  · rw [if_pos isBound] at differs
    exact differs source
  · rw [if_neg (by simp [notBound])] at differs
    obtain ⟨handedOut, holding⟩ := orderly
    obtain ⟨taken, member, isTaken, isNew, -⟩ := holding.take isPool sourceCall_fetches ran success
    simp only [isTaken, Option.getD_some] at source
    cases fromPool : stream.isBoundAddr with
    | false => exact differs fromPool pool ap isSource isPool (source ▸ member)
    | true =>
      -- the stream still holds what the same pool would have to hand out again
      rw [fromPool] at held
      obtain ⟨found, isFound, -, inUse⟩ := holding.holds held
      cases isSource.symm.trans isFound
      have same : Flow.source ⟨taken.sAddr, daddr.sAddr, taken.sinPort, daddr.sinPort⟩ = taken := rfl
      simp only [isTaken, Option.getD_some, same] at inUse
      exact isNew inUse

theorem step_listed (listed : ∀ core, (machine.views core).Listed)
    (done : machine.step network cpu call = .ok (reply, after)) (core : Nat) :
    (after.views core).Listed :=
  step_views FlowView.Listed (listed core) (fun listed held => listed.drop (flowOf_ok.mpr ⟨_, held⟩))
    (fun _ listed => ⟨listed.unused, listed.indexes⟩) (fun _ _ => FlowView.Listed.add)
    (fun _ => FlowView.Listed.add) done

theorem step_unique (orderly : machine.Orderly network) (listed : ∀ core, (machine.views core).Listed)
    (unique : ∀ core, (machine.views core).Unique) (apart : ConnectsApart network machine cpu call)
    (done : machine.step network cpu call = .ok (reply, after)) (core : Nat) :
    (after.views core).Unique := by
  refine step_views FlowView.Unique (unique core) (fun unique _ => unique.drop) (fun _ => id) ?_ ?_ done
  · rintro number addr iss seen sockid daddr socket isDynBound pools made rfl connects unique
    exact unique.add (connects.isNew orderly apart)
  · intro flow search unique
    rcases (listed cpu).search flow with ⟨found, stream, isFound, -⟩ | ⟨-, absent⟩
    · cases search.symm.trans isFound
    · exact unique.add absent

theorem start_flowOf (network : Network) (cpu pointer : Nat) (flow : Flow) :
    ((Machine.start network).views cpu).flowOf pointer ≠ .ok flow := nofun

theorem start_listed (network : Network) (cpu : Nat) : ((Machine.start network).views cpu).Listed :=
  ⟨fun _ _ => rfl, HashTable.indexes_empty (start_flowOf network cpu)⟩

theorem hashFlow_lt (flow : Flow) : hashFlow flow < numBinsFlows := by
  rw [hashFlow, UInt32.toNat_and]
  exact Nat.lt_of_le_of_lt Nat.and_le_right (by decide)

/-- In every run the table of a core has its streams and nothing else, each once and in the bin of
its flow, and a search finds a stream of the flow if there is one. -/
theorem flow_table_lists {steps : List (Nat × Call)}
    (done : (Machine.start network).run network steps = .ok machine) (cpu : Nat) :
    let m := machine.cores cpu
    (∀ bin, (m.tcpFlowTable bin).Nodup) ∧
      (∀ bin pointer, pointer ∈ m.tcpFlowTable bin ↔
        ∃ stream, m.streams pointer = some stream ∧ hashFlow stream.flow = bin) ∧
      ∀ flow, hashFlow flow < numBinsFlows ∧
        ((∃ pointer stream, m.streamHTSearch flow = .ok (some pointer) ∧
            m.streams pointer = some stream ∧ stream.flow = flow) ∨
          m.streamHTSearch flow = .ok none ∧
            ∀ pointer stream, m.streams pointer = some stream → stream.flow ≠ flow) := by
  intro m
  have listed : (machine.views cpu).Listed :=
    @run_keeps network (fun machine => ∀ core, (machine.views core).Listed) _ _ _ step_listed
      (start_listed network) done cpu
  refine ⟨listed.indexes.nodup, fun bin pointer => ?_, fun flow => ⟨hashFlow_lt flow, ?_⟩⟩
  · refine (listed.indexes.mem_iff bin pointer).trans ⟨?_, ?_⟩
    · rintro ⟨flow, has, isBin⟩
      obtain ⟨stream, isStream, rfl⟩ := views_flowOf_iff.mp has
      exact ⟨stream, isStream, isBin⟩
    · rintro ⟨stream, isStream, isBin⟩
      exact ⟨stream.flow, views_flowOf_iff.mpr ⟨stream, isStream, rfl⟩, isBin⟩
  · refine (listed.search flow).imp_right fun ⟨search, absent⟩ => ⟨search, ?_⟩
    intro pointer stream isStream isFlow
    exact absent pointer (views_flowOf_iff.mpr ⟨stream, isStream, isFlow⟩)

/-- On every core there is at most one stream for a connection, and the search finds just that. -/
theorem one_stream_each {steps : List (Nat × Call)} (home : network.ReturnsHome)
    (apart : Along network (KeepsApart network) (Machine.start network) steps)
    (done : (Machine.start network).run network steps = .ok machine) (cpu : Nat) (flow : Flow) :
    (∀ pointer other stream found, (machine.cores cpu).streams pointer = some stream →
        (machine.cores cpu).streams other = some found → stream.flow = flow → found.flow = flow →
        pointer = other) ∧
      ∀ pointer, (machine.cores cpu).streamHTSearch flow = .ok (some pointer) ↔
        ∃ stream, (machine.cores cpu).streams pointer = some stream ∧ stream.flow = flow := by
  obtain ⟨-, listed, unique⟩ : machine.Orderly network ∧ (∀ core, (machine.views core).Listed) ∧
      ∀ core, (machine.views core).Unique := by
    refine @run_preserves network (KeepsApart network) (fun machine => machine.Orderly network ∧
      (∀ core, (machine.views core).Listed) ∧ ∀ core, (machine.views core).Unique) _ _ _ ?_
      ⟨start_orderly network, start_listed network,
        fun cpu pointer _ flow has => absurd has (start_flowOf network cpu pointer flow)⟩ apart done
    rintro machine cpu call reply after ⟨orderly, listed, unique⟩ apart done
    exact ⟨step_orderly home orderly apart.1 done, step_listed listed done,
      step_unique orderly listed unique apart.2 done⟩
  refine ⟨fun pointer other stream found isStream isFound first second => ?_, fun pointer => ?_⟩
  · exact unique cpu pointer other flow (views_flowOf_iff.mpr ⟨stream, isStream, first⟩)
      (views_flowOf_iff.mpr ⟨found, isFound, second⟩)
  · rw [Manager.streamHTSearch, flowOf_view]
    exact ((listed cpu).indexes.search_iff fun item other => unique cpu item other flow).trans
      views_flowOf_iff

theorem single_queue : (1 : Int32) ≠ 0 := Int32.zero_ne_one.symm

def oneInterface : Network where
  rtable := [⟨htonl 0xFFFFFF00, htonl 0x0A000000, 24, 0⟩]
  gateway := none
  nifToEidx := [0]
  eths := [htonl 0x0A000001]
  numCpus := 1
  numQueues := 1
  endianCheck := false
  maxConcurrency := 2
  hasQueues := single_queue
  hasSockets := by decide
  ethsFit := by decide

theorem oneInterface_returnsHome : oneInterface.ReturnsHome := by
  intro daddr nif address route nonneg configured
  have isZero : nif = 0 := by
    by_cases fits : daddr &&& htonl 0xFFFFFF00 = htonl 0x0A000000
    · simp [getOutputInterface, oneInterface, fits] at route
      exact route.symm
    · simp [getOutputInterface, oneInterface, fits] at route
      omega
  subst isZero
  have isAddress : address = htonl 0x0A000001 := (Option.some.inj configured).symm
  subst isAddress
  decide +kernel

def boundTo : Option Address := some ⟨true, true, ⟨htonl 0x0A000001, htons 5000⟩⟩

def peer : Option Address := some ⟨true, true, ⟨htonl 0x0A000002, htons 80⟩⟩

def connecting : List (Nat × Call) :=
  [(0, .socket true true 0), (0, .setsockNonblock 0), (0, .bind 0 boundTo), (0, .connect 0 peer 0 [])]

theorem flow_table_lists_connected :
    ∃ machine stream, (Machine.start oneInterface).run oneInterface connecting = .ok machine ∧
      (machine.cores 0).streams 0 = some stream ∧
      0 ∈ (machine.cores 0).tcpFlowTable (hashFlow stream.flow) := by
  obtain ⟨machine, stream, ran, isStream⟩ : ∃ machine stream, (Machine.start oneInterface).run
      oneInterface connecting = .ok machine ∧ (machine.cores 0).streams 0 = some stream :=
    ⟨_, _, rfl, rfl⟩
  exact ⟨machine, stream, ran, isStream, ((flow_table_lists ran 0).2.1 _ 0).mpr ⟨stream, isStream, rfl⟩⟩

theorem one_stream_each_connected :
    ∃ machine, (Machine.start oneInterface).run oneInterface connecting = .ok machine ∧
      ∀ pointer, (machine.cores 0).streamHTSearch
          ⟨htonl 0x0A000001, htonl 0x0A000002, htons 5000, htons 80⟩ = .ok (some pointer) ↔
        ∃ stream, (machine.cores 0).streams pointer = some stream ∧
          stream.flow = ⟨htonl 0x0A000001, htonl 0x0A000002, htons 5000, htons 80⟩ := by
  obtain ⟨machine, ran⟩ : ∃ machine, (Machine.start oneInterface).run oneInterface connecting =
      .ok machine := ⟨_, rfl⟩
  refine ⟨machine, ran, (one_stream_each oneInterface_returnsHome ?_ ran 0 _).2⟩
  refine ⟨⟨trivial, trivial⟩, fun _ _ made => ?_⟩
  cases made
  refine ⟨⟨trivial, trivial⟩, fun _ _ marked => ?_⟩
  cases marked
  refine ⟨⟨trivial, trivial⟩, fun _ _ bound => ?_⟩
  cases bound
  exact ⟨⟨trivial, fun _ _ _ _ _ isStream => nomatch isStream⟩, fun _ _ _ => trivial⟩

theorem bound_twice_two_streams :
    ∃ machine first second, (Machine.start oneInterface).run oneInterface (connecting ++
        [(0, .socket true true 0), (0, .setsockNonblock 1), (0, .bind 1 boundTo),
          (0, .connect 1 peer 0 [])]) = .ok machine ∧
      (machine.cores 0).streams 0 = some first ∧ (machine.cores 0).streams 1 = some second ∧
      first.flow = second.flow ∧ first.socket = some 0 ∧ second.socket = some 1 ∧
      (machine.cores 0).streamHTSearch second.flow = .ok (some 0) :=
  ⟨_, _, _, rfl, rfl, rfl, rfl, rfl, rfl, rfl⟩

end Runs

end Mcc.Core
