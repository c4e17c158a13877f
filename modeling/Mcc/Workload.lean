import Mcc.Machine

/-!
The master of the distributed client. Workers connect, report with a note that they are online, send
statistics and disconnect; when all of them are online the master sends each the workload command.
A connection has an identifier of its own until its note, which replaces it by the number of the
worker.
-/

namespace Mcc.Workload

/-- What `ParseFromString` leaves in the report; after a failure it is used as it is. -/
structure Report where
  clientId : UInt32
  connected : UInt32
  txPackets : UInt32
  rxPackets : UInt32
  hasNote : Bool
  deriving Repr, DecidableEq

structure Conn where
  id : Nat
  opened : Bool
  noted : Bool
  deriving Repr, DecidableEq

structure Sent where
  worker : Nat
  id : Nat
  online : Nat
  deriving Repr, DecidableEq

structure Master (workers : UInt32) where
  workersOnline : UInt32
  workerConns : Vector (Option Nat) workers.toNat
  workerDesc : Vector Int32 workers.toNat
  connected : Vector Int32 workers.toNat
  txPackets : Vector Int32 workers.toNat
  rxPackets : Vector Int32 workers.toNat
  conns : Nat → Conn
  nrConns : Nat
  sent : List Sent

open Master

variable {workers : UInt32}

def Master.start (workers : UInt32) : Master workers where
  workersOnline := 0
  workerConns := Vector.replicate _ none
  workerDesc := Vector.replicate _ 0
  connected := Vector.replicate _ 0
  txPackets := Vector.replicate _ 0
  rxPackets := Vector.replicate _ 0
  conns _ := { id := 0, opened := false, noted := false }
  nrConns := 0
  sent := []

def Master.online (m : Master workers) : Nat := m.workerDesc.count 1

def write {α : Type} {size : Nat} (vector : Vector α size) (index : Nat) (value : α) :
    Except Fault (Vector α size) :=
  if inside : index < size then .ok (vector.set index value) else .error .outOfBounds

theorem write_ok {α : Type} {size : Nat} (vector : Vector α size) {index : Nat} (value : α)
    (inside : index < size) : write vector index value = .ok (vector.set index value) := by
  simp [write, inside]

def Master.accept (m : Master workers) : Master workers :=
  { m with
    conns := Function.update m.conns m.nrConns { id := m.nrConns + 1, opened := true, noted := false }
    nrConns := m.nrConns + 1 }

def Master.whenDisconnect (m : Master workers) (con : Nat) : Except Fault (Master workers) := do
  let id := (m.conns con).id
  let connected ← write m.connected id 0
  let txPackets ← write m.txPackets id 0
  let rxPackets ← write m.rxPackets id 0
  let workerDesc ← write m.workerDesc id 0
  return { m with
    connected, txPackets, rxPackets, workerDesc
    workersOnline := m.workersOnline - 1
    conns := Function.update m.conns con { m.conns con with opened := false } }

def Master.distribute (m : Master workers) : Master workers :=
  { m with
    sent := m.sent ++ (List.range workers.toNat).filterMap fun worker =>
      match m.workerConns[worker]?.join with
      | none => none
      | some con =>
        if (m.conns con).opened then some { worker, id := (m.conns con).id, online := m.online }
        else none }

def Master.enrol (m : Master workers) (con client : Nat) : Except Fault (Master workers) := do
  let workerDesc ← write m.workerDesc client 1
  let workerConns ← write m.workerConns client (some con)
  return { m with
    workerDesc, workerConns
    workersOnline := m.workersOnline + 1
    conns := Function.update m.conns con { m.conns con with id := client, noted := true } }

def Master.onMessage (m : Master workers) (con : Nat) (r : Report) : Except Fault (Master workers) :=
  if r.hasNote then do
    let m ← m.enrol con r.clientId.toNat
    return if m.workersOnline ≥ workers then m.distribute else m
  else do
    let connected ← write m.connected r.clientId.toNat r.connected.toInt32
    let txPackets ← write m.txPackets r.clientId.toNat r.txPackets.toInt32
    let rxPackets ← write m.rxPackets r.clientId.toNat r.rxPackets.toInt32
    return { m with connected, txPackets, rxPackets }

inductive Event where
  | connect
  | message (con : Nat) (r : Report)
  | disconnect (con : Nat)
  deriving Repr, DecidableEq

def Master.step (m : Master workers) : Event → Except Fault (Master workers)
  | .connect => return m.accept
  | .message con r => if (m.conns con).opened then m.onMessage con r else return m
  | .disconnect con => if (m.conns con).opened then m.whenDisconnect con else return m

def Master.run (m : Master workers) : List Event → Except Fault (Master workers)
  | [] => return m
  | event :: rest => do
      let m ← m.step event
      m.run rest

/-- Every worker has been sent the command once, at its own connection and with all workers online,
or none has and they have not been online together. -/
structure Kept (m : Master workers) : Prop where
  counted : m.workersOnline.toNat = m.online
  once : m.sent = [] ∨ m.sent.map Sent.worker = List.range workers.toNat
  ready : ∀ sent ∈ m.sent, sent.online = workers.toNat ∧ sent.id = sent.worker
  complete : m.online = workers.toNat → m.sent.map Sent.worker = List.range workers.toNat

/-- A note is the first of its connection, names a worker that is not online, and does not complete
the workers for a second time; a report names a worker; only a connection that has sent its note
disconnects. -/
def Event.Proper (m : Master workers) : Event → Prop
  | .connect => True
  | .message con r => (m.conns con).opened = true →
      r.clientId < workers ∧
        (r.hasNote = true → (m.conns con).noted = false ∧
          m.workerDesc[r.clientId.toNat]? ≠ some 1 ∧
            (m.sent = [] ∨ m.workersOnline.toNat + 1 < workers.toNat))
  | .disconnect con => (m.conns con).opened = true → (m.conns con).noted = true

def ProperRun (m : Master workers) : List Event → Prop
  | [] => True
  | event :: rest => event.Proper m ∧ ∀ next, m.step event = .ok next → ProperRun next rest

structure Linked (m : Master workers) : Prop where
  held : ∀ (worker : Nat) (inside : worker < workers.toNat), m.workerDesc[worker] = 1 →
    ∃ con, m.workerConns[worker] = some con ∧ (m.conns con).opened = true ∧
      (m.conns con).noted = true ∧ (m.conns con).id = worker
  holds : ∀ con, (m.conns con).opened = true → (m.conns con).noted = true →
    ∃ inside : (m.conns con).id < workers.toNat, m.workerDesc[(m.conns con).id] = 1 ∧
      m.workerConns[(m.conns con).id] = some con
  fresh : ∀ con, m.nrConns ≤ con → (m.conns con).opened = false

structure Sound (m : Master workers) : Prop extends Kept m, Linked m

theorem start_online (workers : UInt32) : (Master.start workers).online = 0 := by
  simp [Master.start, online, Vector.count_replicate]

theorem start_sound (workers : UInt32) : Sound (Master.start workers) where
  counted := (start_online workers).symm
  once := .inl rfl
  ready _ member := nomatch member
  complete all := by
    rw [start_online] at all
    simp [Master.start, ← all]
  held worker inside isOn := by simp [Master.start] at isOn
  holds con isOpen := by simp [Master.start] at isOpen
  fresh _ _ := rfl

theorem online_le (m : Master workers) : m.online ≤ workers.toNat := Vector.count_le_size

variable {m : Master workers}

theorem distribute_sent (linked : Linked m) (all : m.online = workers.toNat) :
    m.distribute.sent = m.sent ++ (List.range workers.toNat).map fun worker =>
      { worker, id := worker, online := workers.toNat } := by
  have isOn (worker) (inside : worker < workers.toNat) : m.workerDesc[worker] = 1 :=
    (Vector.count_eq_size.mp all _ (Vector.getElem_mem inside)).symm
  simp only [distribute]
  congr 1
  rw [← List.filterMap_eq_map]
  refine List.filterMap_congr fun worker member => ?_
  have inside := List.mem_range.mp member
  obtain ⟨con, isCon, isOpen, _, id⟩ := linked.held worker inside (isOn worker inside)
  simp [inside, isCon, isOpen, id, all]

section

variable (sound : Sound m)
include sound

theorem accept_sound : Sound m.accept := by
  have other (con) (old : con ≠ m.nrConns) : m.accept.conns con = m.conns con :=
    Function.update_of_ne old ..
  have new : m.accept.conns m.nrConns = { id := m.nrConns + 1, opened := true, noted := false } :=
    Function.update_self ..
  refine { sound with held := ?_, holds := ?_, fresh := ?_ }
  · intro worker inside isOn
    obtain ⟨con, isCon, isOpen, noted, id⟩ := sound.held worker inside isOn
    have old : con ≠ m.nrConns := by
      rintro rfl
      rw [sound.fresh _ (Nat.le_refl _)] at isOpen
      cases isOpen
    exact ⟨con, isCon, by rwa [other con old], by rwa [other con old], by rwa [other con old]⟩
  · intro con isOpen noted
    by_cases old : con = m.nrConns
    · subst old
      rw [new] at noted
      cases noted
    · rw [other con old] at isOpen noted ⊢
      exact sound.holds con isOpen noted
  · intro con beyond
    have beyond : m.nrConns + 1 ≤ con := beyond
    rw [other con (by omega)]
    exact sound.fresh con (by omega)

theorem whenDisconnect_sound {con : Nat} (isOpen : (m.conns con).opened = true)
    (noted : (m.conns con).noted = true) : ∃ next, m.whenDisconnect con = .ok next ∧ Sound next := by
  obtain ⟨inside, isOn, holder⟩ := sound.holds con isOpen noted
  obtain ⟨next, isNext⟩ : ∃ next, next = { m with
    connected := m.connected.set (m.conns con).id 0
    txPackets := m.txPackets.set (m.conns con).id 0
    rxPackets := m.rxPackets.set (m.conns con).id 0
    workerDesc := m.workerDesc.set (m.conns con).id 0
    workersOnline := m.workersOnline - 1
    conns := Function.update m.conns con { m.conns con with opened := false } } := ⟨_, rfl⟩
  have steps : m.whenDisconnect con = .ok next := by
    simp only [whenDisconnect, write_ok _ _ inside, isNext]
    rfl
  have conns (other) (distinct : other ≠ con) : next.conns other = m.conns other := by
    rw [isNext]
    exact Function.update_of_ne distinct ..
  have closed : (next.conns con).opened = false := by
    rw [isNext]
    simp
  have desc (worker) (small : worker < workers.toNat) (distinct : worker ≠ (m.conns con).id) :
      next.workerDesc[worker] = m.workerDesc[worker] := by
    simp [isNext, Ne.symm distinct]
  have off : next.workerDesc[(m.conns con).id] = 0 := by
    simp [isNext]
  have positive : 0 < m.online := by
    rw [online, Vector.count_pos_iff]
    exact isOn ▸ Vector.getElem_mem inside
  have fewer : next.online + 1 = m.online := by
    simp only [online, isNext] at positive ⊢
    rw [Vector.count_set inside, isOn]
    simp
    omega
  refine ⟨next, steps, ?_, ?_, ?_, ?_⟩
  · have same : next.sent = m.sent := by rw [isNext]
    refine ⟨?_, same ▸ sound.once, same ▸ sound.ready, ?_⟩
    · have counted := sound.counted
      have : next.workersOnline = m.workersOnline - 1 := by rw [isNext]
      rw [this, UInt32.toNat_sub_of_le _ _ (by rw [UInt32.le_iff_toNat_le, counted]; exact positive)]
      simp
      omega
    · intro all
      have := online_le m
      omega
  · intro worker small isOn
    have distinct : worker ≠ (m.conns con).id := by
      rintro rfl
      rw [off] at isOn
      cases isOn
    rw [desc worker small distinct] at isOn
    obtain ⟨other, isOther, opened, hasNote, id⟩ := sound.held worker small isOn
    have another : other ≠ con := by
      rintro rfl
      exact distinct id.symm
    refine ⟨other, ?_, by rwa [conns other another], by rwa [conns other another],
      by rwa [conns other another]⟩
    simpa [isNext] using isOther
  · intro other opened hasNote
    have another : other ≠ con := by
      rintro rfl
      rw [closed] at opened
      cases opened
    rw [conns other another] at opened hasNote ⊢
    obtain ⟨small, otherOn, isOther⟩ := sound.holds other opened hasNote
    have distinct : (m.conns other).id ≠ (m.conns con).id := by
      intro same
      have both : some other = some con := by
        rw [← isOther, ← holder]
        simp only [same]
      exact another (Option.some.inj both)
    refine ⟨small, by rwa [desc _ small distinct], ?_⟩
    simpa [isNext] using isOther
  · intro other beyond
    have beyond : m.nrConns ≤ other := by simpa [isNext] using beyond
    by_cases same : other = con
    · rw [same, closed]
    · rw [conns other same]
      exact sound.fresh other beyond

theorem enrol_linked {con client : Nat} (isOpen : (m.conns con).opened = true)
    (first : (m.conns con).noted = false) (inside : client < workers.toNat)
    (off : m.workerDesc[client] ≠ 1) :
    ∃ next, m.enrol con client = .ok next ∧ Linked next ∧ next.sent = m.sent ∧
      next.online = m.online + 1 ∧ next.workersOnline.toNat = next.online := by
  obtain ⟨next, isNext⟩ : ∃ next, next = { m with
    workerDesc := m.workerDesc.set client 1
    workerConns := m.workerConns.set client (some con)
    workersOnline := m.workersOnline + 1
    conns := Function.update m.conns con { m.conns con with id := client, noted := true } } := ⟨_, rfl⟩
  have steps : m.enrol con client = .ok next := by
    simp only [enrol, write_ok _ _ inside, isNext]
    rfl
  have conns (other) (distinct : other ≠ con) : next.conns other = m.conns other := by
    rw [isNext]
    exact Function.update_of_ne distinct ..
  have here : next.conns con = { m.conns con with id := client, noted := true } := by
    rw [isNext]
    exact Function.update_self ..
  have desc (worker) (small : worker < workers.toNat) (distinct : worker ≠ client) :
      next.workerDesc[worker] = m.workerDesc[worker] := by
    simp [isNext, Ne.symm distinct]
  have held (worker) (small : worker < workers.toNat) (distinct : worker ≠ client) :
      next.workerConns[worker] = m.workerConns[worker] := by
    simp [isNext, Ne.symm distinct]
  have more : next.online = m.online + 1 := by
    simp only [Master.online, isNext]
    rw [Vector.count_set inside]
    simp [off]
  refine ⟨next, steps, ⟨?_, ?_, ?_⟩, by rw [isNext], more, ?_⟩
  · intro worker small isOn
    by_cases distinct : worker = client
    · subst distinct
      exact ⟨con, by simp [isNext], by simp [here, isOpen], by simp [here], by simp [here]⟩
    · rw [desc worker small distinct] at isOn
      obtain ⟨other, isOther, opened, hasNote, id⟩ := sound.held worker small isOn
      have another : other ≠ con := by
        rintro rfl
        rw [first] at hasNote
        cases hasNote
      exact ⟨other, by rwa [held worker small distinct], by rwa [conns other another],
        by rwa [conns other another], by rwa [conns other another]⟩
  · intro other opened hasNote
    by_cases same : other = con
    · subst same
      refine ⟨by simpa [here] using inside, ?_, ?_⟩
      · simp [isNext]
      · simp [isNext]
    · rw [conns other same] at opened hasNote
      obtain ⟨small, otherOn, isOther⟩ := sound.holds other opened hasNote
      -- The worker of another connection is online, and this one was not.
      have distinct : (m.conns other).id ≠ client := by
        rintro rfl
        exact off otherOn
      simp only [conns other same]
      exact ⟨small, by rwa [desc _ small distinct], by rwa [held _ small distinct]⟩
  · intro other beyond
    have beyond : m.nrConns ≤ other := by simpa [isNext] using beyond
    by_cases same : other = con
    · rw [sound.fresh con (same ▸ beyond)] at isOpen
      cases isOpen
    · rw [conns other same]
      exact sound.fresh other beyond
  · have counted := sound.counted
    have bound := online_le next
    have small := workers.toNat_lt
    have : next.workersOnline = m.workersOnline + 1 := by rw [isNext]
    rw [this, UInt32.toNat_add, more, counted]
    exact Nat.mod_eq_of_lt (by simp; omega)

theorem note_sound {con : Nat} {r : Report} (isOpen : (m.conns con).opened = true)
    (first : (m.conns con).noted = false) (inside : r.clientId < workers)
    (off : m.workerDesc[r.clientId.toNat]? ≠ some 1)
    (single : m.sent = [] ∨ m.workersOnline.toNat + 1 < workers.toNat) (isNote : r.hasNote = true) :
    ∃ next, m.onMessage con r = .ok next ∧ Sound next := by
  have small : r.clientId.toNat < workers.toNat := UInt32.lt_iff_toNat_lt.mp inside
  obtain ⟨next, enrolled, linked, sent, more, counted⟩ :=
    enrol_linked sound isOpen first small (by simpa [small] using off)
  have before := sound.counted
  have bound := online_le next
  have result : m.onMessage con r =
      .ok (if next.workersOnline ≥ workers then next.distribute else next) := by
    simp only [onMessage, isNote, if_true, enrolled]
    rfl
  refine ⟨_, result, ?_⟩
  split
  · rename_i enough
    have enough : workers.toNat ≤ next.workersOnline.toNat := UInt32.le_iff_toNat_le.mp enough
    have all : next.online = workers.toNat := by omega
    have empty : next.sent = [] := sent.trans (single.resolve_right (by omega))
    have out := distribute_sent linked all
    rw [empty, List.nil_append] at out
    have each : next.distribute.sent.map Sent.worker = List.range workers.toNat := by
      simp [out, Function.comp_def]
    refine ⟨⟨counted, .inr each, ?_, fun _ => each⟩, { linked with }⟩
    intro one member
    rw [out] at member
    obtain ⟨worker, _, rfl⟩ := List.mem_map.mp member
    exact ⟨rfl, rfl⟩
  · rename_i few
    have few : next.workersOnline.toNat < workers.toNat := by
      rw [ge_iff_le, UInt32.le_iff_toNat_le] at few
      omega
    exact ⟨⟨counted, sent ▸ sound.once, sent ▸ sound.ready, fun all => by omega⟩, linked⟩

theorem report_sound {con : Nat} {r : Report} (inside : r.clientId < workers)
    (isReport : r.hasNote = false) : ∃ next, m.onMessage con r = .ok next ∧ Sound next := by
  have small : r.clientId.toNat < workers.toNat := UInt32.lt_iff_toNat_lt.mp inside
  refine ⟨{ m with
    connected := m.connected.set r.clientId.toNat r.connected.toInt32
    txPackets := m.txPackets.set r.clientId.toNat r.txPackets.toInt32
    rxPackets := m.rxPackets.set r.clientId.toNat r.rxPackets.toInt32 }, ?_, ?_⟩
  · simp only [onMessage, isReport, write_ok _ _ small]
    rfl
  · exact { sound with }

theorem step_sound (event : Event) (proper : event.Proper m) :
    ∃ next, m.step event = .ok next ∧ Sound next := by
  cases event with
  | connect => exact ⟨m.accept, rfl, accept_sound sound⟩
  | message con r =>
    simp only [Master.step]
    split
    · rename_i isOpen
      obtain ⟨inside, note⟩ := proper isOpen
      cases isNote : r.hasNote with
      | true =>
        obtain ⟨first, off, single⟩ := note isNote
        exact note_sound sound isOpen first inside off single isNote
      | false => exact report_sound sound inside isNote
    · exact ⟨m, rfl, sound⟩
  | disconnect con =>
    simp only [Master.step]
    split
    · rename_i isOpen
      exact whenDisconnect_sound sound isOpen (proper isOpen)
    · exact ⟨m, rfl, sound⟩

theorem run_sound (events : List Event) (proper : ProperRun m events) :
    ∃ last, m.run events = .ok last ∧ Sound last := by
  induction events generalizing m with
  | nil => exact ⟨m, rfl, sound⟩
  | cons event rest ih =>
    obtain ⟨next, step, nextSound⟩ := step_sound sound event proper.1
    obtain ⟨last, run, lastSound⟩ := ih nextSound (proper.2 next step)
    refine ⟨last, ?_, lastSound⟩
    rw [Master.run, step]
    exact run

end

instance (m : Master workers) (event : Event) : Decidable (event.Proper m) :=
  match event with
  | .connect => .isTrue trivial
  | .message con r => inferInstanceAs (Decidable ((m.conns con).opened = true →
      r.clientId < workers ∧
        (r.hasNote = true → (m.conns con).noted = false ∧
          m.workerDesc[r.clientId.toNat]? ≠ some 1 ∧
            (m.sent = [] ∨ m.workersOnline.toNat + 1 < workers.toNat))))
  | .disconnect con =>
    inferInstanceAs (Decidable ((m.conns con).opened = true → (m.conns con).noted = true))

instance decidableProperRun (m : Master workers) : (events : List Event) → Decidable (ProperRun m events)
  | [] => .isTrue trivial
  | event :: rest =>
    match step : m.step event with
    | .error _ => decidable_of_iff (event.Proper m) ⟨fun proper => ⟨proper, fun next done => by
        rw [step] at done
        cases done⟩, And.left⟩
    | .ok next =>
      have := decidableProperRun next rest
      decidable_of_iff (event.Proper m ∧ ProperRun next rest) (by simp [ProperRun, step])

/-- No index leaves the vectors, the counter is right, and the command goes out once to each worker
and with all of them online. -/
theorem workload_sent_once (workers : UInt32) (events : List Event)
    (proper : ProperRun (Master.start workers) events) :
    ∃ m, (Master.start workers).run events = .ok m ∧ Kept m := by
  obtain ⟨m, run, sound⟩ := run_sound (start_sound workers) events proper
  exact ⟨m, run, sound.toKept⟩

theorem workload_two_workers :
    ∃ m, (Master.start 2).run [.connect, .connect, .message 0 ⟨0, 0, 0, 0, true⟩,
      .message 1 ⟨1, 0, 0, 0, true⟩, .message 0 ⟨0, 9, 8, 7, false⟩, .disconnect 1, .disconnect 0,
      .connect, .message 2 ⟨0, 0, 0, 0, true⟩] = .ok m ∧ Kept m :=
  workload_sent_once 2 _ (by decide +kernel)

/-- A worker that does not exist; a connection that closes before its note; a note that comes twice;
and a worker that comes back. -/
theorem workload_goes_wrong :
    (Master.start 1).run [.connect, .message 0 ⟨1, 0, 0, 0, true⟩] = .error .outOfBounds ∧
    (Master.start 1).run [.connect, .disconnect 0] = .error .outOfBounds ∧
    ((Master.start 2).run [.connect, .disconnect 0]).toOption.map
      (fun m => (m.workersOnline, m.online)) = some (2 ^ 32 - 1, 0) ∧
    ((Master.start 2).run [.connect, .message 0 ⟨0, 0, 0, 0, true⟩,
      .message 0 ⟨0, 0, 0, 0, true⟩]).toOption.map (fun m => (m.workersOnline, m.online, m.sent)) =
        some (2, 1, [⟨0, 0, 1⟩]) ∧
    ((Master.start 1).run [.connect, .message 0 ⟨0, 0, 0, 0, true⟩, .disconnect 0, .connect,
      .message 1 ⟨0, 0, 0, 0, true⟩]).toOption.map (fun m => m.sent.map Sent.worker) = some [0, 0] := by
  refine ⟨rfl, rfl, ?_, ?_, ?_⟩ <;> decide +kernel

end Mcc.Workload
