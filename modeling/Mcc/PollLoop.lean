import Mathlib

/-!
The two event backends of the reactor, for the kernel's epoll and for that of mTCP, and the poll
states that they call back. A callback may ask for events, attach new poll states and destroy its
own or other ones, all while the backend is still going through a batch of events.
-/

namespace Mcc.PollLoop

inductive Flag where
  | epollin
  | epollout
  deriving Repr, DecidableEq

abbrev Mask := Finset Flag

structure PollState where
  eventsEpoll : Mask
  eventsRequested : Mask
  deriving DecidableEq

inductive Slot where
  | unused
  | live (state : PollState)
  | destroyed
  deriving DecidableEq

structure Loop (Id : Type) where
  slots : Id → Slot
  interest : Id → Option Mask
  failed : Bool
  dangling : Bool
  calls : List (Id × Flag)

open Loop

def Loop.start {Id : Type} : Loop Id where
  slots _ := .unused
  interest _ := none
  failed := false
  dangling := false
  calls := []

inductive Operation where
  | add
  | mod
  | del
  deriving Repr, DecidableEq

inductive Effect (Id : Type) where
  | attach (id : Id)
  | update (id : Id) (event : Mask)
  | forget (id : Id)

structure Entry (Id : Type) where
  id : Id
  events : Mask
  reaction : Flag → List (Effect Id)

inductive Backend where
  | epoll
  | mtcp
  deriving Repr, DecidableEq

def Backend.first : Backend → Flag
  | .epoll => .epollout
  | .mtcp => .epollin

def Backend.second : Backend → Flag
  | .epoll => .epollin
  | .mtcp => .epollout

section

variable {Id : Type} [DecidableEq Id]

def Loop.setState (l : Loop Id) (id : Id) (state : PollState) : Loop Id :=
  { l with slots := Function.update l.slots id (.live state) }

def Loop.epollCtl (l : Loop Id) (op : Operation) (id : Id) (events : Mask) : Loop Id :=
  match op, l.interest id with
  | .add, none | .mod, some _ => { l with interest := Function.update l.interest id (some events) }
  | .del, some _ => { l with interest := Function.update l.interest id none }
  | _, _ => { l with failed := true }

def Loop.update (l : Loop Id) (id : Id) (event : Mask) : Loop Id :=
  match l.slots id with
  | .live state =>
    let requested := state.eventsRequested ∪ event
    if state.eventsEpoll ∩ event = ∅ then
      let ctl : Operation := if state.eventsEpoll = ∅ then .add else .mod
      let events := state.eventsEpoll ∪ event
      (l.setState id ⟨events, requested⟩).epollCtl ctl id events
    else l.setState id { state with eventsRequested := requested }
  | _ => l

def Loop.forget (l : Loop Id) (id : Id) : Loop Id :=
  match l.slots id with
  | .live state =>
    let after := if state.eventsEpoll = ∅ then l else l.epollCtl .del id ∅
    { after with slots := Function.update after.slots id .destroyed }
  | _ => l

def Loop.attach (l : Loop Id) (id : Id) : Loop Id :=
  match l.slots id with
  | .unused => (l.setState id ⟨∅, ∅⟩).update id {.epollin, .epollout}
  | _ => l

def Effect.apply (l : Loop Id) : Effect Id → Loop Id
  | .attach id => l.attach id
  | .update id event => l.update id event
  | .forget id => l.forget id

def runEffects (l : Loop Id) (effects : List (Effect Id)) : Loop Id := effects.foldl Effect.apply l

def Loop.fires (l : Loop Id) (id : Id) (events : Mask) (event : Flag) : Bool :=
  match l.slots id with
  | .live state => decide (event ∈ state.eventsRequested ∩ events)
  | _ => false

def Loop.clear (l : Loop Id) (id : Id) (event : Flag) : Loop Id :=
  match l.slots id with
  | .live state =>
    { l.setState id { state with eventsRequested := state.eventsRequested.erase event } with
      calls := l.calls ++ [(id, event)] }
  | _ => l

def completeEpollEvent (l : Loop Id) (entry : Entry Id) (event : Flag) : Loop Id :=
  match l.slots entry.id with
  | .live _ =>
    if l.fires entry.id entry.events event then
      runEffects (l.clear entry.id event) (entry.reaction event)
    else l
  | _ => { l with dangling := true }

def eventsToRemove (l : Loop Id) (entry : Entry Id) : Mask :=
  match l.slots entry.id with
  | .live state => entry.events \ state.eventsRequested
  | _ => ∅

def removeEvents (l : Loop Id) (id : Id) (toRemove : Mask) : Loop Id :=
  match l.slots id with
  | .live state =>
    let events := state.eventsEpoll \ toRemove
    (l.setState id { state with eventsEpoll := events }).epollCtl
      (if events = ∅ then .del else .mod) id events
  | _ => { l with dangling := true }

/-- The body of the loop in `poll`. The mTCP backend has the removal of events compiled out. -/
def dispatch (backend : Backend) (l : Loop Id) (entry : Entry Id) : Loop Id :=
  match l.slots entry.id with
  | .live _ =>
    let toRemove := eventsToRemove l entry
    let after := completeEpollEvent (completeEpollEvent l entry backend.first) entry backend.second
    if backend = .epoll ∧ toRemove ≠ ∅ then removeEvents after entry.id toRemove else after
  | _ => { l with dangling := true }

def poll (backend : Backend) (l : Loop Id) (batch : List (Entry Id)) : Loop Id :=
  batch.foldl (dispatch backend) l

def Loop.Alive (l : Loop Id) (id : Id) : Prop := ∃ state, l.slots id = .live state

section

variable (l : Loop Id)

@[simp]
theorem epollCtl_slots (op : Operation) (id : Id) (events : Mask) :
    (l.epollCtl op id events).slots = l.slots := by
  unfold epollCtl
  split <;> rfl

@[simp]
theorem epollCtl_dangling (op : Operation) (id : Id) (events : Mask) :
    (l.epollCtl op id events).dangling = l.dangling := by
  unfold epollCtl
  split <;> rfl

@[simp]
theorem setState_slots (id other : Id) (state : PollState) :
    (l.setState id state).slots other = if other = id then .live state else l.slots other := by
  by_cases same : other = id
  · subst same
    simp [setState]
  · simp [setState, same]

@[simp]
theorem setState_dangling (id : Id) (state : PollState) :
    (l.setState id state).dangling = l.dangling := rfl

theorem update_slots (id : Id) (event : Mask) : (l.update id event).dangling = l.dangling ∧
      ((l.update id event).slots = l.slots ∨
        l.Alive id ∧ ∃ state, (l.update id event).slots = (l.setState id state).slots) := by
  unfold update
  split
  · rename_i state live
    dsimp only
    split
    · exact ⟨by simp, .inr ⟨⟨_, live⟩, _, epollCtl_slots _ _ _ _⟩⟩
    · exact ⟨rfl, .inr ⟨⟨_, live⟩, _, rfl⟩⟩
  · exact ⟨rfl, .inl rfl⟩

end

variable {l : Loop Id}

theorem update_alive {id other event} (alive : l.Alive other) : (l.update id event).Alive other := by
  obtain ⟨-, same | ⟨-, state, changed⟩⟩ := update_slots l id event
  · rw [Alive, same]
    exact alive
  · rw [Alive, changed, setState_slots]
    split
    · exact ⟨_, rfl⟩
    · exact alive

theorem update_destroyed {id other event} (gone : l.slots other = .destroyed) :
    (l.update id event).slots other = .destroyed := by
  obtain ⟨-, same | ⟨⟨_, live⟩, state, changed⟩⟩ := update_slots l id event
  · rw [same, gone]
  · rw [changed, setState_slots, if_neg, gone]
    rintro rfl
    cases live.symm.trans gone

theorem attach_slots (l : Loop Id) (id : Id) :
    (l.attach id).dangling = l.dangling ∧
      ∀ other, l.slots other ≠ .unused → (l.attach id).slots other = l.slots other := by
  unfold attach
  split
  · rename_i unused
    obtain ⟨dangling, same | ⟨-, state, changed⟩⟩ :=
      update_slots (l.setState id ⟨∅, ∅⟩) id {.epollin, .epollout}
    · refine ⟨dangling, fun other used => ?_⟩
      rw [same, setState_slots, if_neg]
      rintro rfl
      exact used unused
    · refine ⟨dangling, fun other used => ?_⟩
      have distinct : other ≠ id := by
        rintro rfl
        exact used unused
      rw [changed, setState_slots, if_neg distinct, setState_slots, if_neg distinct]
  · exact ⟨rfl, fun _ _ => rfl⟩

theorem forget_slots (l : Loop Id) (id : Id) :
    (l.forget id).dangling = l.dangling ∧ (l.Alive id → (l.forget id).slots id = .destroyed) ∧
      ∀ other ≠ id, (l.forget id).slots other = l.slots other := by
  unfold forget
  split
  · dsimp only
    split
    · exact ⟨rfl, fun _ => by simp, fun other distinct => by simp [distinct]⟩
    · exact ⟨epollCtl_dangling _ _ _ _, fun _ => by simp, fun other distinct => by simp [distinct]⟩
  · rename_i dead
    exact ⟨rfl, fun ⟨state, live⟩ => absurd live (dead state), fun _ _ => rfl⟩

@[simp]
theorem apply_dangling (l : Loop Id) (effect : Effect Id) : (effect.apply l).dangling = l.dangling := by
  cases effect with
  | attach id => exact (attach_slots l id).1
  | update id event => exact (update_slots l id event).1
  | forget id => exact (forget_slots l id).1

theorem apply_alive {id : Id} {effect : Effect Id} (alive : l.Alive id)
    (spares : effect ≠ .forget id) : (effect.apply l).Alive id := by
  cases effect with
  | attach other =>
    obtain ⟨state, live⟩ := alive
    exact ⟨state, ((attach_slots l other).2 id (by rw [live]; nofun)).trans live⟩
  | update other event => exact update_alive alive
  | forget other =>
    rw [Effect.apply, Alive, (forget_slots l other).2.2 id fun same => spares (by rw [same])]
    exact alive

theorem apply_destroyed {id} (effect : Effect Id) (gone : l.slots id = .destroyed) :
    (effect.apply l).slots id = .destroyed := by
  cases effect with
  | attach other => exact ((attach_slots l other).2 id (by rw [gone]; nofun)).trans gone
  | update other event => exact update_destroyed gone
  | forget other =>
    by_cases same : id = other
    · subst same
      rw [Effect.apply, Loop.forget, gone]
      exact gone
    · rw [Effect.apply, (forget_slots l other).2.2 id same, gone]

section

variable (effects : List (Effect Id))

theorem runEffects_destroyed {id} :
    ∀ {l}, l.slots id = .destroyed → (runEffects l effects).slots id = .destroyed := by
  induction effects with
  | nil => exact fun gone => gone
  | cons effect rest ih => exact fun gone => ih (apply_destroyed effect gone)

theorem runEffects_dangling : ∀ l : Loop Id, (runEffects l effects).dangling = l.dangling := by
  induction effects with
  | nil => exact fun _ => rfl
  | cons effect rest ih => exact fun l => (ih _).trans (apply_dangling l effect)

theorem runEffects_alive {id : Id} :
    ∀ {l : Loop Id}, l.Alive id → .forget id ∉ effects → (runEffects l effects).Alive id := by
  induction effects with
  | nil => exact fun alive _ => alive
  | cons effect rest ih =>
    intro l alive spared
    rw [List.mem_cons, not_or] at spared
    exact ih (apply_alive alive fun same => spared.1 same.symm) spared.2

theorem runEffects_forget {id : Id} : ∀ {l : Loop Id}, l.Alive id → .forget id ∈ effects →
      (runEffects l effects).slots id = .destroyed := by
  induction effects with
  | nil => exact fun _ listed => absurd listed List.not_mem_nil
  | cons effect rest ih =>
    intro l alive listed
    by_cases first : effect = .forget id
    · subst first
      exact runEffects_destroyed rest ((forget_slots l id).2.1 alive)
    · rcases List.mem_cons.mp listed with same | later
      · exact absurd same.symm first
      · exact ih (apply_alive alive first) later

end

theorem clear_slots (l : Loop Id) (id : Id) (event : Flag) :
    (l.clear id event).dangling = l.dangling ∧ (∀ other, l.Alive other → (l.clear id event).Alive other) ∧
      ∀ other, l.slots other = .destroyed → (l.clear id event).slots other = .destroyed := by
  unfold clear
  split
  · rename_i state live
    refine ⟨rfl, fun other alive => ?_, fun other gone => ?_⟩
    · rw [Alive, setState_slots]
      split
      · exact ⟨_, rfl⟩
      · exact alive
    · rw [setState_slots, if_neg, gone]
      rintro rfl
      cases live.symm.trans gone
  · exact ⟨rfl, fun _ alive => alive, fun _ gone => gone⟩

def Destroys (l : Loop Id) (entry : Entry Id) (event : Flag) (id : Id) : Prop :=
  l.fires entry.id entry.events event ∧ .forget id ∈ entry.reaction event

variable {entry : Entry Id} {event : Flag}

theorem complete_of_alive (own : l.Alive entry.id) : completeEpollEvent l entry event =
      if l.fires entry.id entry.events event then
        runEffects (l.clear entry.id event) (entry.reaction event)
      else l := by
  obtain ⟨state, live⟩ := own
  rw [completeEpollEvent, live]

omit [DecidableEq Id] in
theorem not_alive_iff {id} : ¬l.Alive id ↔ l.slots id = .unused ∨ l.slots id = .destroyed := by
  unfold Loop.Alive
  cases l.slots id <;> simp

theorem complete_of_dead (own : ¬l.Alive entry.id) :
    completeEpollEvent l entry event = { l with dangling := true } := by
  rcases not_alive_iff.mp own with slot | slot <;> rw [completeEpollEvent, slot]

theorem complete_dangling (own : l.Alive entry.id) :
    (completeEpollEvent l entry event).dangling = l.dangling := by
  rw [complete_of_alive own]
  split
  · rw [runEffects_dangling, (clear_slots l _ _).1]
  · rfl

theorem complete_alive {id} (own : l.Alive entry.id) (alive : l.Alive id)
    (spared : ¬Destroys l entry event id) : (completeEpollEvent l entry event).Alive id := by
  rw [complete_of_alive own]
  split
  · rename_i fires
    exact runEffects_alive _ ((clear_slots l _ _).2.1 id alive) fun listed => spared ⟨fires, listed⟩
  · exact alive

theorem complete_destroys {id} (own : l.Alive entry.id) (alive : l.Alive id)
    (destroys : Destroys l entry event id) :
    (completeEpollEvent l entry event).slots id = .destroyed := by
  rw [complete_of_alive own, if_pos destroys.1]
  exact runEffects_forget _ ((clear_slots l _ _).2.1 id alive) destroys.2

theorem complete_destroyed {id} (gone : l.slots id = .destroyed) :
    (completeEpollEvent l entry event).slots id = .destroyed := by
  by_cases own : l.Alive entry.id
  · rw [complete_of_alive own]
    split
    · exact runEffects_destroyed _ ((clear_slots l _ _).2.2 id gone)
    · exact gone
  · rw [complete_of_dead own]
    exact gone

theorem removeEvents_slots (l : Loop Id) (id : Id) (toRemove : Mask) :
    (∀ other, l.Alive other → (removeEvents l id toRemove).Alive other) ∧
      (∀ other, l.slots other = .destroyed → (removeEvents l id toRemove).slots other = .destroyed) ∧
      (l.Alive id → (removeEvents l id toRemove).dangling = l.dangling) ∧
      (¬l.Alive id → (removeEvents l id toRemove).dangling) := by
  unfold removeEvents
  split
  · rename_i state live
    refine ⟨fun other alive => ?_, fun other gone => ?_, fun _ => by simp,
      fun dead => absurd ⟨state, live⟩ dead⟩
    · rw [Alive, epollCtl_slots, setState_slots]
      split
      · exact ⟨_, rfl⟩
      · exact alive
    · rw [epollCtl_slots, setState_slots, if_neg, gone]
      rintro rfl
      cases live.symm.trans gone
  · rename_i dead
    exact ⟨fun _ alive => alive, fun _ gone => gone, fun ⟨state, live⟩ => absurd live (dead state),
      fun _ => rfl⟩

def between (backend : Backend) (l : Loop Id) (entry : Entry Id) : Loop Id :=
  completeEpollEvent l entry backend.first

def called (backend : Backend) (l : Loop Id) (entry : Entry Id) : Loop Id :=
  completeEpollEvent (between backend l entry) entry backend.second

variable {backend : Backend}

theorem dispatch_of_alive (own : l.Alive entry.id) : dispatch backend l entry =
      if backend = .epoll ∧ eventsToRemove l entry ≠ ∅ then
        removeEvents (called backend l entry) entry.id (eventsToRemove l entry)
      else called backend l entry := by
  obtain ⟨state, live⟩ := own
  rw [dispatch, live]
  rfl

theorem dispatch_of_dead (own : ¬l.Alive entry.id) :
    dispatch backend l entry = { l with dangling := true } := by
  rcases not_alive_iff.mp own with slot | slot <;> rw [dispatch, slot]

theorem dispatch_destroyed {id} (gone : l.slots id = .destroyed) :
    (dispatch backend l entry).slots id = .destroyed := by
  have after : (called backend l entry).slots id = .destroyed :=
    complete_destroyed (complete_destroyed gone)
  by_cases own : l.Alive entry.id
  · rw [dispatch_of_alive own]
    split
    · exact (removeEvents_slots _ _ _).2.1 id after
    · exact after
  · rw [dispatch_of_dead own]
    exact gone

theorem complete_dangling_stays (dangling : l.dangling) :
    (completeEpollEvent l entry event).dangling := by
  by_cases own : l.Alive entry.id
  · rw [complete_dangling own]
    exact dangling
  · rw [complete_of_dead own]

theorem removeEvents_dangling_stays {id toRemove} (dangling : l.dangling) :
    (removeEvents l id toRemove).dangling := by
  by_cases own : l.Alive id
  · rw [(removeEvents_slots l id toRemove).2.2.1 own]
    exact dangling
  · exact (removeEvents_slots l id toRemove).2.2.2 own

theorem dispatch_dangling_stays (dangling : l.dangling) : (dispatch backend l entry).dangling := by
  by_cases own : l.Alive entry.id
  · have after : (called backend l entry).dangling :=
      complete_dangling_stays (complete_dangling_stays dangling)
    rw [dispatch_of_alive own]
    split
    · exact removeEvents_dangling_stays after
    · exact after
  · rw [dispatch_of_dead own]

theorem poll_dangling_stays (batch : List (Entry Id)) :
    ∀ {l}, l.dangling → (poll backend l batch).dangling := by
  induction batch with
  | nil => exact fun dangling => dangling
  | cons entry rest ih => exact fun dangling => ih (dispatch_dangling_stays dangling)

theorem poll_destroyed {id} (batch : List (Entry Id)) :
    ∀ {l}, l.slots id = .destroyed → id ∈ batch.map (·.id) → (poll backend l batch).dangling := by
  induction batch with
  | nil => exact fun _ listed => absurd listed List.not_mem_nil
  | cons entry rest ih =>
    intro l gone listed
    rcases List.mem_cons.mp listed with rfl | later
    · have dead : ¬l.Alive entry.id := not_alive_iff.mpr (.inr gone)
      have now : (dispatch backend l entry).dangling := by rw [dispatch_of_dead dead]
      exact poll_dangling_stays rest now
    · exact ih (dispatch_destroyed gone) later

/-- No callback of an entry destroys a poll state that is used after it: one later in the batch, or
its own, which is used after the first callback and, if events are removed, after the second. -/
structure Spares (backend : Backend) (l : Loop Id) (entry : Entry Id) (rest : List (Entry Id)) :
    Prop where
  first : ∀ id, Destroys l entry backend.first id → id ≠ entry.id ∧ id ∉ rest.map (·.id)
  second : ∀ id, Destroys (between backend l entry) entry backend.second id →
    (backend = .epoll ∧ eventsToRemove l entry ≠ ∅ → id ≠ entry.id) ∧ id ∉ rest.map (·.id)

def Considerate (backend : Backend) (l : Loop Id) : List (Entry Id) → Prop
  | [] => True
  | entry :: rest =>
    Spares backend l entry rest ∧ Considerate backend (dispatch backend l entry) rest

theorem Spares.keeps {rest} (spares : Spares backend l entry rest) (own : l.Alive entry.id) :
    (dispatch backend l entry).dangling = l.dangling ∧
      ∀ later ∈ rest, l.Alive later.id → (dispatch backend l entry).Alive later.id := by
  have survives : (between backend l entry).Alive entry.id :=
    complete_alive own own fun destroys => (spares.first _ destroys).1 rfl
  have quiet : (called backend l entry).dangling = l.dangling :=
    (complete_dangling survives).trans (complete_dangling own)
  have kept : ∀ later ∈ rest, l.Alive later.id → (called backend l entry).Alive later.id := by
    intro later listed alive
    have listed := List.mem_map_of_mem (f := (·.id)) listed
    refine complete_alive survives (complete_alive own alive fun destroys => ?_) fun destroys => ?_
    · exact (spares.first _ destroys).2 listed
    · exact (spares.second _ destroys).2 listed
  rw [dispatch_of_alive own]
  split
  · rename_i removes
    have alive : (called backend l entry).Alive entry.id :=
      complete_alive survives survives fun destroys => (spares.second _ destroys).1 removes rfl
    have slots := removeEvents_slots (called backend l entry) entry.id (eventsToRemove l entry)
    exact ⟨(slots.2.2.1 alive).trans quiet, fun later listed before =>
      slots.1 _ (kept later listed before)⟩
  · exact ⟨quiet, kept⟩

theorem called_destroyed {id} (own : l.Alive entry.id)
    (gone : (called backend l entry).slots id = .destroyed) :
    (dispatch backend l entry).slots id = .destroyed := by
  rw [dispatch_of_alive own]
  split
  · exact (removeEvents_slots _ _ _).2.1 id gone
  · exact gone

theorem called_dangling (own : l.Alive entry.id) (dangling : (called backend l entry).dangling) :
    (dispatch backend l entry).dangling := by
  rw [dispatch_of_alive own]
  split
  · exact removeEvents_dangling_stays dangling
  · exact dangling

theorem spares_of_safe {rest} (own : l.Alive entry.id) (alive : ∀ later ∈ rest, l.Alive later.id)
    (safe : (poll backend (dispatch backend l entry) rest).dangling = false) :
    Spares backend l entry rest := by
  have quiet : ¬(dispatch backend l entry).dangling := fun dangling =>
    Bool.noConfusion (safe.symm.trans (poll_dangling_stays rest dangling))
  have unused : ∀ id, (called backend l entry).slots id = .destroyed → id ∉ rest.map (·.id) :=
    fun id gone listed => Bool.noConfusion
      (safe.symm.trans (poll_destroyed rest (called_destroyed own gone) listed))
  have known : ∀ id ∈ rest.map (·.id), l.Alive id := by
    intro id listed
    obtain ⟨later, there, rfl⟩ := List.mem_map.mp listed
    exact alive later there
  have first : ∀ id, Destroys l entry backend.first id → id ≠ entry.id ∧ id ∉ rest.map (·.id) := by
    intro id destroys
    constructor
    · rintro rfl
      have dead : ¬(between backend l entry).Alive entry.id :=
        not_alive_iff.mpr (.inr (complete_destroys own own destroys))
      refine quiet (called_dangling own ?_)
      rw [called, complete_of_dead dead]
    · intro listed
      exact unused id (complete_destroyed (complete_destroys own (known id listed) destroys)) listed
  have survives : (between backend l entry).Alive entry.id :=
    complete_alive own own fun destroys => (first _ destroys).1 rfl
  refine ⟨first, fun id destroys => ⟨fun removes => ?_, fun listed => ?_⟩⟩
  · rintro rfl
    have dead : ¬(called backend l entry).Alive entry.id :=
      not_alive_iff.mpr (.inr (complete_destroys survives survives destroys))
    refine quiet ?_
    rw [dispatch_of_alive own, if_pos removes]
    exact (removeEvents_slots _ _ _).2.2.2 dead
  · have alive := complete_alive own (known id listed) fun early => (first id early).2 listed
    exact unused id (complete_destroys survives alive destroys) listed

/-- A batch uses only live poll states exactly if no callback destroys one that is used after it. -/
theorem poll_uses_live_iff (backend : Backend) (l : Loop Id) (batch : List (Entry Id))
    (registered : ∀ entry ∈ batch, l.Alive entry.id) (clean : l.dangling = false) :
    (poll backend l batch).dangling = false ↔ Considerate backend l batch := by
  induction batch generalizing l with
  | nil => exact ⟨fun _ => trivial, fun _ => clean⟩
  | cons entry rest ih =>
    have own : l.Alive entry.id := registered entry (List.mem_cons_self ..)
    have alive : ∀ later ∈ rest, l.Alive later.id :=
      fun later listed => registered later (List.mem_cons_of_mem _ listed)
    have tail : Spares backend l entry rest →
        ((poll backend (dispatch backend l entry) rest).dangling = false ↔
          Considerate backend (dispatch backend l entry) rest) := by
      intro spares
      obtain ⟨quiet, kept⟩ := spares.keeps own
      exact ih _ (fun later listed => kept later listed (alive later listed)) (quiet.trans clean)
    constructor
    · intro safe
      have spares := spares_of_safe own alive safe
      exact ⟨spares, (tail spares).mp safe⟩
    · rintro ⟨spares, considerate⟩
      exact (tail spares).mpr considerate

theorem close_in_last_callback_safe :
    (poll .mtcp ((Loop.start : Loop Nat).attach 0)
      [⟨0, {.epollout}, fun _ => [.forget 0, .attach 1]⟩]).dangling = false := by
  refine (poll_uses_live_iff .mtcp _ _ ?_ ?_).mpr ⟨⟨?_, ?_⟩, trivial⟩
  · intro entry listed
    obtain rfl := List.mem_singleton.mp listed
    exact ⟨⟨{.epollin, .epollout}, {.epollin, .epollout}⟩, by decide⟩
  · decide
  · rintro id ⟨fires, -⟩
    exact absurd fires (by decide)
  · rintro id -
    exact ⟨nofun, List.not_mem_nil⟩

theorem close_in_first_callback_dangles : (poll .epoll ((Loop.start : Loop Nat).attach 0)
        [⟨0, {.epollin, .epollout}, fun _ => [.forget 0]⟩]).dangling = true ∧
      (poll .mtcp ((Loop.start : Loop Nat).attach 0)
        [⟨0, {.epollin}, fun _ => [.forget 0]⟩, ⟨0, {.epollout}, fun _ => []⟩]).dangling = true := by
  decide

end

end Mcc.PollLoop
