import Mcc.PollLoop

/-!
The bookkeeping of the epoll backend: what a poll state asks for, what the backend believes that the
kernel watches, and what the kernel does watch. `poll` decides which events to drop before it calls
back and drops them afterwards, so a callback can ask in vain for an event that is being dropped.
-/

namespace Mcc.PollLoop

open Finset

section

variable {Id : Type} [DecidableEq Id]

def registered (events : Mask) : Option Mask := if events = ∅ then none else some events

structure Consistent (l : Loop Id) : Prop where
  live : ∀ id state, l.slots id = .live state →
    state.eventsRequested ⊆ state.eventsEpoll ∧ l.interest id = registered state.eventsEpoll
  dead : ∀ id, ¬l.Alive id → l.interest id = none
  working : l.failed = false

omit [DecidableEq Id] in
theorem start_consistent : Consistent (Loop.start : Loop Id) :=
  ⟨fun _ _ live => Slot.noConfusion live, fun _ _ => rfl, rfl⟩

def Loop.assign (l : Loop Id) (id : Id) (state : PollState) : Loop Id :=
  { l with
    slots := Function.update l.slots id (.live state)
    interest := Function.update l.interest id (registered state.eventsEpoll) }

variable {l : Loop Id}

theorem Consistent.assign (consistent : Consistent l) (id : Id) (state : PollState)
    (covered : state.eventsRequested ⊆ state.eventsEpoll) : Consistent (l.assign id state) := by
  refine ⟨fun other found isLive => ?_, fun other gone => ?_, consistent.working⟩
  · by_cases same : other = id
    · subst same
      simp only [Loop.assign, Function.update_self, Slot.live.injEq] at isLive ⊢
      exact ⟨isLive ▸ covered, by rw [isLive]⟩
    · simp only [Loop.assign, Function.update_of_ne same] at isLive ⊢
      exact consistent.live other found isLive
  · by_cases same : other = id
    · subst same
      exact absurd ⟨state, by simp [Loop.assign]⟩ gone
    · simp only [Loop.assign, Loop.Alive, Function.update_of_ne same] at gone ⊢
      exact consistent.dead other gone

/-- A mask that `update` handles right: all of it is watched already, or nothing of it. -/
def Fits (l : Loop Id) (id : Id) (event : Mask) : Prop :=
  event ≠ ∅ ∧ ∀ state, l.slots id = .live state →
    event ⊆ state.eventsEpoll ∨ state.eventsEpoll ∩ event = ∅

theorem epollCtl_registered {id op before} (after : Mask) (interest : l.interest id = registered before)
    (right : op = if before = ∅ then .add else if after = ∅ then .del else .mod)
    (filled : before = ∅ → after ≠ ∅) :
    l.epollCtl op id after = { l with interest := Function.update l.interest id (registered after) } := by
  unfold Loop.epollCtl
  by_cases empty : before = ∅
  · simp only [registered, empty, if_true] at interest right
    rw [interest, right, registered, if_neg (filled empty)]
  · by_cases last : after = ∅
    · simp only [registered, empty, last, if_true, if_false] at interest right
      rw [interest, right, registered, if_pos last]
    · simp only [registered, empty, last, if_false] at interest right
      rw [interest, right, registered, if_neg last]

variable {state : PollState}

section

variable (consistent : Consistent l)
include consistent

theorem update_eq {id event} (isLive : l.slots id = .live state) (fits : Fits l id event) :
    l.update id event = l.assign id ⟨state.eventsEpoll ∪ event, state.eventsRequested ∪ event⟩ := by
  obtain ⟨-, interest⟩ := consistent.live id state isLive
  obtain ⟨filled, either⟩ := fits
  have more : state.eventsEpoll ∪ event ≠ ∅ := by
    rw [ne_eq, union_eq_empty]
    exact fun empty => filled empty.2
  rw [Loop.update, isLive]
  dsimp only
  by_cases apart : state.eventsEpoll ∩ event = ∅
  · rw [if_pos apart]
    exact epollCtl_registered _ (l := l.setState id _) interest (by simp only [more, if_false])
      (fun _ => more)
  · rw [if_neg apart]
    have inside := (either state isLive).resolve_right apart
    have same : state.eventsEpoll ∪ event = state.eventsEpoll := Finset.union_eq_left.mpr inside
    rw [Loop.assign, same, ← interest, Function.update_eq_self]
    rfl

theorem update_consistent {id event} (fits : Fits l id event) : Consistent (l.update id event) := by
  by_cases alive : l.Alive id
  · obtain ⟨state, isLive⟩ := alive
    rw [update_eq consistent isLive fits]
    exact consistent.assign _ _ (union_subset_union_left (consistent.live id state isLive).1)
  · rcases not_alive_iff.mp alive with slot | slot <;> rw [Loop.update, slot] <;> exact consistent

theorem attach_consistent (id : Id) : Consistent (l.attach id) := by
  unfold Loop.attach
  split
  · rename_i unused
    have same : l.interest id = registered ∅ := by
      rw [consistent.dead id (not_alive_iff.mpr (.inl unused))]
      rfl
    have fresh : l.setState id ⟨∅, ∅⟩ = l.assign id ⟨∅, ∅⟩ := by
      rw [Loop.assign, ← same, Function.update_eq_self]
      rfl
    have before : Consistent (l.setState id ⟨∅, ∅⟩) := by
      rw [fresh]
      exact consistent.assign _ _ (Finset.Subset.refl _)
    refine update_consistent before ⟨by decide, fun state isLive => .inr ?_⟩
    rw [setState_slots, if_pos rfl, Slot.live.injEq] at isLive
    rw [← isLive, empty_inter]
  · exact consistent

theorem forget_consistent (id : Id) : Consistent (l.forget id) := by
  unfold Loop.forget
  split
  · rename_i state isLive
    obtain ⟨-, interest⟩ := consistent.live id state isLive
    have gone : (if state.eventsEpoll = ∅ then l else l.epollCtl .del id ∅) =
        { l with interest := Function.update l.interest id none } := by
      split
      · rename_i empty
        rw [empty] at interest
        have absent : l.interest id = none := interest
        rw [← absent, Function.update_eq_self]
      · rename_i filled
        exact epollCtl_registered _ interest (by simp [filled]) (fun empty => absurd empty filled)
    rw [gone]
    refine ⟨fun other found live => ?_, fun other dead => ?_, consistent.working⟩
    · have distinct : other ≠ id := by
        rintro rfl
        simp at live
      simp only [Function.update_of_ne distinct] at live ⊢
      exact consistent.live other found live
    · by_cases same : other = id
      · subst same
        simp
      · simp only [Loop.Alive, Function.update_of_ne same] at dead ⊢
        exact consistent.dead other dead
  · exact consistent

theorem clear_consistent (id : Id) (event : Flag) : Consistent (l.clear id event) := by
  unfold Loop.clear
  split
  · rename_i state isLive
    obtain ⟨covered, interest⟩ := consistent.live id state isLive
    have same : l.setState id { state with eventsRequested := state.eventsRequested.erase event } =
        l.assign id { state with eventsRequested := state.eventsRequested.erase event } := by
      rw [Loop.assign, ← interest, Function.update_eq_self]
      rfl
    rw [same]
    exact { consistent.assign id { state with eventsRequested := state.eventsRequested.erase event }
      ((erase_subset _ _).trans covered) with }
  · exact consistent

theorem removeEvents_consistent {id toRemove}
    (isLive : l.slots id = .live state) (watched : state.eventsEpoll ≠ ∅)
    (unrequested : Disjoint state.eventsRequested toRemove) :
    Consistent (removeEvents l id toRemove) := by
  obtain ⟨covered, interest⟩ := consistent.live id state isLive
  rw [removeEvents, isLive]
  have same := epollCtl_registered (state.eventsEpoll \ toRemove)
    (l := l.setState id { state with eventsEpoll := state.eventsEpoll \ toRemove }) interest rfl
    (fun empty => absurd empty watched)
  rw [if_neg watched] at same
  dsimp only
  rw [same]
  exact consistent.assign _ _ (Finset.subset_sdiff.mpr ⟨covered, unrequested⟩)

end

def AllFit (l : Loop Id) : List (Effect Id) → Prop
  | [] => True
  | effect :: rest =>
    (∀ id event, effect = .update id event → Fits l id event) ∧ AllFit (effect.apply l) rest

theorem apply_consistent (consistent : Consistent l) {effect : Effect Id}
    (fits : ∀ id event, effect = .update id event → Fits l id event) : Consistent (effect.apply l) := by
  cases effect with
  | attach id => exact attach_consistent consistent id
  | update id event => exact update_consistent consistent (fits id event rfl)
  | forget id => exact forget_consistent consistent id

structure Keeps (barred : Mask) (before after : PollState) : Prop where
  watched : before.eventsEpoll ⊆ after.eventsEpoll
  requested : before.eventsRequested ⊆ after.eventsRequested
  unrequested : Disjoint before.eventsRequested barred → Disjoint after.eventsRequested barred

theorem Keeps.refl (barred : Mask) (state : PollState) : Keeps barred state state :=
  ⟨Finset.Subset.refl _, Finset.Subset.refl _, id⟩

variable {barred : Mask}

theorem Keeps.trans {first second third} (one : Keeps barred first second)
    (two : Keeps barred second third) : Keeps barred first third :=
  ⟨one.watched.trans two.watched, one.requested.trans two.requested,
    fun before => two.unrequested (one.unrequested before)⟩

theorem update_keeps {self id event} (isLive : l.slots self = .live state)
    (apart : id = self → Disjoint event barred) :
    ∃ after, (l.update id event).slots self = .live after ∧ Keeps barred state after := by
  by_cases same : self = id
  · subst same
    have disjoint : Disjoint state.eventsRequested barred →
        Disjoint (state.eventsRequested ∪ event) barred :=
      fun before => Finset.disjoint_union_left.mpr ⟨before, apart rfl⟩
    rw [Loop.update, isLive]
    dsimp only
    split
    · exact ⟨_, by rw [epollCtl_slots, setState_slots, if_pos rfl],
        ⟨subset_union_left, subset_union_left, disjoint⟩⟩
    · exact ⟨_, (setState_slots _ _ _ _).trans (if_pos rfl),
        ⟨Finset.Subset.refl _, subset_union_left, disjoint⟩⟩
  · refine ⟨state, ?_, .refl _ _⟩
    rcases (update_slots l id event).2 with kept | ⟨-, other, changed⟩
    · rw [kept, isLive]
    · rw [changed, setState_slots, if_neg same, isLive]

theorem apply_keeps {self : Id} (barred : Mask) {effect : Effect Id}
    (isLive : l.slots self = .live state) (spares : effect ≠ .forget self)
    (apart : ∀ event, effect = .update self event → Disjoint event barred) :
    ∃ after, (effect.apply l).slots self = .live after ∧ Keeps barred state after := by
  cases effect with
  | attach id =>
    refine ⟨state, ?_, .refl _ _⟩
    rw [Effect.apply, (attach_slots l id).2 self (by simp [isLive]), isLive]
  | update id event => exact update_keeps isLive fun same => apart event (by rw [same])
  | forget id =>
    refine ⟨state, ?_, .refl _ _⟩
    rw [Effect.apply, (forget_slots l id).2.2 self fun same => spares (by rw [same]), isLive]

theorem runEffects_keeps {self : Id} (barred : Mask) (effects : List (Effect Id)) :
    ∀ {l : Loop Id} {state : PollState}, l.slots self = .live state → .forget self ∉ effects →
      (∀ event, .update self event ∈ effects → Disjoint event barred) →
      ∃ after, (runEffects l effects).slots self = .live after ∧ Keeps barred state after := by
  induction effects with
  | nil => exact fun isLive _ _ => ⟨_, isLive, .refl _ _⟩
  | cons effect rest ih =>
    intro l state isLive spared apart
    rw [List.mem_cons, not_or] at spared
    obtain ⟨middle, there, one⟩ := apply_keeps barred isLive
      (fun same => spared.1 same.symm) (fun event is => apart event (is ▸ List.mem_cons_self ..))
    obtain ⟨after, last, two⟩ := ih there spared.2
      fun event listed => apart event (List.mem_cons_of_mem _ listed)
    exact ⟨after, last, one.trans two⟩

theorem runEffects_consistent (effects : List (Effect Id)) :
    ∀ {l : Loop Id}, Consistent l → AllFit l effects → Consistent (runEffects l effects) := by
  induction effects with
  | nil => exact fun consistent _ => consistent
  | cons effect rest ih =>
    exact fun consistent fit => ih (apply_consistent consistent fit.1) fit.2

variable {event : Flag}

theorem clear_slot {id} (isLive : l.slots id = .live state) : (l.clear id event).slots id =
      .live { state with eventsRequested := state.eventsRequested.erase event } := by
  rw [Loop.clear, isLive]
  exact (setState_slots _ _ _ _).trans (if_pos rfl)

def Completed (barred events : Mask) (event : Flag) (before after : PollState) : Prop :=
  event ∉ before.eventsRequested ∩ events ∧ after = before ∨
    event ∈ before.eventsRequested ∩ events ∧
      Keeps barred { before with eventsRequested := before.eventsRequested.erase event } after

theorem Completed.watched {events before after} (completed : Completed barred events event before after) :
    before.eventsEpoll ⊆ after.eventsEpoll := by
  rcases completed with ⟨-, rfl⟩ | ⟨-, keeps⟩
  · exact Finset.Subset.refl _
  · exact keeps.watched

variable {entry : Entry Id}

theorem complete_completed (consistent : Consistent l) (isLive : l.slots entry.id = .live state)
    (spared : .forget entry.id ∉ entry.reaction event)
    (allowed : l.fires entry.id entry.events event →
      AllFit (l.clear entry.id event) (entry.reaction event) ∧
        ∀ asked, .update entry.id asked ∈ entry.reaction event → Disjoint asked barred) :
    Consistent (completeEpollEvent l entry event) ∧
      ∃ after, (completeEpollEvent l entry event).slots entry.id = .live after ∧
        Completed barred entry.events event state after := by
  have fires : l.fires entry.id entry.events event =
      decide (event ∈ state.eventsRequested ∩ entry.events) := by
    rw [Loop.fires, isLive]
  rw [complete_of_alive ⟨state, isLive⟩]
  split
  · rename_i now
    obtain ⟨fit, apart⟩ := allowed now
    obtain ⟨after, afterLive, keeps⟩ := runEffects_keeps _ _ (clear_slot isLive) spared apart
    exact ⟨runEffects_consistent _ (clear_consistent consistent _ _) fit, after, afterLive,
      .inr ⟨of_decide_eq_true (fires ▸ now), keeps⟩⟩
  · rename_i never
    exact ⟨consistent, state, isLive, .inl ⟨fun both => never (fires.trans (decide_eq_true both)), rfl⟩⟩

/-- The callbacks of an entry make only updates that fit, and the one for reading, which comes last,
does not ask for an event that is about to be dropped. -/
structure AllowedEntry (l : Loop Id) (entry : Entry Id) : Prop where
  writing : l.fires entry.id entry.events .epollout →
    AllFit (l.clear entry.id .epollout) (entry.reaction .epollout)
  reading : (between .epoll l entry).fires entry.id entry.events .epollin →
    AllFit ((between .epoll l entry).clear entry.id .epollin) (entry.reaction .epollin) ∧
      ∀ asked, .update entry.id asked ∈ entry.reaction .epollin → Disjoint asked (eventsToRemove l entry)

theorem dropped_unrequested {middle after events} (writing : Completed ∅ events .epollout state middle)
    (reading : Completed (events \ state.eventsRequested) events .epollin middle after) :
    Disjoint after.eventsRequested (events \ state.eventsRequested) := by
  have first : ∀ event ∈ events \ state.eventsRequested, event ∈ middle.eventsRequested →
      event = .epollin := by
    intro event dropped asked
    rw [mem_sdiff] at dropped
    rcases writing with ⟨-, rfl⟩ | ⟨fired, -⟩
    · exact absurd asked dropped.2
    · cases event with
      | epollin => rfl
      | epollout => exact absurd (Finset.mem_inter.mp fired).1 dropped.2
  have here : ∀ event ∈ events \ state.eventsRequested, event ∈ events :=
    fun event dropped => (Finset.mem_sdiff.mp dropped).1
  rcases reading with ⟨quiet, rfl⟩ | ⟨-, keeps⟩
  · refine Finset.disjoint_left.mpr fun event asked dropped => quiet ?_
    obtain rfl := first event dropped asked
    exact Finset.mem_inter.mpr ⟨asked, here _ dropped⟩
  · refine keeps.unrequested (Finset.disjoint_left.mpr fun event asked dropped => ?_)
    obtain ⟨other, before⟩ := Finset.mem_erase.mp asked
    exact other (first event dropped before)

theorem dispatch_consistent (consistent : Consistent l) (isLive : l.slots entry.id = .live state)
    (reported : entry.events ⊆ state.eventsEpoll)
    (reentrant : ∀ event id, .forget id ∉ entry.reaction event) (allowed : AllowedEntry l entry) :
    Consistent (dispatch .epoll l entry) := by
  have toRemove : eventsToRemove l entry = entry.events \ state.eventsRequested := by
    rw [eventsToRemove, isLive]
  obtain ⟨one, middle, middleLive, writing⟩ :=
    complete_completed consistent isLive (reentrant _ _)
      fun fires => ⟨allowed.writing fires, fun _ _ => disjoint_empty_right _⟩
  obtain ⟨two, after, afterLive, reading⟩ :=
    complete_completed one middleLive (reentrant _ _) allowed.reading
  rw [dispatch_of_alive ⟨state, isLive⟩]
  split
  · rename_i removes
    refine removeEvents_consistent two afterLive ?_ ?_
    · obtain ⟨event, dropped⟩ := Finset.nonempty_iff_ne_empty.mpr removes.2
      rw [toRemove, mem_sdiff] at dropped
      exact ne_empty_of_mem (reading.watched (writing.watched (reported dropped.1)))
    · rw [toRemove] at reading ⊢
      exact dropped_unrequested writing reading
  · exact two

theorem complete_keeps_other {id} (own : l.Alive entry.id) (distinct : id ≠ entry.id)
    (isLive : l.slots id = .live state) (spared : .forget id ∉ entry.reaction event) :
    ∃ after, (completeEpollEvent l entry event).slots id = .live after ∧ Keeps ∅ state after := by
  rw [complete_of_alive own]
  split
  · have cleared : (l.clear entry.id event).slots id = .live state := by
      unfold Loop.clear
      split
      · exact (setState_slots _ _ _ _).trans ((if_neg distinct).trans isLive)
      · exact isLive
    exact runEffects_keeps _ _ cleared spared fun _ _ => disjoint_empty_right _
  · exact ⟨state, isLive, .refl _ _⟩

theorem dispatch_keeps_other {id} (own : l.Alive entry.id) (distinct : id ≠ entry.id)
    (isLive : l.slots id = .live state) (reentrant : ∀ event id, .forget id ∉ entry.reaction event) :
    ∃ after, (dispatch .epoll l entry).slots id = .live after ∧ Keeps ∅ state after := by
  obtain ⟨middle, middleLive, one⟩ := complete_keeps_other own distinct isLive (reentrant _ id)
  have survives : (between .epoll l entry).Alive entry.id :=
    complete_alive own own fun destroys => reentrant _ _ destroys.2
  obtain ⟨after, afterLive, two⟩ :=
    complete_keeps_other survives distinct middleLive (reentrant _ id)
  refine ⟨after, ?_, one.trans two⟩
  rw [dispatch_of_alive own]
  split
  · rw [removeEvents]
    split
    · rw [epollCtl_slots, setState_slots, if_neg distinct]
      exact afterLive
    · exact afterLive
  · exact afterLive

def Reported (l : Loop Id) (entry : Entry Id) : Prop :=
  ∃ state, l.slots entry.id = .live state ∧ entry.events ⊆ state.eventsEpoll

def AllowedBatch (l : Loop Id) : List (Entry Id) → Prop
  | [] => True
  | entry :: rest => AllowedEntry l entry ∧ AllowedBatch (dispatch .epoll l entry) rest

theorem dispatch_reported {later} (own : l.Alive entry.id)
    (distinct : later.id ≠ entry.id) (reentrant : ∀ event id, .forget id ∉ entry.reaction event)
    (reported : Reported l later) : Reported (dispatch .epoll l entry) later := by
  obtain ⟨state, isLive, inside⟩ := reported
  obtain ⟨after, afterLive, keeps⟩ := dispatch_keeps_other own distinct isLive reentrant
  exact ⟨after, afterLive, inside.trans keeps.watched⟩

theorem batch_consistent (batch : List (Entry Id)) :
    ∀ {l}, Consistent l → (batch.map (·.id)).Nodup →
      (∀ entry ∈ batch, ∀ event id, .forget id ∉ entry.reaction event) →
      (∀ entry ∈ batch, Reported l entry) → AllowedBatch l batch →
      Consistent (poll .epoll l batch) := by
  induction batch with
  | nil => exact fun consistent _ _ _ _ => consistent
  | cons entry rest ih =>
    intro l consistent distinct reentrant reported allowed
    rw [List.map_cons, List.nodup_cons] at distinct
    obtain ⟨state, isLive, inside⟩ := reported entry (List.mem_cons_self ..)
    have own := reentrant entry (List.mem_cons_self ..)
    refine ih (dispatch_consistent consistent isLive inside own allowed.1) distinct.2
      (fun later listed => reentrant later (List.mem_cons_of_mem _ listed)) ?_ allowed.2
    intro later listed
    refine dispatch_reported ⟨state, isLive⟩ ?_ own (reported later (List.mem_cons_of_mem _ listed))
    intro same
    exact distinct.1 (same ▸ List.mem_map_of_mem listed)

@[simp]
theorem epollCtl_calls (l : Loop Id) (op : Operation) (id : Id) (events : Mask) :
    (l.epollCtl op id events).calls = l.calls := by
  unfold Loop.epollCtl
  split <;> rfl

theorem update_calls (l : Loop Id) (id : Id) (event : Mask) : (l.update id event).calls = l.calls := by
  unfold Loop.update
  split
  · dsimp only
    split
    · exact epollCtl_calls _ _ _ _
    · rfl
  · rfl

theorem apply_calls (l : Loop Id) (effect : Effect Id) : (effect.apply l).calls = l.calls := by
  cases effect with
  | attach id =>
    rw [Effect.apply, Loop.attach]
    split
    · exact update_calls _ _ _
    · rfl
  | update id event => exact update_calls _ _ _
  | forget id =>
    rw [Effect.apply, Loop.forget]
    split
    · dsimp only
      split
      · rfl
      · exact epollCtl_calls _ _ _ _
    · rfl

theorem runEffects_calls (effects : List (Effect Id)) :
    ∀ l : Loop Id, (runEffects l effects).calls = l.calls := by
  induction effects with
  | nil => exact fun _ => rfl
  | cons effect rest ih => exact fun l => (ih _).trans (apply_calls l effect)

theorem complete_calls (own : l.Alive entry.id) :
    (completeEpollEvent l entry event).calls =
      if l.fires entry.id entry.events event then l.calls ++ [(entry.id, event)] else l.calls := by
  obtain ⟨state, isLive⟩ := own
  rw [complete_of_alive ⟨state, isLive⟩]
  split
  · rw [runEffects_calls, Loop.clear, isLive]
  · rfl

variable {call : Id × Flag}

theorem complete_calls_mono (known : call ∈ l.calls) :
    call ∈ (completeEpollEvent l entry event).calls := by
  by_cases own : l.Alive entry.id
  · rw [complete_calls own]
    split
    · exact List.mem_append_left _ known
    · exact known
  · rw [complete_of_dead own]
    exact known

theorem removeEvents_calls (l : Loop Id) (id : Id) (toRemove : Mask) :
    (removeEvents l id toRemove).calls = l.calls := by
  unfold removeEvents
  split
  · exact epollCtl_calls _ _ _ _
  · rfl

theorem called_calls (own : l.Alive entry.id) (known : call ∈ (called .epoll l entry).calls) :
    call ∈ (dispatch .epoll l entry).calls := by
  rw [dispatch_of_alive own]
  split
  · rw [removeEvents_calls]
    exact known
  · exact known

theorem dispatch_calls_mono (known : call ∈ l.calls) : call ∈ (dispatch .epoll l entry).calls := by
  by_cases own : l.Alive entry.id
  · exact called_calls own (complete_calls_mono (complete_calls_mono known))
  · rw [dispatch_of_dead own]
    exact known

theorem poll_calls_mono (batch : List (Entry Id)) :
    ∀ {l}, call ∈ l.calls → call ∈ (poll .epoll l batch).calls := by
  induction batch with
  | nil => exact fun known => known
  | cons entry rest ih => exact fun known => ih (dispatch_calls_mono known)

theorem dispatch_reports (isLive : l.slots entry.id = .live state)
    (requested : event ∈ state.eventsRequested) (reported : event ∈ entry.events)
    (reentrant : ∀ event id, .forget id ∉ entry.reaction event) :
    (entry.id, event) ∈ (dispatch .epoll l entry).calls := by
  have own : l.Alive entry.id := ⟨state, isLive⟩
  refine called_calls own ?_
  cases event with
  | epollout =>
    have fires : l.fires entry.id entry.events .epollout := by
      rw [Loop.fires, isLive]
      exact decide_eq_true (Finset.mem_inter.mpr ⟨requested, reported⟩)
    refine complete_calls_mono ?_
    rw [between, complete_calls own, Backend.first, if_pos fires]
    exact List.mem_append_right _ (List.mem_singleton_self _)
  | epollin =>
    have survives : ∃ middle, (between .epoll l entry).slots entry.id = .live middle ∧
        .epollin ∈ middle.eventsRequested := by
      rw [between, complete_of_alive own]
      split
      · obtain ⟨middle, middleLive, keeps⟩ := runEffects_keeps ∅ _ (clear_slot isLive)
          (reentrant _ _) fun _ _ => disjoint_empty_right _
        refine ⟨middle, middleLive, keeps.requested ?_⟩
        exact Finset.mem_erase.mpr ⟨nofun, requested⟩
      · exact ⟨state, isLive, requested⟩
    obtain ⟨middle, middleLive, still⟩ := survives
    have fires : (between .epoll l entry).fires entry.id entry.events .epollin := by
      rw [Loop.fires, middleLive]
      exact decide_eq_true (Finset.mem_inter.mpr ⟨still, reported⟩)
    rw [called, complete_calls ⟨middle, middleLive⟩, Backend.second, if_pos fires]
    exact List.mem_append_right _ (List.mem_singleton_self _)

theorem poll_reports (entry : Entry Id) (batch : List (Entry Id)) :
    ∀ {l} {state}, (batch.map (·.id)).Nodup →
      (∀ entry ∈ batch, l.Alive entry.id ∧ ∀ event id, .forget id ∉ entry.reaction event) →
      l.slots entry.id = .live state → event ∈ state.eventsRequested →
      entry ∈ batch → event ∈ entry.events → (entry.id, event) ∈ (poll .epoll l batch).calls := by
  induction batch with
  | nil => exact fun _ _ _ _ listed _ => absurd listed List.not_mem_nil
  | cons first rest ih =>
    intro l state distinct usable isLive requested listed reported
    rw [List.map_cons, List.nodup_cons] at distinct
    obtain ⟨own, reentrant⟩ := usable first (List.mem_cons_self ..)
    rcases List.mem_cons.mp listed with rfl | later
    · exact poll_calls_mono rest (dispatch_reports isLive requested reported reentrant)
    · have apart : ∀ other ∈ rest, other.id ≠ first.id := fun other there same =>
        distinct.1 (same ▸ List.mem_map_of_mem there)
      obtain ⟨after, afterLive, keeps⟩ :=
        dispatch_keeps_other own (apart entry later) isLive reentrant
      refine ih distinct.2 (fun other there => ?_) afterLive (keeps.requested requested) later reported
      obtain ⟨⟨found, foundLive⟩, spared⟩ := usable other (List.mem_cons_of_mem _ there)
      obtain ⟨kept, keptLive, -⟩ :=
        dispatch_keeps_other own (apart other there) foundLive reentrant
      exact ⟨⟨kept, keptLive⟩, spared⟩

structure Report (Id : Type) where
  entries : List (Entry Id)
  distinct : (entries.map (·.id)).Nodup
  reentrant : ∀ entry ∈ entries, ∀ event id, .forget id ∉ entry.reaction event

def epollWait (l : Loop Id) (report : Report Id) : List (Entry Id) :=
  report.entries.filterMap fun entry =>
    (l.interest entry.id).map fun interest => { entry with events := entry.events ∩ interest }

omit [DecidableEq Id] in
theorem mem_epollWait {report} (listed : entry ∈ epollWait l report) :
    ∃ ready ∈ report.entries, ∃ interest,
      l.interest ready.id = some interest ∧ entry = { ready with events := ready.events ∩ interest } := by
  obtain ⟨ready, there, is⟩ := List.mem_filterMap.mp listed
  obtain ⟨interest, known, rfl⟩ := Option.map_eq_some_iff.mp is
  exact ⟨ready, there, interest, known, rfl⟩

omit [DecidableEq Id] in
theorem epollWait_distinct (l : Loop Id) (report : Report Id) :
    ((epollWait l report).map (·.id)).Nodup := by
  refine List.Nodup.sublist ?_ report.distinct
  unfold epollWait
  generalize report.entries = entries
  induction entries with
  | nil => exact List.Sublist.slnil
  | cons entry rest ih =>
    rw [List.filterMap_cons]
    split
    · exact ih.cons _
    · rename_i found is
      obtain ⟨interest, -, rfl⟩ := Option.map_eq_some_iff.mp is
      exact ih.cons_cons _

omit [DecidableEq Id] in
theorem epollWait_reported (consistent : Consistent l) {report} (listed : entry ∈ epollWait l report) :
    Reported l entry ∧ ∀ event id, .forget id ∉ entry.reaction event := by
  obtain ⟨ready, there, interest, known, rfl⟩ := mem_epollWait listed
  refine ⟨?_, report.reentrant ready there⟩
  by_cases alive : l.Alive ready.id
  · obtain ⟨state, isLive⟩ := alive
    have watched := (consistent.live ready.id state isLive).2
    rw [known, registered] at watched
    split at watched
    · cases watched
    · cases watched
      exact ⟨state, isLive, Finset.inter_subset_right⟩
  · cases known.symm.trans (consistent.dead ready.id alive)

inductive Call (Id : Type) where
  | attach (id : Id)
  | update (id : Id) (event : Mask)
  | poll (report : Report Id)
  | forget (id : Id)

def Call.run (l : Loop Id) : Call Id → Loop Id
  | .attach id => l.attach id
  | .update id event => l.update id event
  | .poll report => PollLoop.poll .epoll l (epollWait l report)
  | .forget id => l.forget id

def runCalls (l : Loop Id) (calls : List (Call Id)) : Loop Id := calls.foldl Call.run l

def AllowedCall (l : Loop Id) : Call Id → Prop
  | .update id event => Fits l id event
  | .poll report => AllowedBatch l (epollWait l report)
  | _ => True

def AllowedCalls (l : Loop Id) : List (Call Id) → Prop
  | [] => True
  | call :: rest => AllowedCall l call ∧ AllowedCalls (call.run l) rest

theorem call_consistent (consistent : Consistent l) {call} (allowed : AllowedCall l call) :
    Consistent (call.run l) := by
  cases call with
  | attach id => exact attach_consistent consistent id
  | update id event => exact update_consistent consistent allowed
  | poll report =>
    exact batch_consistent _ consistent (epollWait_distinct l report)
      (fun _ listed => (epollWait_reported consistent listed).2)
      (fun _ listed => (epollWait_reported consistent listed).1) allowed
  | forget id => exact forget_consistent consistent id

theorem calls_consistent (calls : List (Call Id)) :
    ∀ {l}, Consistent l → AllowedCalls l calls → Consistent (runCalls l calls) := by
  induction calls with
  | nil => exact fun consistent _ => consistent
  | cons call rest ih =>
    exact fun consistent allowed => ih (call_consistent consistent allowed.1) allowed.2

theorem ready_reports (consistent : Consistent l) {report ready}
    (there : ready ∈ report.entries) (isLive : l.slots ready.id = .live state)
    (requested : event ∈ state.eventsRequested) (now : event ∈ ready.events) :
    (ready.id, event) ∈ (Call.run l (.poll report)).calls := by
  obtain ⟨covered, interest⟩ := consistent.live ready.id state isLive
  have watched : event ∈ state.eventsEpoll := covered requested
  rw [registered, if_neg (ne_empty_of_mem watched)] at interest
  have listed : { ready with events := ready.events ∩ state.eventsEpoll } ∈ epollWait l report :=
    List.mem_filterMap.mpr ⟨ready, there, by rw [interest]; rfl⟩
  refine poll_reports { ready with events := ready.events ∩ state.eventsEpoll } _
    (epollWait_distinct l report) (fun other found => ?_) isLive requested listed
    (Finset.mem_inter.mpr ⟨now, watched⟩)
  obtain ⟨⟨state, isLive, -⟩, reentrant⟩ := epollWait_reported consistent found
  exact ⟨⟨state, isLive⟩, reentrant⟩

/-- The bookkeeping is right and requested events are reported if updates fit and no callback for
reading asks for an event that is being dropped. -/
theorem interest_bookkeeping (calls : List (Call Id))
    (allowed : AllowedCalls (Loop.start : Loop Id) calls) :
    Consistent (runCalls Loop.start calls) ∧
      ∀ report : Report Id, ∀ ready ∈ report.entries, ∀ state,
        (runCalls Loop.start calls).slots ready.id = .live state →
        ∀ event ∈ state.eventsRequested ∩ ready.events,
          (ready.id, event) ∈ (runCalls Loop.start (calls ++ [.poll report])).calls := by
  have consistent := calls_consistent calls start_consistent allowed
  refine ⟨consistent, fun report ready there state isLive event both => ?_⟩
  rw [runCalls, List.foldl_append]
  obtain ⟨requested, now⟩ := Finset.mem_inter.mp both
  exact ready_reports consistent there isLive requested now

def readyForBoth (reaction : Flag → List (Effect Nat))
    (reentrant : ∀ event id, .forget id ∉ reaction event) : Report Nat where
  entries := [⟨0, {.epollin, .epollout}, reaction⟩]
  distinct := List.nodup_singleton _
  reentrant entry listed := by
    obtain rfl := List.mem_singleton.mp listed
    exact reentrant

theorem attach_poll_update_consistent :
    Consistent (runCalls (Loop.start : Loop Nat)
      [.attach 0, .poll (readyForBoth (fun _ => []) fun _ _ => List.not_mem_nil),
        .update 0 {.epollin}]) := by
  have polled : (runCalls (Loop.start : Loop Nat)
      [.attach 0, .poll (readyForBoth (fun _ => []) fun _ _ => List.not_mem_nil)]).slots 0 =
        .live ⟨{.epollin, .epollout}, ∅⟩ := by decide
  have quiet : AllowedCall ((Loop.start : Loop Nat).attach 0)
      (.poll (readyForBoth (fun _ => []) fun _ _ => List.not_mem_nil)) := by
    rw [AllowedCall, show epollWait ((Loop.start : Loop Nat).attach 0)
      (readyForBoth (fun _ => []) fun _ _ => List.not_mem_nil) =
        [⟨0, {.epollin, .epollout}, fun _ => []⟩] from rfl]
    exact ⟨⟨fun _ => trivial, fun _ => ⟨trivial, fun _ listed => absurd listed List.not_mem_nil⟩⟩, trivial⟩
  refine (interest_bookkeeping [.attach 0, .poll (readyForBoth (fun _ => []) _),
    .update 0 {.epollin}] ⟨trivial, quiet, ⟨by decide, fun state isLive => .inl ?_⟩, trivial⟩).1
  cases polled.symm.trans isLive
  decide

theorem request_while_dropping_is_lost :
    let loop := runCalls (Loop.start : Loop Nat)
      [.attach 0, .poll (readyForBoth (fun _ => []) fun _ _ => List.not_mem_nil), .update 0 {.epollin},
        .poll (readyForBoth (fun | .epollin => [.update 0 {.epollout}] | .epollout => [])
          (by intro event id; cases event <;> simp))]
    loop.slots 0 = .live ⟨{.epollin}, {.epollout}⟩ ∧ loop.interest 0 = some {.epollin} := by
  decide

end

end Mcc.PollLoop
