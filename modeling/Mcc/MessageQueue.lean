import Mcc.BoundedFifo
import Mcc.Progress

/-!
The message queue between two cores, `smp.h` and `smp.cc`: requests go from the staging vector of
the submitting core through a ring to the processing core, and their completions come back the same
way. The two rings are boost's `spsc_queue`, taken as bounded FIFOs.
-/

namespace Mcc.MessageQueue

open Progress
open List (append_assoc length_append prefix_append prefix_rfl)

def queueLength : Nat := 128

def batchSize : Nat := 1

structure SmpMessageQueue (α : Type) where
  pending : BoundedFifo α queueLength
  completed : BoundedFifo α queueLength
  pendingFifo : List α
  completedFifo : List α

namespace SmpMessageQueue

variable {α : Type}

def create : SmpMessageQueue α where
  pending := .empty
  completed := .empty
  pendingFifo := []
  completedFifo := []

def movePending (q : SmpMessageQueue α) : SmpMessageQueue α :=
  let (pending, rest) := q.pending.push q.pendingFifo
  if rest.length = q.pendingFifo.length then q else { q with pending, pendingFifo := rest }

def flushResponseBatch (q : SmpMessageQueue α) : SmpMessageQueue α :=
  if q.completedFifo = [] then q
  else
    let (completed, rest) := q.completed.push q.completedFifo
    if rest.length = q.completedFifo.length then q else { q with completed, completedFifo := rest }

def flushRequestBatch (q : SmpMessageQueue α) : SmpMessageQueue α :=
  if q.pendingFifo = [] then q else q.movePending

def submitItem (q : SmpMessageQueue α) (func : α) : SmpMessageQueue α :=
  let staged := { q with pendingFifo := q.pendingFifo ++ [func] }
  if batchSize ≤ staged.pendingFifo.length then staged.movePending else staged

/-- `stopped` is the member `stopped_` of the engine, which nothing ever assigns. -/
def respond (stopped : Bool) (q : SmpMessageQueue α) (func : α) : SmpMessageQueue α :=
  let staged := { q with completedFifo := q.completedFifo ++ [func] }
  if batchSize ≤ staged.completedFifo.length || stopped then staged.flushResponseBatch else staged

structure Moves (before after : SmpMessageQueue α) : Prop where
  order : after.pending.items ++ after.pendingFifo = before.pending.items ++ before.pendingFifo
  left : after.pendingFifo.length =
    before.pendingFifo.length - (queueLength - before.pending.items.length)
  completed : after.completed = before.completed
  completedFifo : after.completedFifo = before.completedFifo

structure Responds (before after : SmpMessageQueue α) : Prop where
  order : after.completed.items ++ after.completedFifo = before.completed.items ++ before.completedFifo
  left : after.completedFifo.length =
    before.completedFifo.length - (queueLength - before.completed.items.length)
  pending : after.pending = before.pending
  pendingFifo : after.pendingFifo = before.pendingFifo

section

variable (q : SmpMessageQueue α)

theorem movePending_moves : Moves q q.movePending := by
  have contents := q.pending.push_contents q.pendingFifo
  have rest := q.pending.push_rest q.pendingFifo
  unfold movePending
  dsimp only
  split
  · rename_i same
    exact ⟨rfl, same.symm.trans rest, rfl, rfl⟩
  · exact ⟨contents, rest, rfl, rfl⟩

theorem flushRequestBatch_moves : Moves q q.flushRequestBatch := by
  unfold flushRequestBatch
  split
  · rename_i empty
    exact ⟨rfl, by simp [empty], rfl, rfl⟩
  · exact movePending_moves q

theorem submitItem_moves (func : α) :
    Moves { q with pendingFifo := q.pendingFifo ++ [func] } (q.submitItem func) := by
  unfold submitItem
  dsimp only
  rw [if_pos (by simp [batchSize])]
  exact movePending_moves _

theorem flushResponseBatch_responds : Responds q q.flushResponseBatch := by
  have contents := q.completed.push_contents q.completedFifo
  have rest := q.completed.push_rest q.completedFifo
  unfold flushResponseBatch
  split
  · rename_i empty
    exact ⟨rfl, by simp [empty], rfl, rfl⟩
  · dsimp only
    split
    · rename_i same
      exact ⟨rfl, same.symm.trans rest, rfl, rfl⟩
    · exact ⟨contents, rest, rfl, rfl⟩

end

theorem respond_responds (stopped : Bool) (q : SmpMessageQueue α) (func : α) :
    Responds { q with completedFifo := q.completedFifo ++ [func] } (q.respond stopped func) := by
  unfold respond
  dsimp only
  rw [if_pos (by simp [batchSize])]
  exact flushResponseBatch_responds _

end SmpMessageQueue

/-- Where a core is inside `process_queue`: before the first pop, between the two, or in the loop
over the popped items, before or after the two halves of `process(func)`. -/
inductive Phase (α : Type) where
  | idle
  | popped (func : α)
  | running (func : Option α) (items : List α) (index : Nat)
  | ran (func : Option α) (items : List α) (index : Nat)
  deriving DecidableEq

open Phase BoundedFifo

namespace Phase

variable {α : Type}

def pop (q : BoundedFifo α queueLength) : Phase α → Phase α × BoundedFifo α queueLength
  | .idle =>
    match q.pop with
    | none => (.idle, q)
    | some (func, rest) => (.popped func, rest)
  | .popped func =>
    let (items, rest) := q.popMany queueLength
    (.running (some func) items 0, rest)
  | phase => (phase, q)

/-- `func = items[i++]` and the test of the loop. The last read goes past the popped items; what it
finds there is not used. -/
def advance (items : List α) (index : Nat) : Phase α :=
  if index + 1 ≤ items.length then .running items[index]? items (index + 1) else .idle

def inHand : Phase α → List α
  | .idle => []
  | .popped func => [func]
  | .running func items index | .ran func items index => func.toList ++ items.drop index

def halfDone : Phase α → List α
  | .ran func _ _ => func.toList
  | _ => []

def opened : Phase α → List α
  | .running func items index | .ran func items index => func.toList ++ items.drop index
  | _ => []

def Sound : Phase α → Prop
  | .running func _ _ | .ran func _ _ => func ≠ none
  | _ => True

section

variable (items : List α)

section

variable (index : Nat)

theorem advance_sound : (advance items index).Sound := by
  unfold advance
  split
  · rename_i inside
    simp only [Sound, ne_eq, List.getElem?_eq_none_iff]
    omega
  · trivial

section

variable (func : Option α)

@[simp]
theorem inHand_running : (running func items index).inHand = func.toList ++ items.drop index := rfl

@[simp]
theorem inHand_ran : (ran func items index).inHand = func.toList ++ items.drop index := rfl

@[simp]
theorem halfDone_running : (running func items index).halfDone = [] := rfl

@[simp]
theorem halfDone_ran : (ran func items index).halfDone = func.toList := rfl

@[simp]
theorem inHand_advance : (advance items index).inHand = items.drop index := by
  unfold advance
  split
  · rename_i inside
    have bound : index < items.length := inside
    rw [inHand, List.getElem?_eq_getElem bound, List.drop_eq_getElem_cons bound]
    rfl
  · rename_i outside
    rw [List.drop_of_length_le (by omega)]
    rfl

@[simp]
theorem halfDone_advance : (advance items index).halfDone = [] := by
  unfold advance
  split <;> rfl

@[simp]
theorem opened_running : (running func items index).opened = func.toList ++ items.drop index := rfl

@[simp]
theorem opened_ran : (ran func items index).opened = func.toList ++ items.drop index := rfl

end

@[simp]
theorem opened_advance : (advance items index).opened = items.drop index := by
  rw [← inHand_advance]
  unfold advance
  split <;> rfl

end

end

end Phase

structure FuncWrapper where
  id : Nat
  hasCallback : Bool
  deriving Repr, DecidableEq

structure System where
  queue : SmpMessageQueue FuncWrapper
  incoming : Phase FuncWrapper
  completions : Phase FuncWrapper
  stopped : Bool
  submitted : List FuncWrapper
  executed : List FuncWrapper
  calledBack : List FuncWrapper
  deleted : List FuncWrapper

open MessageQueue.System

def start (stopped : Bool) : System where
  queue := .create
  incoming := .idle
  completions := .idle
  stopped := stopped
  submitted := []
  executed := []
  calledBack := []
  deleted := []

inductive Step where
  | submit (hasCallback : Bool)
  | flushRequestBatch
  | processCompletions
  | flushResponseBatch
  | processIncoming
  deriving Repr, DecidableEq

def processIncoming (s : System) : System :=
  match s.incoming with
  | .running func items index =>
    { s with
      incoming := .ran func items index
      executed := s.executed ++ func.toList }
  | .ran func items index =>
    { s with
      queue := match func with
        | some func => s.queue.respond s.stopped func
        | none => s.queue
      incoming := .advance items index }
  | phase =>
    let (incoming, pending) := phase.pop s.queue.pending
    { s with incoming, queue := { s.queue with pending } }

def processCompletions (s : System) : System :=
  match s.completions with
  | .running func items index =>
    { s with
      completions := .ran func items index
      calledBack := s.calledBack ++ func.toList.filter (·.hasCallback) }
  | .ran func items index =>
    { s with
      completions := .advance items index
      deleted := s.deleted ++ func.toList }
  | phase =>
    let (completions, completed) := phase.pop s.queue.completed
    { s with completions, queue := { s.queue with completed } }

def step (s : System) : Step → System
  | .submit hasCallback =>
    let func : FuncWrapper := { id := s.submitted.length, hasCallback }
    { s with queue := s.queue.submitItem func, submitted := s.submitted ++ [func] }
  | .flushRequestBatch => { s with queue := s.queue.flushRequestBatch }
  | .processCompletions => processCompletions s
  | .flushResponseBatch => { s with queue := s.queue.flushResponseBatch }
  | .processIncoming => processIncoming s

variable {s : System}

def System.underway (s : System) : List FuncWrapper :=
  s.completions.inHand ++ (s.queue.completed.items ++ s.queue.completedFifo) ++
    (s.incoming.inHand ++ (s.queue.pending.items ++ s.queue.pendingFifo))

def System.answered (s : System) : List FuncWrapper :=
  s.completions.inHand ++ (s.queue.completed.items ++ s.queue.completedFifo) ++
    s.incoming.halfDone

structure Delivered (s : System) : Prop where
  kept : s.submitted = s.deleted ++ s.underway
  executed : s.executed = s.deleted ++ s.answered
  calledBack : s.calledBack = (s.deleted ++ s.completions.halfDone).filter (·.hasCallback)
  numbered : s.submitted.map (·.id) = List.range s.submitted.length
  incoming : s.incoming.Sound
  completions : s.completions.Sound

theorem start_delivered (stopped : Bool) : Delivered (start stopped) :=
  ⟨rfl, rfl, rfl, rfl, trivial, trivial⟩

theorem submit_delivered (inv : Delivered s) (hasCallback : Bool) :
    Delivered (step s (.submit hasCallback)) := by
  have moves := s.queue.submitItem_moves { id := s.submitted.length, hasCallback }
  have order := moves.order
  dsimp only at order
  refine { inv with kept := ?_, executed := ?_, numbered := ?_ }
  · simp only [step, underway]
    rw [order, moves.completed, moves.completedFifo, inv.kept]
    simp [underway]
  · simp only [step, answered]
    rw [moves.completed, moves.completedFifo]
    exact inv.executed
  · simp [step, inv.numbered, List.range_succ]

theorem flushRequestBatch_delivered (inv : Delivered s) : Delivered (step s .flushRequestBatch) := by
  have moves := s.queue.flushRequestBatch_moves
  refine { inv with kept := ?_, executed := ?_ }
  · simp only [step, underway]
    rw [moves.order, moves.completed, moves.completedFifo]
    exact inv.kept
  · simp only [step, answered]
    rw [moves.completed, moves.completedFifo]
    exact inv.executed

theorem flushResponseBatch_delivered (inv : Delivered s) : Delivered (step s .flushResponseBatch) := by
  have responds := s.queue.flushResponseBatch_responds
  refine { inv with kept := ?_, executed := ?_ }
  · simp only [step, underway]
    rw [responds.order, responds.pending, responds.pendingFifo]
    exact inv.kept
  · simp only [step, answered]
    rw [responds.order]
    exact inv.executed

theorem Phase.pop_spec {α : Type} {phase next : Phase α} {q rest : BoundedFifo α queueLength}
    (popped : phase.pop q = (next, rest)) : next.inHand ++ rest.items = phase.inHand ++ q.items ∧
      next.halfDone = phase.halfDone ∧ (phase.Sound → next.Sound) ∧
      phase.inHand.length ≤ next.inHand.length ∧ phase.opened.length ≤ next.opened.length := by
  cases phase with
  | idle =>
    unfold pop at popped
    cases taken : q.pop with
    | none =>
      rw [taken] at popped
      cases popped
      exact ⟨rfl, rfl, id, Nat.le_refl _, Nat.le_refl _⟩
    | some result =>
      rw [taken] at popped
      cases popped
      exact ⟨(pop_some taken).symm, rfl, id, Nat.zero_le _, Nat.zero_le _⟩
  | popped func =>
    cases popped
    exact ⟨by simp [inHand], rfl, fun _ => nofun, by simp [inHand], Nat.zero_le _⟩
  | running | ran =>
    cases popped
    exact ⟨rfl, rfl, id, Nat.le_refl _, Nat.le_refl _⟩

theorem processIncoming_delivered (inv : Delivered s) : Delivered (step s .processIncoming) := by
  have kept := inv.kept
  have executed := inv.executed
  have sound := inv.incoming
  simp only [underway, answered] at kept executed
  rw [step, processIncoming]
  split <;> rename_i phase
  · rw [phase] at kept executed sound
    refine ⟨kept, ?_, inv.calledBack, inv.numbered, sound, inv.completions⟩
    rw [executed]
    simp [answered]
  · rw [phase] at kept executed sound
    obtain ⟨func, rfl⟩ := Option.ne_none_iff_exists'.mp sound
    have responds := s.queue.respond_responds s.stopped func
    have order := responds.order
    dsimp only at order
    refine ⟨?_, ?_, inv.calledBack, inv.numbered, advance_sound _ _, inv.completions⟩
    · rw [kept]
      simp only [underway, order, responds.pending, responds.pendingFifo]
      simp
    · rw [executed]
      simp only [answered, order]
      simp
  · rcases popped : s.incoming.pop s.queue.pending with ⟨next, rest⟩
    obtain ⟨order, still, stays, -⟩ := pop_spec popped
    refine ⟨?_, ?_, inv.calledBack, inv.numbered, stays sound, inv.completions⟩
    · rw [kept, underway, ← append_assoc s.incoming.inHand, ← order]
      simp only [append_assoc]
    · rw [executed, answered, still]

theorem processCompletions_delivered (inv : Delivered s) : Delivered (step s .processCompletions) := by
  have kept := inv.kept
  have executed := inv.executed
  have calledBack := inv.calledBack
  have sound := inv.completions
  simp only [underway, answered] at kept executed
  rw [step, processCompletions]
  split <;> rename_i phase
  · rw [phase] at kept executed calledBack sound
    refine ⟨kept, executed, ?_, inv.numbered, inv.incoming, sound⟩
    rw [calledBack]
    simp
  · rw [phase] at kept executed calledBack
    refine ⟨?_, ?_, ?_, inv.numbered, inv.incoming, advance_sound _ _⟩
    · rw [kept]
      simp [underway]
    · rw [executed]
      simp [answered]
    · rw [calledBack]
      simp
  · rcases popped : s.completions.pop s.queue.completed with ⟨next, rest⟩
    obtain ⟨order, still, stays, -⟩ := pop_spec popped
    have order : ∀ more, s.completions.inHand ++ (s.queue.completed.items ++ more) =
        next.inHand ++ (rest.items ++ more) := by simp only [← append_assoc, order, implies_true]
    refine ⟨?_, ?_, ?_, inv.numbered, inv.incoming, stays sound⟩
    · rw [kept, underway, order]
    · rw [executed, answered, order]
    · rw [calledBack, still]

theorem step_delivered (label : Step) (inv : Delivered s) : Delivered (step s label) := by
  cases label with
  | submit hasCallback => exact submit_delivered inv hasCallback
  | flushRequestBatch => exact flushRequestBatch_delivered inv
  | processCompletions => exact processCompletions_delivered inv
  | flushResponseBatch => exact flushResponseBatch_delivered inv
  | processIncoming => exact processIncoming_delivered inv

inductive Stage where
  | deleted
  | calledBack
  | fetched
  | popped
  | returned
  | answered
  | executed
  | taken
  | received
  | sent
  deriving DecidableEq

instance : Fintype Stage where
  elems := { .deleted, .calledBack, .fetched, .popped, .returned, .answered, .executed, .taken,
    .received, .sent }
  complete stage := by cases stage <;> decide

def System.answers (s : System) : Nat :=
  s.deleted.length + s.completions.inHand.length +
    (s.queue.completed.items.length + s.queue.completedFifo.length)

def System.passed (s : System) : Stage → Nat
  | .deleted => s.deleted.length
  | .calledBack => s.deleted.length + s.completions.halfDone.length
  | .fetched => s.deleted.length + s.completions.opened.length
  | .popped => s.deleted.length + s.completions.inHand.length
  | .returned => s.deleted.length + s.completions.inHand.length + s.queue.completed.items.length
  | .answered => s.answers
  | .executed => s.answers + s.incoming.halfDone.length
  | .taken => s.answers + s.incoming.opened.length
  | .received => s.answers + s.incoming.inHand.length
  | .sent => s.answers + s.incoming.inHand.length + s.queue.pending.items.length

def System.distance (count : Nat) (s : System) : Nat := ∑ stage, (count - s.passed stage)

variable {count : Nat} {t : System}

theorem distance_le (forward : ∀ stage, s.passed stage ≤ t.passed stage) :
    t.distance count ≤ s.distance count :=
  Finset.sum_le_sum fun stage _ => Nat.sub_le_sub_left (forward stage) count

theorem distance_lt (stage : Stage) (forward : ∀ stage, s.passed stage ≤ t.passed stage)
    (further : s.passed stage < t.passed stage) (missing : s.passed stage < count) :
    t.distance count < s.distance count := by
  refine Finset.sum_lt_sum (fun other _ => Nat.sub_le_sub_left (forward other) count) ?_
  exact ⟨stage, Finset.mem_univ _, by omega⟩

def helpful (s : System) : Step :=
  if 0 < s.completions.inHand.length + s.queue.completed.items.length then .processCompletions
  else if 0 < s.queue.completedFifo.length then .flushResponseBatch
  else if 0 < s.incoming.inHand.length + s.queue.pending.items.length then .processIncoming
  else .flushRequestBatch

theorem helpful_cases (s : System) : (helpful s = .processCompletions ∧
        0 < s.completions.inHand.length + s.queue.completed.items.length) ∨
      (s.completions.inHand.length = 0 ∧ s.queue.completed.items.length = 0 ∧
        ((helpful s = .flushResponseBatch ∧ 0 < s.queue.completedFifo.length) ∨
          (s.queue.completedFifo.length = 0 ∧
            ((helpful s = .processIncoming ∧
                0 < s.incoming.inHand.length + s.queue.pending.items.length) ∨
              (helpful s = .flushRequestBatch ∧ s.incoming.inHand.length = 0 ∧
                s.queue.pending.items.length = 0))))) := by
  unfold helpful
  split
  · exact .inl ⟨rfl, by assumption⟩
  · refine .inr ⟨by omega, by omega, ?_⟩
    split
    · exact .inl ⟨rfl, by assumption⟩
    · refine .inr ⟨by omega, ?_⟩
      split
      · exact .inl ⟨rfl, by assumption⟩
      · exact .inr ⟨rfl, by omega, by omega⟩

theorem helpful_same
    (completions : (0 < t.completions.inHand.length + t.queue.completed.items.length) ↔
      0 < s.completions.inHand.length + s.queue.completed.items.length)
    (completedFifo : s.completions.inHand.length + s.queue.completed.items.length = 0 →
      ((0 < t.queue.completedFifo.length) ↔ 0 < s.queue.completedFifo.length))
    (incoming : s.completions.inHand.length + s.queue.completed.items.length = 0 →
      s.queue.completedFifo.length = 0 →
      ((0 < t.incoming.inHand.length + t.queue.pending.items.length) ↔
        0 < s.incoming.inHand.length + s.queue.pending.items.length)) : helpful t = helpful s := by
  unfold helpful
  simp only [completions]
  split
  · rfl
  · rename_i first
    simp only [completedFifo (by omega)]
    split
    · rfl
    · rename_i second
      simp only [incoming (by omega) (by omega)]

def Advances (count : Nat) (s t : System) (label : Step) : Prop :=
  (∃ stage, s.passed stage < t.passed stage ∧ s.passed stage < count) ∨
    (helpful t = helpful s ∧ label ≠ helpful s)

theorem Advances.approaches {label} (forward : ∀ stage, s.passed stage ≤ t.passed stage)
    (advances : Advances count s t label) :
    Approaches (fun state => count ≤ state.deleted.length) (distance count) helpful s t
      label := by
  rcases advances with ⟨stage, further, missing⟩ | ⟨same, other⟩
  · exact .inr (.inl (distance_lt stage forward further missing))
  · rcases Nat.lt_or_ge (t.distance count) (s.distance count) with lower | equal
    · exact .inr (.inl lower)
    · exact .inr (.inr ⟨Nat.le_antisymm (distance_le forward) equal, same, other⟩)

theorem moves_passed {queue submitted staged}
    (moves : SmpMessageQueue.Moves { s.queue with pendingFifo := staged } queue) (stage : Stage) :
    s.passed stage ≤ { s with queue, submitted : System }.passed stage := by
  have total := congrArg List.length moves.order
  have left := moves.left
  have completed := moves.completed
  have completedFifo := moves.completedFifo
  simp only [length_append] at total left
  dsimp only at completed completedFifo
  cases stage <;> simp only [passed, answers, completed, completedFifo] <;> omega

theorem moves_advances {queue submitted staged label}
    (moves : SmpMessageQueue.Moves { s.queue with pendingFifo := staged } queue)
    (ahead : s.deleted.length < count) (waiting : helpful s = .flushRequestBatch → 0 < staged.length)
    (other : helpful s ≠ .flushRequestBatch → label ≠ helpful s) :
    Advances count s { s with queue, submitted } label := by
  have total := congrArg List.length moves.order
  have left := moves.left
  have completed := moves.completed
  have completedFifo := moves.completedFifo
  simp only [length_append] at total left
  dsimp only at completed completedFifo
  have stays : helpful s ≠ .flushRequestBatch →
      (0 < s.completions.inHand.length + s.queue.completed.items.length ∨
        0 < s.queue.completedFifo.length ∨
        0 < s.incoming.inHand.length + s.queue.pending.items.length) →
      helpful { s with queue, submitted } = helpful s ∧ label ≠ helpful s := by
    intro notLast somewhere
    refine ⟨helpful_same ?_ ?_ ?_, other notLast⟩
    · simp only [completed]
    · simp only [completedFifo, implies_true]
    · intro _ _
      dsimp only
      omega
  rcases helpful_cases s with ⟨is, above⟩ | ⟨fetched, returned, ⟨is, above⟩ | ⟨answered, rest⟩⟩
  · exact .inr (stays (by rw [is]; nofun) (.inl above))
  · exact .inr (stays (by rw [is]; nofun) (.inr (.inl above)))
  · rcases rest with ⟨is, above⟩ | ⟨is, received, sent⟩
    · exact .inr (stays (by rw [is]; nofun) (.inr (.inr above)))
    · have above := waiting is
      simp only [queueLength] at left
      refine .inl ⟨.sent, ?_, ?_⟩ <;>
        simp only [passed, answers, completed, completedFifo] <;> omega

theorem flushResponseBatch_passed (s : System) (stage : Stage) :
    s.passed stage ≤ (step s .flushResponseBatch).passed stage := by
  have responds := s.queue.flushResponseBatch_responds
  have total := congrArg List.length responds.order
  have left := responds.left
  simp only [length_append] at total
  cases stage <;> simp only [step, passed, answers, responds.pending] <;> omega

theorem flushResponseBatch_advances (ahead : s.deleted.length < count) :
    Advances count s (step s .flushResponseBatch) .flushResponseBatch := by
  have responds := s.queue.flushResponseBatch_responds
  have total := congrArg List.length responds.order
  have left := responds.left
  simp only [length_append] at total
  rcases helpful_cases s with ⟨is, above⟩ | ⟨fetched, returned, ⟨is, above⟩ | ⟨answered, rest⟩⟩
  · refine .inr ⟨helpful_same ?_ ?_ ?_, by rw [is]; nofun⟩ <;>
      simp only [step, responds.pending] <;> omega
  · simp only [queueLength] at left
    refine .inl ⟨.returned, ?_, ?_⟩ <;> simp only [step, passed] <;> omega
  · refine .inr ⟨helpful_same ?_ ?_ ?_, ?_⟩
    · simp only [step]
      omega
    · simp only [step]
      omega
    · simp only [step, responds.pending, implies_true]
    · rcases rest with ⟨is, -⟩ | ⟨is, -⟩ <;> rw [is] <;> nofun

theorem incoming_advances (ahead : s.deleted.length < count)
    (completions : t.completions = s.completions) (deleted : t.deleted = s.deleted)
    (responses : s.queue.completed = t.queue.completed ∧ s.queue.completedFifo = t.queue.completedFifo ∨
      s.queue.completed.items.length < t.queue.completed.items.length ∨
      0 < s.queue.completed.items.length ∧ 0 < t.queue.completed.items.length)
    (moved : 0 < s.incoming.inHand.length + s.queue.pending.items.length →
      ∃ stage, s.passed stage = s.answers ∧ s.answers < t.passed stage)
    (idle : s.incoming.inHand.length + s.queue.pending.items.length = 0 → t = s) :
    Advances count s t .processIncoming := by
  rcases helpful_cases s with ⟨is, above⟩ | ⟨fetched, returned, ⟨is, above⟩ | ⟨answered, rest⟩⟩
  · refine .inr ⟨helpful_same ?_ (by omega) (by omega), by rw [is]; nofun⟩
    rw [completions]
    rcases responses with ⟨same, -⟩ | more | both
    · rw [same]
    · omega
    · omega
  · rcases responses with ⟨same, sameFifo⟩ | more | both
    · refine .inr ⟨helpful_same ?_ ?_ (by omega), by rw [is]; nofun⟩
      · rw [completions, same]
      · rw [sameFifo]
        exact fun _ => Iff.rfl
    · refine .inl ⟨.returned, ?_, ?_⟩
      · simp only [passed, completions, deleted]
        omega
      · simp only [passed]
        omega
    · omega
  · rcases rest with ⟨is, above⟩ | ⟨is, received, sent⟩
    · obtain ⟨stage, first, further⟩ := moved above
      refine .inl ⟨stage, first ▸ further, ?_⟩
      rw [first, answers]
      omega
    · rw [idle (by omega)]
      exact .inr ⟨rfl, by rw [is]; nofun⟩

theorem Phase.pop_empty {α : Type} {phase : Phase α} {q : BoundedFifo α queueLength}
    (zero : phase.inHand.length + q.items.length = 0) : phase.pop q = (phase, q) := by
  cases phase with
  | idle =>
    unfold pop
    cases popped : q.pop with
    | none => rfl
    | some result =>
      rw [pop_some popped] at zero
      cases zero
  | popped func =>
    rw [inHand, List.length_singleton] at zero
    omega
  | running | ran => rfl

theorem Phase.pop_progress {α : Type} {phase next : Phase α} {q rest : BoundedFifo α queueLength}
    (notRunning : ∀ func items index, phase ≠ .running func items index)
    (notRan : ∀ func items index, phase ≠ .ran func items index)
    (above : 0 < phase.inHand.length + q.items.length) (popped : phase.pop q = (next, rest)) :
    phase.inHand.length = 0 ∧ 0 < next.inHand.length ∨
      phase.opened.length = 0 ∧ 0 < next.opened.length := by
  cases phase with
  | idle =>
    unfold pop at popped
    cases taken : q.pop with
    | none =>
      rw [pop_none taken] at above
      cases above
    | some result =>
      rw [taken] at popped
      cases popped
      exact .inl ⟨rfl, Nat.zero_lt_one⟩
  | popped func =>
    cases popped
    exact .inr ⟨rfl, by simp⟩
  | running => exact absurd rfl (notRunning _ _ _)
  | ran => exact absurd rfl (notRan _ _ _)

theorem processIncoming_passed (sound : s.incoming.Sound) (stage : Stage) :
    s.passed stage ≤ (step s .processIncoming).passed stage := by
  rw [step, processIncoming]
  split <;> rename_i phase
  · cases stage <;> simp [passed, answers, phase]
  · rw [phase] at sound
    obtain ⟨func, rfl⟩ := Option.ne_none_iff_exists'.mp sound
    have responds := s.queue.respond_responds s.stopped func
    have total := congrArg List.length responds.order
    have left := responds.left
    simp only [length_append, List.length_singleton] at total left
    cases stage <;> simp [passed, answers, phase, responds.pending] <;> omega
  · rcases popped : s.incoming.pop s.queue.pending with ⟨next, rest⟩
    obtain ⟨order, still, -, more, opened⟩ := pop_spec popped
    have total := congrArg List.length order
    simp only [length_append] at total
    cases stage <;> simp only [passed, answers, still] <;> omega

theorem processIncoming_advances (ahead : s.deleted.length < count) (sound : s.incoming.Sound) :
    Advances count s (step s .processIncoming) .processIncoming := by
  rw [step, processIncoming]
  split
  · rename_i phase
    rw [phase] at sound
    obtain ⟨func, rfl⟩ := Option.ne_none_iff_exists'.mp sound
    refine incoming_advances ahead rfl rfl (.inl ⟨rfl, rfl⟩) (fun _ => ?_) ?_
    · exact ⟨.executed, by simp [passed, phase], by simp [passed, answers]⟩
    · simp [phase]
  · rename_i phase
    rw [phase] at sound
    obtain ⟨func, rfl⟩ := Option.ne_none_iff_exists'.mp sound
    have responds := s.queue.respond_responds s.stopped func
    have total := congrArg List.length responds.order
    have left := responds.left
    have room := s.queue.completed.bounded
    simp only [length_append, List.length_singleton, queueLength] at total left room
    refine incoming_advances ahead rfl rfl (.inr ?_) (fun _ => ⟨.answered, rfl, ?_⟩) ?_
    · dsimp only
      omega
    · simp only [passed, answers]
      omega
    · simp [phase]
  · rename_i notRunning notRan
    rcases popped : s.incoming.pop s.queue.pending with ⟨next, rest⟩
    refine incoming_advances ahead rfl rfl (.inl ⟨rfl, rfl⟩) (fun above => ?_) (fun zero => ?_)
    · rcases pop_progress notRunning notRan above popped with first | loop
      · refine ⟨.received, ?_, ?_⟩ <;> simp only [passed, answers] <;> omega
      · refine ⟨.taken, ?_, ?_⟩ <;> simp only [passed, answers] <;> omega
    · cases popped.symm.trans (pop_empty zero)
      rfl

theorem processCompletions_passed (stage : Stage) :
    s.passed stage ≤ (step s .processCompletions).passed stage := by
  rw [step, processCompletions]
  split <;> rename_i phase
  · cases stage <;> simp [passed, answers, phase]
  · cases stage <;> simp [passed, answers, phase] <;> omega
  · rcases popped : s.completions.pop s.queue.completed with ⟨next, rest⟩
    obtain ⟨order, still, -, more, opened⟩ := pop_spec popped
    have total := congrArg List.length order
    simp only [length_append] at total
    cases stage <;> simp only [passed, answers, still] <;> omega

theorem processCompletions_advances (ahead : s.deleted.length < count) (sound : s.completions.Sound) :
    Advances count s (step s .processCompletions) .processCompletions := by
  rw [step, processCompletions]
  split
  · rename_i phase
    rw [phase] at sound
    obtain ⟨func, rfl⟩ := Option.ne_none_iff_exists'.mp sound
    refine .inl ⟨.calledBack, ?_, ?_⟩
    · simp [passed, phase]
    · simpa [passed, phase] using ahead
  · rename_i phase
    rw [phase] at sound
    obtain ⟨func, rfl⟩ := Option.ne_none_iff_exists'.mp sound
    exact .inl ⟨.deleted, by simp [passed], ahead⟩
  · rename_i notRunning notRan
    rcases popped : s.completions.pop s.queue.completed with ⟨next, rest⟩
    by_cases above : 0 < s.completions.inHand.length + s.queue.completed.items.length
    · rcases pop_progress notRunning notRan above popped with first | loop
      · refine .inl ⟨.popped, ?_, ?_⟩ <;> simp only [passed] <;> omega
      · refine .inl ⟨.fetched, ?_, ?_⟩ <;> simp only [passed] <;> omega
    · cases popped.symm.trans (pop_empty (by omega))
      refine .inr ⟨rfl, ?_⟩
      rcases helpful_cases s with ⟨-, there⟩ | ⟨-, -, ⟨is, -⟩ | ⟨-, ⟨is, -⟩ | ⟨is, -⟩⟩⟩
      · exact absurd there above
      all_goals
        rw [is]
        nofun

theorem step_passed (label : Step) (inv : Delivered s) (stage : Stage) :
    s.passed stage ≤ (step s label).passed stage := by
  cases label with
  | submit hasCallback => exact moves_passed (s.queue.submitItem_moves _) stage
  | flushRequestBatch => exact moves_passed s.queue.flushRequestBatch_moves stage
  | processCompletions => exact processCompletions_passed stage
  | flushResponseBatch => exact flushResponseBatch_passed s stage
  | processIncoming => exact processIncoming_passed inv.incoming stage

theorem step_advances (label : Step) (inv : Delivered s) (ahead : s.deleted.length < count)
    (known : count ≤ s.submitted.length) : Advances count s (step s label) label := by
  have waiting : helpful s = .flushRequestBatch → 0 < s.queue.pendingFifo.length := by
    intro last
    have kept := congrArg List.length inv.kept
    simp only [underway, length_append] at kept
    rcases helpful_cases s with ⟨is, -⟩ | ⟨fetched, returned, ⟨is, -⟩ | ⟨answered, ⟨is, -⟩ | rest⟩⟩
    · cases is.symm.trans last
    · cases is.symm.trans last
    · cases is.symm.trans last
    · omega
  cases label with
  | submit hasCallback =>
    refine moves_advances (s.queue.submitItem_moves _) ahead (fun _ => ?_) (fun _ => ?_)
    · simp
    · rcases helpful_cases s with ⟨is, -⟩ | ⟨-, -, ⟨is, -⟩ | ⟨-, ⟨is, -⟩ | ⟨is, -⟩⟩⟩ <;>
        rw [is] <;> nofun
  | flushRequestBatch =>
    exact moves_advances s.queue.flushRequestBatch_moves ahead waiting fun other is => other is.symm
  | processCompletions => exact processCompletions_advances ahead inv.completions
  | flushResponseBatch => exact flushResponseBatch_advances ahead
  | processIncoming => exact processIncoming_advances ahead inv.incoming

theorem submitted_grows (s : System) (label : Step) : s.submitted <+: (step s label).submitted := by
  cases label with
  | submit hasCallback => exact prefix_append _ _
  | flushRequestBatch | flushResponseBatch => exact prefix_rfl
  | processCompletions =>
    rw [step, processCompletions]
    split <;> exact prefix_rfl
  | processIncoming =>
    rw [step, processIncoming]
    split <;> exact prefix_rfl

structure InOrder (s : System) : Prop where
  distinct : s.submitted.Nodup
  executed : s.executed <+: s.submitted
  calledBack : s.calledBack <+: s.executed.filter (·.hasCallback)
  deleted : s.deleted <+: s.executed
  completed : s.deleted.filter (·.hasCallback) <+: s.calledBack
  kept : s.submitted = s.deleted ++ s.underway

theorem Phase.halfDone_prefix {α} (phase : Phase α) : phase.halfDone <+: phase.inHand := by
  cases phase with
  | idle | popped | running => exact List.nil_prefix
  | ran func items index => exact prefix_append _ _

theorem Delivered.inOrder (inv : Delivered s) : InOrder s where
  distinct := List.Nodup.of_map (·.id) (inv.numbered ▸ List.nodup_range)
  executed := by
    rw [inv.executed, inv.kept, List.prefix_append_right_inj, answered, underway,
      List.prefix_append_right_inj]
    exact s.incoming.halfDone_prefix.trans (prefix_append _ _)
  calledBack := by
    rw [inv.executed, inv.calledBack]
    refine List.IsPrefix.filter _ ?_
    rw [List.prefix_append_right_inj, answered, append_assoc]
    exact s.completions.halfDone_prefix.trans (prefix_append _ _)
  deleted := inv.executed ▸ prefix_append _ _
  completed := by
    rw [inv.calledBack, List.filter_append]
    exact prefix_append _ _
  kept := inv.kept

theorem trace_delivered (stopped : Bool) (schedule : Nat → Step) (time : Nat) :
    Delivered (trace step (start stopped) schedule time) :=
  trace_invariant (start_delivered stopped) (fun _ label inv => step_delivered label inv) time

theorem trace_submitted (stopped : Bool) (schedule : Nat → Step) {time later} (order : time ≤ later) :
    (trace step (start stopped) schedule time).submitted <+:
      (trace step (start stopped) schedule later).submitted := by
  obtain ⟨distance, rfl⟩ := Nat.exists_eq_add_of_le order
  induction distance with
  | zero => exact prefix_rfl
  | succ distance ih =>
    exact (ih (Nat.le_add_right _ _)).trans (submitted_grows _ _)

def Polls (schedule : Nat → Step) : Prop :=
  Recurs schedule .flushRequestBatch ∧ Recurs schedule .processCompletions ∧
    Recurs schedule .flushResponseBatch ∧ Recurs schedule .processIncoming

theorem eventually_deleted (stopped : Bool) {schedule : Nat → Step} (polls : Polls schedule)
    (time : Nat) : ∃ later ≥ time, (trace step (start stopped) schedule time).submitted <+:
      (trace step (start stopped) schedule later).deleted := by
  obtain ⟨requests, completions, responses, incoming⟩ := polls
  have fair : ∀ s, Recurs schedule (helpful s) := by
    intro s
    rcases helpful_cases s with ⟨is, -⟩ | ⟨-, -, ⟨is, -⟩ | ⟨-, ⟨is, -⟩ | ⟨is, -⟩⟩⟩ <;> rw [is] <;>
      assumption
  obtain ⟨later, after, reached⟩ := eventually_of_helpful (trace step (start stopped) schedule)
    (fun s => (trace step (start stopped) schedule time).submitted.length ≤ s.deleted.length) fair
    (fun later after ahead => (step_advances _ (trace_delivered stopped schedule _)
      (Nat.lt_of_not_le ahead) (trace_submitted stopped schedule after).length_le).approaches
        (step_passed _ (trace_delivered stopped schedule _)))
  have inOrder := (trace_delivered stopped schedule later).inOrder
  exact ⟨later, after, List.prefix_of_prefix_length_le (trace_submitted stopped schedule after)
    (inOrder.deleted.trans inOrder.executed) reached⟩

def roundRobin (time : Nat) : Step :=
  match time % 5 with
  | 0 => .submit true
  | 1 => .flushRequestBatch
  | 2 => .processIncoming
  | 3 => .flushResponseBatch
  | _ => .processCompletions

theorem roundRobin_polls : Polls roundRobin := by
  refine ⟨?_, ?_, ?_, ?_⟩ <;> intro time
  · exact ⟨5 * time + 1, by omega, by simp [roundRobin]⟩
  · exact ⟨5 * time + 4, by omega, by simp [roundRobin]⟩
  · exact ⟨5 * time + 3, by omega, by simp [roundRobin]⟩
  · exact ⟨5 * time + 2, by omega, by simp [roundRobin]⟩

inductive Overload where
  | func
  | callback
  | result
  deriving DecidableEq

inductive Effect where
  | ran (core : Nat)
  | calledBack (core : Nat) (value : Option UInt32)

def submitLocal (cpu : Nat) : Overload → List Effect
  | .func | .result => [.ran cpu]
  | .callback => [.ran cpu, .calledBack cpu none]

/-- What the message of a call to another core has led to: `complete` passes on what `process` kept. -/
def effects (s : System) (message : FuncWrapper) (cpu target : Nat) (value : Option UInt32) :
    List Effect :=
  List.replicate (s.executed.count message) (.ran target) ++
    List.replicate (s.calledBack.count message) (.calledBack cpu value)

def expected (cpu target : Nat) (result : UInt32) : Overload → List Effect
  | .func => [.ran target]
  | .callback => [.ran target, .calledBack cpu none]
  | .result => [.ran target, .calledBack cpu (some result)]

def Transparent (cpu target : Nat) (overload : Overload) (result : UInt32) (schedule : Nat → Step)
    (time : Nat) : Prop :=
  if target = cpu then submitLocal cpu overload = expected cpu target result overload
  else
    ∃ later, ∀ after ≥ later, effects (trace step (start false) schedule after)
      { id := (trace step (start false) schedule time).submitted.length
        hasCallback := overload ≠ .func } cpu target
      (if overload = .result then some result else none) = expected cpu target result overload

theorem deleted_counts {s : System} (inOrder : InOrder s) {message} (gone : message ∈ s.deleted) :
    s.executed.count message = 1 ∧ s.calledBack.count message = if message.hasCallback then 1 else 0 := by
  have once := inOrder.distinct.sublist inOrder.executed.sublist
  refine ⟨List.count_eq_one_of_mem once (inOrder.deleted.subset gone), ?_⟩
  split
  · rename_i has
    exact List.count_eq_one_of_mem ((once.filter _).sublist inOrder.calledBack.sublist)
      (inOrder.completed.subset (List.mem_filter.mpr ⟨gone, has⟩))
  · rename_i hasNot
    refine List.count_eq_zero.mpr fun called => hasNot ?_
    exact (List.mem_filter.mp (inOrder.calledBack.subset called)).2

theorem deleted_grows {message : FuncWrapper} (s : System) (label : Step) (gone : message ∈ s.deleted) :
    message ∈ (step s label).deleted := by
  cases label with
  | submit | flushRequestBatch | flushResponseBatch => exact gone
  | processIncoming =>
    rw [step, processIncoming]
    split <;> exact gone
  | processCompletions =>
    rw [step, processCompletions]
    split
    · exact gone
    · exact List.mem_append_left _ gone
    · exact gone

theorem transparent_iff (cpu target : Nat) (overload : Overload) (result : UInt32)
    {schedule : Nat → Step} (polls : Polls schedule) {time : Nat}
    (submits : schedule time = .submit (overload ≠ .func)) :
    Transparent cpu target overload result schedule time ↔ ¬(target = cpu ∧ overload = .result) := by
  unfold Transparent
  split
  · rename_i here
    cases overload <;> simp [here, submitLocal, expected]
  · rename_i away
    refine iff_of_true ?_ (fun both => away both.1)
    obtain ⟨later, -, gone⟩ := eventually_deleted false polls (time + 1)
    refine ⟨later, fun after order => ?_⟩
    rw [trace, submits] at gone
    have listed := trace_stays _ (fun s label => deleted_grows s label) order
      (gone.subset (List.mem_append_right _ (List.mem_singleton_self _)))
    obtain ⟨ran, called⟩ := deleted_counts (trace_delivered false schedule after).inOrder listed
    rw [effects, ran, called]
    cases overload <;> rfl

theorem transparent_roundRobin : Transparent 0 1 .result 7 roundRobin 0 :=
  (transparent_iff 0 1 .result 7 roundRobin_polls rfl).mpr (by decide)

theorem result_not_called_back : ¬Transparent 0 0 .result 7 (fun _ => .submit true) 0 := by
  simp [Transparent, submitLocal, expected]

variable {α : Type}

def readIndices (nr i : Nat) : List Nat := i :: if i + 1 ≤ nr then readIndices nr (i + 1) else []
termination_by nr - i

/-- A call of `process_queue` with `pushed` coming in between its two pops: what it reads of `items`,
and how many entries the pop has filled. -/
def processQueue (q : BoundedFifo α queueLength) (pushed : List α) : List Nat × Nat :=
  match q.pop with
  | none => ([], 0)
  | some (_, rest) =>
    let nr := ((rest.push pushed).1.popMany queueLength).1.length
    (readIndices nr 0, nr)

theorem last_read {nr i : Nat} (within : i ≤ nr) : nr ∈ readIndices nr i := by
  fun_induction readIndices nr i with
  | case1 i ih =>
    rcases Nat.lt_or_eq_of_le within with more | rfl
    · have more : i + 1 ≤ nr := more
      rw [if_pos more]
      exact List.mem_cons_of_mem _ (ih more more)
    · exact List.mem_cons_self

/-- The last read of a call that finds something is behind the entries that were filled. -/
theorem reads_filled_iff (q : BoundedFifo α queueLength) (pushed : List α) :
    (∀ index ∈ (processQueue q pushed).1, index < queueLength ∧ index < (processQueue q pushed).2) ↔
      q.items = [] := by
  unfold processQueue
  cases popped : q.pop with
  | none => exact iff_of_true nofun (BoundedFifo.pop_none popped)
  | some result =>
    refine iff_of_false (fun filled => ?_) (by simp [BoundedFifo.pop_some popped])
    exact Nat.lt_irrefl _ (filled _ (last_read (Nat.zero_le _))).2

theorem items_overrun : ∃ q : BoundedFifo Nat queueLength,
    ¬∀ index ∈ (processQueue q [1]).1, index < queueLength ∧ index < (processQueue q [1]).2 := by
  refine ⟨⟨0 :: List.replicate 127 0, by simp [queueLength]⟩, fun filled => ?_⟩
  have last := (filled 128 ?_).1
  · exact absurd last (Nat.lt_irrefl _)
  · simpa [processQueue, BoundedFifo.pop, BoundedFifo.push, BoundedFifo.popMany, BoundedFifo.free,
      queueLength] using last_read (Nat.zero_le 128)

end Mcc.MessageQueue
