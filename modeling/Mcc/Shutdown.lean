import Mcc.MessageQueue

/-!
The shutdown of the engines. Engine 0 sends every worker a request to stop, finishes the iteration
of its loop and waits for the threads to end. The request is an ordinary message: what does not fit
into the ring of a worker stays in the staging vector of engine 0, which nobody flushes any more.
-/

namespace Mcc.Shutdown

open Mcc.MessageQueue Progress

inductive Poller where
  | smp
  | signal
  | epoll
  deriving Repr, DecidableEq

inductive Duty (workers : Nat) where
  | tick
  | executeTasks
  | pollOnce
  | pollSignal
  | pollIo
  | flushResponseBatch (worker : Fin workers)
  | processIncoming (worker : Fin workers)
  | flushRequestBatch (worker : Fin workers)
  | processCompletions (worker : Fin workers)
  deriving Repr, DecidableEq

def Duty.runsHandlers {workers : Nat} : Duty workers → Bool
  | .pollOnce | .flushResponseBatch _ | .flushRequestBatch _ => false
  | _ => true

def pollQueues (workers : Nat) : List (Duty workers) :=
  (List.finRange workers).flatMap fun worker =>
    [.flushResponseBatch worker, .processIncoming worker, .flushRequestBatch worker,
      .processCompletions worker]

def Poller.poll (workers : Nat) : Poller → List (Duty workers)
  | .smp => pollQueues workers
  | .signal => [.pollSignal]
  | .epoll => [.pollIo]

inductive Thread (workers : Nat) where
  | io
  | worker (worker : Fin workers)
  deriving Repr, DecidableEq

inductive Place (workers : Nat) where
  | loop (todo : List (Duty workers))
  | joining (threads : List (Thread workers))
  deriving Repr, DecidableEq

inductive WorkerPlace where
  | top
  | flushResponseBatch
  | processIncoming
  | left
  deriving Repr, DecidableEq

structure System (workers : Nat) where
  extraIo : Bool
  place : Place workers
  pollers : List Poller
  stopping : Bool
  channels : Fin workers → MessageQueue.System
  stops : Fin workers → List Nat
  workerPlace : Fin workers → WorkerPlace
  workerStopping : Fin workers → Bool
  ioStop : Bool
  ioLeft : Bool

open Shutdown.System

def start {workers : Nat} (extraIo : Bool) (stopped : Fin workers → Bool) : System workers where
  extraIo := extraIo
  place := .loop []
  pollers := []
  stopping := false
  channels worker := MessageQueue.start (stopped worker)
  stops _ := []
  workerPlace _ := .top
  workerStopping _ := false
  ioStop := false
  ioLeft := false

inductive Action (workers : Nat) where
  | submitTo (worker : Fin workers) (hasCallback : Bool)
  | stop
  | registerPoller (poller : Poller)
  deriving Repr, DecidableEq

inductive Label (workers : Nat) where
  | engine0
  | handler (action : Action workers)
  | worker (worker : Fin workers)
  | workerStop (worker : Fin workers)
  | ioThread
  deriving Repr, DecidableEq

section

variable {workers : Nat}

namespace System

def onChannel (s : System workers) (worker : Fin workers) (label : MessageQueue.Step) :
    System workers :=
  { s with
    channels := Function.update s.channels worker (MessageQueue.step (s.channels worker) label) }

def finished (s : System workers) : Thread workers → Bool
  | .io => s.ioLeft
  | .worker worker => s.workerPlace worker = .left

def threads (s : System workers) : List (Thread workers) :=
  (if s.extraIo then [.io] else []) ++ (List.finRange workers).map .worker

def perform (s : System workers) (duty : Duty workers) (rest : List (Duty workers)) :
    System workers :=
  match duty with
  | .pollOnce => { s with place := .loop (s.pollers.flatMap (Poller.poll workers) ++ rest) }
  | .flushRequestBatch worker =>
    { s.onChannel worker .flushRequestBatch with place := .loop rest }
  | .processCompletions worker =>
    let after := s.onChannel worker .processCompletions
    if (after.channels worker).completions = .idle then { after with place := .loop rest }
    else after
  | _ => { s with place := .loop rest }

def run (s : System workers) : System workers :=
  match s.place with
  | .loop [] =>
    if s.stopping then
      { s with place := .joining s.threads, ioStop := s.ioStop || s.extraIo }
    else { s with place := .loop [.tick, .executeTasks, .pollOnce] }
  | .loop (duty :: rest) => s.perform duty rest
  | .joining [] => s
  | .joining (thread :: rest) =>
    if s.finished thread then { s with place := .joining rest } else s

def stop (s : System workers) : System workers :=
  { s with
    channels := fun worker => MessageQueue.step (s.channels worker) (.submit false)
    stops := fun worker => (s.channels worker).submitted.length :: s.stops worker
    stopping := true }

def act (s : System workers) : Action workers → System workers
  | .submitTo worker hasCallback => s.onChannel worker (.submit hasCallback)
  | .stop => s.stop
  | .registerPoller poller => { s with pollers := s.pollers ++ [poller] }

def handles (s : System workers) (action : Action workers) : Bool :=
  match s.place, action with
  | .loop (.executeTasks :: _), .registerPoller _ => true
  | .loop (duty :: _), .submitTo _ _ | .loop (duty :: _), .stop => duty.runsHandlers
  | _, _ => false

def heeds (s : System workers) (worker : Fin workers) : Bool :=
  match (s.channels worker).incoming with
  | .running (some func) _ _ => (s.stops worker).contains func.id
  | _ => false

def setPlace (s : System workers) (worker : Fin workers) (place : WorkerPlace) :
    System workers :=
  { s with workerPlace := Function.update s.workerPlace worker place }

def runWorker (s : System workers) (worker : Fin workers) : System workers :=
  match s.workerPlace worker with
  | .top =>
    if s.workerStopping worker then
      { s.setPlace worker .left with ioStop := s.ioStop || s.extraIo }
    else s.setPlace worker .flushResponseBatch
  | .flushResponseBatch =>
    (s.onChannel worker .flushResponseBatch).setPlace worker .processIncoming
  | .processIncoming =>
    let after := { s.onChannel worker .processIncoming with
      workerStopping := Function.update s.workerStopping worker
        (s.workerStopping worker || s.heeds worker) }
    if (after.channels worker).incoming = .idle then after.setPlace worker .top else after
  | .left => s

end System

def step (s : System workers) : Label workers → System workers
  | .engine0 => s.run
  | .handler action => if s.handles action then s.act action else s
  | .worker worker => s.runWorker worker
  | .workerStop worker =>
    if s.workerPlace worker = .left then s
    else { s with workerStopping := Function.update s.workerStopping worker true }
  | .ioThread => if s.ioStop then { s with ioLeft := true } else s

end

namespace Phase

def ahead {α : Type} : Phase α → Nat ×ₗ Nat
  | .idle => toLex (2, 0)
  | .popped _ => toLex (1, 0)
  | .running _ items index => toLex (0, 2 * (items.length - index) + 1)
  | .ran _ items index => toLex (0, 2 * (items.length - index))

theorem pop_idle {α : Type} {q : BoundedFifo α queueLength} (above : 0 < q.items.length) :
    ∃ func rest, Phase.idle.pop q = (.popped func, rest) := by
  unfold Phase.pop
  cases popped : q.pop with
  | none =>
    rw [BoundedFifo.pop_none popped] at above
    cases above
  | some result => exact ⟨_, _, rfl⟩

theorem advance_ahead {α} (func : Option α) (items : List α) (index : Nat) :
    Phase.advance items index = .idle ∨
      ahead (Phase.advance items index) < ahead (.ran func items index) := by
  unfold Phase.advance
  split
  · refine .inr (Prod.Lex.toLex_lt_toLex.mpr (.inr ⟨rfl, ?_⟩))
    dsimp only
    omega
  · exact .inl rfl

def next {α : Type} (q : BoundedFifo α queueLength) : Phase α → Phase α
  | .running func items index => .ran func items index
  | .ran _ items index => .advance items index
  | phase => (phase.pop q).1

theorem next_ahead {α : Type} (q : BoundedFifo α queueLength) (phase : Phase α) :
    next q phase = .idle ∨ ahead (next q phase) < ahead phase := by
  cases phase with
  | idle =>
    rcases Nat.eq_zero_or_pos q.items.length with zero | above
    · exact .inl (congrArg Prod.fst (Phase.pop_empty (by simpa [Phase.inHand] using zero)))
    · obtain ⟨func, rest, is⟩ := Phase.pop_idle above
      exact .inr (by simp [next, is, ahead, Prod.Lex.toLex_lt_toLex])
  | popped func => exact .inr (by simp [next, Phase.pop, ahead, Prod.Lex.toLex_lt_toLex])
  | running func items index => exact .inr (by simp [next, ahead, Prod.Lex.toLex_lt_toLex])
  | ran func items index => exact advance_ahead func items index

end Phase

theorem processIncoming_next (s : MessageQueue.System) :
    (processIncoming s).incoming = Phase.next s.queue.pending s.incoming := by
  cases phase : s.incoming <;> simp only [processIncoming, phase] <;> rfl

theorem processCompletions_next (s : MessageQueue.System) :
    (processCompletions s).completions = Phase.next s.queue.completed s.completions := by
  cases phase : s.completions <;> simp only [processCompletions, phase] <;> rfl

variable {part : MessageQueue.Step}

theorem step_incoming (s : MessageQueue.System) (other : part ≠ .processIncoming) :
    (MessageQueue.step s part).incoming = s.incoming ∧
      (MessageQueue.step s part).executed = s.executed := by
  cases part with
  | submit | flushRequestBatch | flushResponseBatch => exact ⟨rfl, rfl⟩
  | processCompletions =>
    rw [MessageQueue.step, processCompletions]
    split <;> exact ⟨rfl, rfl⟩
  | processIncoming => exact absurd rfl other

theorem step_completions (s : MessageQueue.System) (other : part ≠ .processCompletions) :
    (MessageQueue.step s part).completions = s.completions := by
  cases part with
  | submit | flushRequestBatch | flushResponseBatch => rfl
  | processIncoming =>
    rw [MessageQueue.step, processIncoming]
    split <;> rfl
  | processCompletions => exact absurd rfl other

section

variable {workers : Nat} {s : System workers}

@[simp]
theorem onChannel_channels (s : System workers) (worker other : Fin workers) (part : MessageQueue.Step) :
    (s.onChannel worker part).channels other =
      if other = worker then MessageQueue.step (s.channels worker) part else s.channels other := by
  by_cases same : other = worker
  · subst same
    simp [onChannel]
  · simp [onChannel, same]

def ByEngine (s : System workers) (worker : Fin workers) (part : MessageQueue.Step) : Prop :=
  (∃ hasCallback, part = .submit hasCallback) ∨ part = .flushRequestBatch ∨
    part = .processCompletions ∧ ∃ rest, s.place = .loop (.processCompletions worker :: rest)

structure EngineStep (s t : System workers) : Prop where
  channel : ∀ worker, t.channels worker = s.channels worker ∨
    ∃ part, ByEngine s worker part ∧ t.channels worker = MessageQueue.step (s.channels worker) part
  workerPlace : t.workerPlace = s.workerPlace
  workerStopping : t.workerStopping = s.workerStopping
  ioLeft : t.ioLeft = s.ioLeft
  extraIo : t.extraIo = s.extraIo
  stopping : s.stopping → t.stopping
  ioStop : s.ioStop → t.ioStop
  stops : ∀ worker, t.stops worker = s.stops worker ∨
    t.stops worker = (s.channels worker).submitted.length :: s.stops worker

variable {worker : Fin workers}

theorem onChannel_engineStep (s : System workers) (place : Place workers)
    (allowed : ByEngine s worker part) : EngineStep s { s.onChannel worker part with place } where
  channel other := by
    by_cases same : other = worker
    · subst same
      exact .inr ⟨part, allowed, by simp⟩
    · exact .inl (by simp [same])
  workerPlace := rfl
  workerStopping := rfl
  ioLeft := rfl
  extraIo := rfl
  stopping := id
  ioStop := id
  stops _ := .inl rfl

theorem quiet_engineStep (s : System workers) (place : Place workers) (pollers : List Poller)
    {ioStop : Bool} (keeps : s.ioStop → ioStop) : EngineStep s { s with place, pollers, ioStop } :=
  ⟨fun _ => .inl rfl, rfl, rfl, rfl, rfl, id, keeps, fun _ => .inl rfl⟩

variable {rest : List (Duty workers)}

theorem perform_engineStep {duty} (now : s.place = .loop (duty :: rest)) :
    EngineStep s (s.perform duty rest) := by
  unfold perform
  split
  · exact quiet_engineStep s _ _ id
  · exact onChannel_engineStep s _ (.inr (.inl rfl))
  · dsimp only
    split
    · exact onChannel_engineStep s _ (.inr (.inr ⟨rfl, rest, now⟩))
    · exact onChannel_engineStep s s.place (.inr (.inr ⟨rfl, rest, now⟩))
  · exact quiet_engineStep s _ _ id

section

variable (s : System workers)

theorem run_engineStep : EngineStep s s.run := by
  unfold System.run
  split
  · split
    · exact quiet_engineStep s _ _ (by simp +contextual)
    · exact quiet_engineStep s _ _ id
  · rename_i now
    exact perform_engineStep now
  · exact quiet_engineStep s s.place s.pollers id
  · split
    · exact quiet_engineStep s _ _ id
    · exact quiet_engineStep s s.place s.pollers id

theorem act_engineStep (action : Action workers) : EngineStep s (s.act action) := by
  cases action with
  | submitTo worker hasCallback => exact onChannel_engineStep s s.place (.inl ⟨hasCallback, rfl⟩)
  | stop =>
    exact ⟨fun worker => .inr ⟨_, .inl ⟨false, rfl⟩, rfl⟩, rfl, rfl, rfl, rfl, fun _ => rfl, id,
      fun _ => .inr rfl⟩
  | registerPoller poller => exact quiet_engineStep s _ _ id

section

variable (worker : Fin workers)

@[simp]
theorem onChannel_stops (part : MessageQueue.Step) : (s.onChannel worker part).stops = s.stops := rfl

structure WorkerStep (worker : Fin workers) (s t : System workers) : Prop where
  channel : t.channels worker = s.channels worker ∨
    ∃ part, (part = .flushResponseBatch ∨ part = .processIncoming) ∧
      t.channels worker = MessageQueue.step (s.channels worker) part
  others : ∀ other ≠ worker, t.channels other = s.channels other ∧
    t.workerPlace other = s.workerPlace other ∧ t.workerStopping other = s.workerStopping other
  workerStopping : s.workerStopping worker → t.workerStopping worker
  place : t.place = s.place
  stopping : t.stopping = s.stopping
  stops : t.stops = s.stops
  ioLeft : t.ioLeft = s.ioLeft
  extraIo : t.extraIo = s.extraIo
  ioStop : s.ioStop → t.ioStop

theorem runWorker_workerStep : WorkerStep worker s (s.runWorker worker) := by
  have same : WorkerStep worker s s :=
    ⟨.inl rfl, fun _ _ => ⟨rfl, rfl, rfl⟩, id, rfl, rfl, rfl, rfl, rfl, id⟩
  unfold runWorker
  split
  · split
    · refine { same with others := fun other distinct => ?_, ioStop := fun set => by simp [set] }
      simp [setPlace, distinct]
    · refine { same with others := fun other distinct => ?_ }
      simp [setPlace, distinct]
  · refine { same with
      channel := .inr ⟨_, .inl rfl, by simp [setPlace]⟩, others := fun other distinct => ?_ }
    simp [setPlace, onChannel, distinct]
  · dsimp only
    split
    · refine { same with
        channel := .inr ⟨_, .inr rfl, by simp [setPlace]⟩
        others := fun other distinct => ?_
        workerStopping := by simp +contextual [setPlace] }
      simp [setPlace, onChannel, distinct]
    · refine { same with
        channel := .inr ⟨_, .inr rfl, by simp⟩
        others := fun other distinct => ?_
        workerStopping := by simp +contextual }
      simp [onChannel, distinct]
  · exact same

theorem workerStop_workerStep : WorkerStep worker s (step s (.workerStop worker)) := by
  unfold step
  dsimp only
  split
  · exact ⟨.inl rfl, fun _ _ => ⟨rfl, rfl, rfl⟩, id, rfl, rfl, rfl, rfl, rfl, id⟩
  · exact ⟨.inl rfl, fun other distinct => ⟨rfl, rfl, by simp [distinct]⟩, by simp, rfl, rfl, rfl,
      rfl, rfl, id⟩

theorem workerStop_keeps : (step s (.workerStop worker)).channels = s.channels ∧
      (step s (.workerStop worker)).workerPlace = s.workerPlace := by
  rw [step]
  split <;> exact ⟨rfl, rfl⟩

end

theorem step_cases (label : Label workers) : ((label = .engine0 ∧ step s label = s.run) ∨
        ((∃ action, label = .handler action) ∧ (step s label).place = s.place)) ∧
          EngineStep s (step s label) ∨
      (∃ worker, (label = .worker worker ∨ label = .workerStop worker) ∧
        WorkerStep worker s (step s label)) ∨
      (label = .ioThread ∧ step s label = { s with ioLeft := s.ioLeft || s.ioStop }) := by
  cases label with
  | engine0 => exact .inl ⟨.inl ⟨rfl, rfl⟩, run_engineStep s⟩
  | handler action =>
    rw [step]
    split
    · refine .inl ⟨.inr ⟨⟨action, rfl⟩, ?_⟩, act_engineStep s action⟩
      cases action <;> rfl
    · exact .inl ⟨.inr ⟨⟨action, rfl⟩, rfl⟩, quiet_engineStep s s.place s.pollers id⟩
  | worker worker => exact .inr (.inl ⟨worker, .inl rfl, runWorker_workerStep s worker⟩)
  | workerStop worker => exact .inr (.inl ⟨worker, .inr rfl, workerStop_workerStep s worker⟩)
  | ioThread =>
    refine .inr (.inr ⟨rfl, ?_⟩)
    rw [step]
    split
    · rename_i set
      rw [set, Bool.or_true]
    · rename_i unset
      have same : (s.ioLeft || s.ioStop) = s.ioLeft := by simp [unset]
      rw [same]

end

structure Orderly (s : System workers) (worker : Fin workers) : Prop where
  delivered : Delivered (s.channels worker)
  heeded : ∀ func ∈ (s.channels worker).executed, func.id ∈ s.stops worker → s.workerStopping worker
  outside : s.workerPlace worker ≠ .processIncoming → (s.channels worker).incoming = .idle
  left : s.workerPlace worker = .left → s.workerStopping worker

theorem start_orderly (extraIo : Bool) (stopped : Fin workers → Bool) (worker : Fin workers) :
    Orderly (start extraIo stopped) worker :=
  ⟨start_delivered _, nofun, fun _ => rfl, nofun⟩

variable {channel : MessageQueue.System}

theorem executed_id_lt (delivered : Delivered channel) {func} (executed : func ∈ channel.executed) :
    func.id < channel.executed.length := by
  have known : func.id ∈ channel.executed.map (·.id) := List.mem_map_of_mem executed
  have front := delivered.inOrder.executed.map (·.id)
  rw [delivered.numbered, List.prefix_iff_eq_take, List.take_range] at front
  rw [front, List.mem_range] at known
  simp at known
  exact known.1

theorem ByEngine.other (byEngine : ByEngine s worker part) : part ≠ .processIncoming := by
  rcases byEngine with ⟨_, rfl⟩ | rfl | ⟨rfl, -⟩ <;> nofun

variable {t : System workers}

theorem EngineStep.incoming (engine : EngineStep s t) (worker : Fin workers) :
    (t.channels worker).incoming = (s.channels worker).incoming ∧
      (t.channels worker).executed = (s.channels worker).executed := by
  rcases engine.channel worker with same | ⟨part, byEngine, is⟩
  · rw [same]
    exact ⟨rfl, rfl⟩
  · rw [is]
    exact step_incoming _ byEngine.other

theorem EngineStep.orderly (engine : EngineStep s t) (inv : Orderly s worker) : Orderly t worker := by
  obtain ⟨incoming, executed⟩ := engine.incoming worker
  refine ⟨?_, ?_, ?_, ?_⟩
  · rcases engine.channel worker with same | ⟨part, -, is⟩
    · rw [same]
      exact inv.delivered
    · rw [is]
      exact step_delivered part inv.delivered
  · rw [executed, engine.workerStopping]
    intro func ran listed
    rcases engine.stops worker with same | more
    · exact inv.heeded func ran (same ▸ listed)
    · rw [more, List.mem_cons] at listed
      rcases listed with fresh | old
      · have bound := inv.delivered.inOrder.executed.length_le
        exact absurd (executed_id_lt inv.delivered ran) (by omega)
      · exact inv.heeded func ran old
  · rw [engine.workerPlace, incoming]
    exact inv.outside
  · rw [engine.workerPlace, engine.workerStopping]
    exact inv.left

theorem Orderly.of_same (inv : Orderly s worker) (channel : t.channels worker = s.channels worker)
    (stops : t.stops = s.stops) (workerPlace : t.workerPlace worker = s.workerPlace worker)
    (workerStopping : s.workerStopping worker → t.workerStopping worker) : Orderly t worker := by
  refine ⟨channel ▸ inv.delivered, ?_, ?_, ?_⟩
  · rw [channel, stops]
    exact fun func ran listed => workerStopping (inv.heeded func ran listed)
  · rw [channel, workerPlace]
    exact inv.outside
  · rw [workerPlace]
    exact fun left => workerStopping (inv.left left)

theorem processIncoming_executed (sound : channel.incoming.Sound) :
    (processIncoming channel).executed = channel.executed ∨
      ∃ func items index, channel.incoming = .running (some func) items index ∧
        (processIncoming channel).executed = channel.executed ++ [func] := by
  unfold processIncoming
  split
  · rename_i func items index phase
    rw [phase] at sound
    obtain ⟨func, rfl⟩ := Option.ne_none_iff_exists'.mp sound
    exact .inr ⟨func, items, index, phase, rfl⟩
  · exact .inl rfl
  · exact .inl rfl

theorem runWorker_orderly (inv : Orderly s worker) : Orderly (s.runWorker worker) worker := by
  unfold runWorker
  split
  · rename_i top
    have idle := inv.outside (by simp [top])
    split
    · rename_i set
      exact ⟨inv.delivered, inv.heeded, fun _ => idle, fun _ => set⟩
    · refine ⟨inv.delivered, inv.heeded, fun _ => idle, ?_⟩
      simp [setPlace]
  · rename_i flush
    have idle := inv.outside (by simp [flush])
    refine ⟨?_, ?_, fun _ => ?_, ?_⟩
    · simpa [setPlace] using step_delivered .flushResponseBatch inv.delivered
    · simpa [setPlace, MessageQueue.step, onChannel] using inv.heeded
    · simpa [setPlace, MessageQueue.step] using idle
    · simp [setPlace]
  · rename_i now
    have delivered := step_delivered .processIncoming inv.delivered
    have heeded : ∀ func ∈ (processIncoming (s.channels worker)).executed,
        func.id ∈ s.stops worker → (s.workerStopping worker || s.heeds worker) = true := by
      intro func ran listed
      rw [Bool.or_eq_true]
      rcases processIncoming_executed inv.delivered.incoming with same | ⟨next, items, index, phase, more⟩
      · exact .inl (inv.heeded func (same ▸ ran) listed)
      · rw [more, List.mem_append, List.mem_singleton] at ran
        rcases ran with old | rfl
        · exact .inl (inv.heeded func old listed)
        · refine .inr ?_
          rw [heeds, phase]
          simpa using listed
    dsimp only
    split
    · rename_i idle
      refine ⟨?_, ?_, fun _ => ?_, ?_⟩
      · simpa [setPlace] using delivered
      · simpa [setPlace, MessageQueue.step] using heeded
      · simpa [setPlace] using idle
      · simp [setPlace]
    · refine ⟨?_, ?_, ?_, ?_⟩
      · simpa using delivered
      · simpa [MessageQueue.step] using heeded
      · exact fun other => absurd now other
      · exact fun left => absurd (now.symm.trans left) (by simp)
  · exact inv

theorem step_orderly (label : Label workers) (inv : ∀ worker, Orderly s worker) (worker : Fin workers) :
    Orderly (step s label) worker := by
  rcases step_cases s label with ⟨-, engine⟩ | ⟨other, which, change⟩ | ⟨-, is⟩
  · exact engine.orderly (inv worker)
  · by_cases same : worker = other
    · subst same
      rcases which with rfl | rfl
      · exact runWorker_orderly (inv worker)
      · obtain ⟨channels, place⟩ := workerStop_keeps s worker
        exact (inv worker).of_same (congrFun channels worker) change.stops (congrFun place worker)
          change.workerStopping
    · obtain ⟨channel, place, flag⟩ := change.others worker same
      exact (inv worker).of_same channel change.stops place (fun set => flag ▸ set)
  · rw [is]
    exact (inv worker).of_same rfl rfl rfl id

variable {label : Label workers}

theorem step_keeps_worker (other : label ≠ .worker worker) :
    (step s label).workerPlace worker = s.workerPlace worker ∧
      ((step s label).channels worker).incoming = (s.channels worker).incoming ∧
      ((step s label).channels worker).executed = (s.channels worker).executed := by
  rcases step_cases s label with ⟨-, engine⟩ | ⟨another, which, change⟩ | ⟨-, is⟩
  · exact ⟨congrFun engine.workerPlace worker, engine.incoming worker⟩
  · by_cases same : worker = another
    · subst same
      obtain rfl := which.resolve_left other
      obtain ⟨channels, place⟩ := workerStop_keeps s worker
      rw [channels, place]
      exact ⟨rfl, rfl, rfl⟩
    · obtain ⟨channel, place, -⟩ := change.others worker same
      rw [channel, place]
      exact ⟨rfl, rfl, rfl⟩
  · rw [is]
    exact ⟨rfl, rfl, rfl⟩

theorem step_workerStopping (set : s.workerStopping worker) : (step s label).workerStopping worker := by
  rcases step_cases s label with ⟨-, engine⟩ | ⟨another, -, change⟩ | ⟨-, is⟩
  · rw [engine.workerStopping]
    exact set
  · by_cases same : worker = another
    · subst same
      exact change.workerStopping set
    · rw [(change.others worker same).2.2]
      exact set
  · rw [is]
    exact set

theorem step_left (left : s.workerPlace worker = .left) : (step s label).workerPlace worker = .left := by
  by_cases own : label = .worker worker
  · rw [own, step, runWorker, left]
    exact left
  · rw [(step_keeps_worker own).1]
    exact left

theorem executed_length (delivered : Delivered channel) :
    channel.executed.length = channel.answers + channel.incoming.halfDone.length := by
  rw [delivered.executed]
  simp only [System.answered, System.answers, List.length_append]
  omega

theorem executed_of_lt (delivered : Delivered channel) {id}
    (ran : id < channel.executed.length) : ∃ func ∈ channel.executed, func.id = id := by
  have before := delivered.inOrder.executed
  have known : id < channel.submitted.length := Nat.lt_of_lt_of_le ran before.length_le
  have number : (channel.submitted.map (·.id))[id]? = some id := by
    rw [delivered.numbered]
    exact List.getElem?_range known
  rw [List.getElem?_map, List.getElem?_eq_getElem known, Option.map_some] at number
  refine ⟨channel.executed[id], List.getElem_mem ran, ?_⟩
  rw [before.getElem ran]
  exact Option.some.inj number

def Phase.turn {α : Type} : Phase α → Nat
  | .idle => 3
  | .popped _ => 2
  | .running _ _ _ => 1
  | .ran _ _ _ => 6

def System.turn (s : System workers) (worker : Fin workers) : Nat :=
  match s.workerPlace worker with
  | .top => 5
  | .flushResponseBatch => 4
  | .processIncoming => Phase.turn (s.channels worker).incoming
  | .left => 0

def System.untilCall (worker : Fin workers) (id : Nat) (s : System workers) : Nat :=
  8 * (id + 1 - (s.channels worker).executed.length) + s.turn worker

theorem runWorker_processIncoming (now : s.workerPlace worker = .processIncoming) :
    (s.runWorker worker).channels worker = processIncoming (s.channels worker) ∧
      (s.runWorker worker).workerPlace worker =
        if (processIncoming (s.channels worker)).incoming = .idle then .top
        else .processIncoming := by
  rw [runWorker, now]
  simp only [onChannel_channels, if_true, MessageQueue.step]
  split
  · exact ⟨by simp [setPlace, MessageQueue.step], by simp [setPlace]⟩
  · exact ⟨by simp [MessageQueue.step], now⟩

theorem processIncoming_untilCall {id : Nat} (delivered : Delivered channel)
    (sent : id < channel.passed .sent) (ahead : channel.executed.length ≤ id) :
    8 * (id + 1 - (processIncoming channel).executed.length) +
        (if (processIncoming channel).incoming = .idle then 5
          else Phase.turn (processIncoming channel).incoming) <
      8 * (id + 1 - channel.executed.length) + Phase.turn channel.incoming := by
  have sound := delivered.incoming
  cases phase : channel.incoming with
  | idle =>
    have ran := executed_length delivered
    simp only [System.passed, phase, Phase.inHand, Phase.halfDone, List.length_nil] at sent ran
    obtain ⟨func, rest, popped⟩ := Phase.pop_idle (q := channel.queue.pending) (by omega)
    simp [processIncoming, phase, popped, Phase.turn]
  | popped func => simp [processIncoming, phase, Phase.pop, Phase.turn]
  | running func items index =>
    rw [phase] at sound
    obtain ⟨func, rfl⟩ := Option.ne_none_iff_exists'.mp sound
    simp only [processIncoming, phase, Phase.turn, Option.toList_some, List.length_append,
      List.length_singleton, reduceCtorEq, if_false]
    omega
  | ran func items index =>
    simp only [processIncoming, phase, Phase.turn, Phase.advance]
    split <;> simp

theorem runWorker_untilCall {id} (inv : Orderly s worker) (sent : id < (s.channels worker).passed .sent)
    (ahead : (s.channels worker).executed.length ≤ id) (unset : ¬s.workerStopping worker) :
    (s.runWorker worker).untilCall worker id < s.untilCall worker id := by
  cases now : s.workerPlace worker with
  | top =>
    rw [runWorker, now]
    simp [untilCall, turn, setPlace, now, unset]
  | flushResponseBatch =>
    have idle := inv.outside (by rw [now]; nofun)
    rw [runWorker, now]
    simp [untilCall, turn, setPlace, now, MessageQueue.step, idle, Phase.turn]
  | processIncoming =>
    obtain ⟨channel, place⟩ := runWorker_processIncoming now
    have less := processIncoming_untilCall inv.delivered sent ahead
    simp only [untilCall, turn, channel, place, now]
    split at less <;> rename_i idle <;> simpa only [idle, if_true, if_false] using less
  | left => exact absurd (inv.left now) unset

structure Sent (s : System workers) (worker : Fin workers) (id : Nat) : Prop where
  orderly : ∀ worker, Orderly s worker
  listed : id ∈ s.stops worker
  sent : id < (s.channels worker).passed .sent

theorem step_sent {id} (label : Label workers) (sent : Sent s worker id) :
    Sent (step s label) worker id := by
  have delivered := (sent.orderly worker).delivered
  have further : ∀ {channel}, (channel = s.channels worker ∨
      ∃ part, channel = MessageQueue.step (s.channels worker) part) → id < channel.passed .sent := by
    rintro channel (rfl | ⟨part, rfl⟩)
    · exact sent.sent
    · exact Nat.lt_of_lt_of_le sent.sent (step_passed part delivered .sent)
  refine ⟨step_orderly label sent.orderly, ?_, further ?_⟩
  · rcases step_cases s label with ⟨-, engine⟩ | ⟨_, -, change⟩ | ⟨-, is⟩
    · rcases engine.stops worker with same | more
      · exact same ▸ sent.listed
      · exact more ▸ List.mem_cons_of_mem _ sent.listed
    · exact change.stops ▸ sent.listed
    · rw [is]
      exact sent.listed
  · rcases step_cases s label with ⟨-, engine⟩ | ⟨other, -, change⟩ | ⟨-, is⟩
    · rcases engine.channel worker with same | ⟨part, -, stepped⟩
      · exact .inl same
      · exact .inr ⟨part, stepped⟩
    · by_cases same : worker = other
      · subst same
        rcases change.channel with kept | ⟨part, -, stepped⟩
        · exact .inl kept
        · exact .inr ⟨part, stepped⟩
      · exact .inl (change.others worker same).1
    · rw [is]
      exact .inl rfl

def System.untilTop (worker : Fin workers) (s : System workers) : Nat ×ₗ (Nat ×ₗ Nat) :=
  match s.workerPlace worker with
  | .left => toLex (0, toLex (0, 0))
  | .top => toLex (1, toLex (0, 0))
  | .processIncoming => toLex (2, Phase.ahead (s.channels worker).incoming)
  | .flushResponseBatch => toLex (3, toLex (0, 0))

theorem runWorker_untilTop (set : s.workerStopping worker) (inside : s.workerPlace worker ≠ .left) :
    (s.runWorker worker).untilTop worker < s.untilTop worker := by
  cases now : s.workerPlace worker with
  | top =>
    rw [runWorker, now]
    simp [untilTop, setPlace, now, set, Prod.Lex.toLex_lt_toLex]
  | flushResponseBatch =>
    rw [runWorker, now]
    simp [untilTop, setPlace, now, Prod.Lex.toLex_lt_toLex]
  | processIncoming =>
    obtain ⟨channel, place⟩ := runWorker_processIncoming now
    have less := Phase.next_ahead (s.channels worker).queue.pending (s.channels worker).incoming
    rw [← processIncoming_next] at less
    simp only [untilTop, channel, place, now]
    split <;> rename_i found
    · split at found <;> cases found
    · simp [Prod.Lex.toLex_lt_toLex]
    · have going : ¬(processIncoming (s.channels worker)).incoming = .idle := by
        intro idle
        rw [if_pos idle] at found
        cases found
      exact Prod.Lex.toLex_lt_toLex.mpr (.inr ⟨rfl, less.resolve_left going⟩)
    · split at found <;> cases found
  | left => exact absurd now inside

def System.untilTest (s : System workers) : Nat ×ₗ (Nat ×ₗ (Nat ×ₗ Nat)) :=
  match s.place with
  | .loop todo =>
    toLex (todo.count .pollOnce, toLex (todo.length + 1, match todo with
      | .processCompletions worker :: _ => Phase.ahead (s.channels worker).completions
      | _ => toLex (0, 0)))
  | .joining _ => toLex (0, toLex (0, toLex (0, 0)))

theorem poll_count (workers : Nat) (pollers : List Poller) :
    (pollers.flatMap (Poller.poll workers)).count .pollOnce = 0 := by
  rw [List.count_eq_zero]
  simp only [List.mem_flatMap, not_exists, not_and]
  intro poller _ listed
  cases poller <;> simp [Poller.poll, pollQueues] at listed

theorem shorter_untilTest {duty} (now : s.place = .loop (duty :: rest)) (next : t.place = .loop rest) :
    t.untilTest < s.untilTest := by
  simp only [untilTest, now, next, Prod.Lex.toLex_lt_toLex]
  have fewer := List.count_le_count_cons (a := Duty.pollOnce) (b := duty) (l := rest)
  rcases Nat.lt_or_eq_of_le fewer with less | same
  · exact .inl less
  · exact .inr ⟨same, .inl (by simp)⟩

theorem run_untilTest (set : s.stopping) {todo} (now : s.place = .loop todo) :
    s.run.untilTest < s.untilTest := by
  cases todo with
  | nil =>
    rw [System.run, now]
    simp only [set, if_true]
    simp [untilTest, now, Prod.Lex.toLex_lt_toLex]
  | cons duty rest =>
    have shorter : ∀ {t : System workers}, t.place = .loop rest → t.untilTest < s.untilTest :=
      shorter_untilTest now
    rw [System.run, now]
    dsimp only
    cases duty with
    | pollOnce =>
      simp only [perform, untilTest, now, Prod.Lex.toLex_lt_toLex]
      refine .inl ?_
      rw [List.count_append, poll_count, List.count_cons_self]
      omega
    | processCompletions worker =>
      rw [perform]
      split
      · exact shorter rfl
      · rename_i going
        have less := Phase.next_ahead (s.channels worker).queue.completed (s.channels worker).completions
        rw [← processCompletions_next] at less
        simp only [onChannel_channels, if_true, MessageQueue.step] at going
        simp only [untilTest, now, show (s.onChannel worker .processCompletions).place =
          s.place from rfl, onChannel_channels, if_true, MessageQueue.step,
          Prod.Lex.toLex_lt_toLex]
        exact .inr ⟨trivial, .inr ⟨trivial, less.resolve_left going⟩⟩
    | tick | executeTasks | pollSignal | pollIo | flushResponseBatch | processIncoming
      | flushRequestBatch => exact shorter rfl

theorem step_keeps_engine (other : label ≠ .engine0) :
    (step s label).place = s.place ∧ ∀ worker,
      ((step s label).channels worker).completions = (s.channels worker).completions := by
  cases label with
  | engine0 => exact absurd rfl other
  | handler action =>
    rw [step]
    split
    · cases action with
      | submitTo target hasCallback =>
        refine ⟨rfl, fun worker => ?_⟩
        rw [act, onChannel_channels]
        split
        · rename_i same
          rw [same]
          exact step_completions _ nofun
        · rfl
      | stop | registerPoller => exact ⟨rfl, fun worker => rfl⟩
    · exact ⟨rfl, fun worker => rfl⟩
  | worker target =>
    have change := runWorker_workerStep s target
    refine ⟨change.place, fun worker => ?_⟩
    by_cases same : worker = target
    · subst same
      rcases change.channel with kept | ⟨part, which, stepped⟩
      · rw [step, kept]
      · rw [step, stepped]
        exact step_completions _ (by rcases which with rfl | rfl <;> nofun)
    · rw [step, (change.others worker same).1]
  | workerStop worker =>
    rw [(workerStop_keeps s worker).1]
    exact ⟨(workerStop_workerStep s worker).place, fun _ => rfl⟩
  | ioThread =>
    rw [step]
    split <;> exact ⟨rfl, fun _ => rfl⟩

theorem step_flags : (s.stopping → (step s label).stopping) ∧ (s.ioStop → (step s label).ioStop) ∧
    (s.ioLeft → (step s label).ioLeft) := by
  rcases step_cases s label with ⟨-, engine⟩ | ⟨_, -, change⟩ | ⟨-, is⟩
  · exact ⟨engine.stopping, engine.ioStop, engine.ioLeft.trans⟩
  · exact ⟨change.stopping.trans, change.ioStop, change.ioLeft.trans⟩
  · rw [is]
    exact ⟨id, id, by simp +contextual⟩

theorem step_finished {thread} (done : s.finished thread) : (step s label).finished thread := by
  cases thread with
  | io => exact step_flags.2.2 done
  | worker worker => exact decide_eq_true (step_left (of_decide_eq_true done))

def Watched (s : System workers) : Prop :=
  ∀ threads, s.place = .joining threads → .io ∈ threads → s.ioStop

theorem run_joining {threads} (joins : s.place = .joining threads) :
    s.run = s ∨ ∃ thread rest, threads = thread :: rest ∧ s.run = { s with place := .joining rest } := by
  cases threads with
  | nil => exact .inl (by rw [System.run, joins])
  | cons thread rest =>
    rw [System.run, joins]
    dsimp only
    split
    · exact .inr ⟨thread, rest, rfl, rfl⟩
    · exact .inl rfl

theorem perform_place {duty} (now : s.place = .loop (duty :: rest)) :
    ∃ todo, (s.perform duty rest).place = .loop todo := by
  unfold perform
  split
  · exact ⟨_, rfl⟩
  · exact ⟨_, rfl⟩
  · dsimp only
    split
    · exact ⟨_, rfl⟩
    · exact ⟨_, now⟩
  · exact ⟨_, rfl⟩

theorem step_watched (label : Label workers) (watched : Watched s) : Watched (step s label) := by
  intro threads joins listed
  by_cases own : label = .engine0
  · subst own
    cases now : s.place with
    | joining before =>
      rcases run_joining now with same | ⟨thread, rest, rfl, is⟩
      · rw [step, same] at joins ⊢
        exact watched threads joins listed
      · rw [step, is] at joins ⊢
        cases joins
        exact watched _ now (List.mem_cons_of_mem _ listed)
    | loop todo =>
      cases todo with
      | nil =>
        rw [step, System.run, now] at joins ⊢
        dsimp only at joins ⊢
        split at joins
        · rename_i set
          cases joins
          have extra : s.extraIo := by
            by_contra off
            simp [System.threads, off] at listed
          simp [set, extra]
        · cases joins
      | cons duty rest =>
        obtain ⟨todo, next⟩ := perform_place now
        rw [step, System.run, now] at joins
        cases next.symm.trans joins
  · exact step_flags.2.1 (watched threads ((step_keeps_engine own).1 ▸ joins) listed)

theorem step_threads (label : Label workers) : (step s label).threads = s.threads := by
  unfold System.threads
  rcases step_cases s label with ⟨-, engine⟩ | ⟨_, -, change⟩ | ⟨-, is⟩
  · rw [engine.extraIo]
  · rw [change.extraIo]
  · rw [is]

def Awaited (s : System workers) (rest : List (Thread workers)) : Prop :=
  s.stopping ∧ ∀ thread ∈ s.threads, thread ∈ rest ∨ s.finished thread

theorem step_awaited {rest before} (awaited : Awaited s before)
    (kept : ∀ thread ∈ before, thread ∈ rest ∨ s.finished thread) : Awaited (step s label) rest := by
  refine ⟨step_flags.1 awaited.1, fun thread listed => ?_⟩
  rw [step_threads] at listed
  exact ((awaited.2 thread listed).elim (kept thread) .inr).imp_right step_finished

theorem step_joins (label : Label workers) (awaited : ∀ rest, s.place = .joining rest → Awaited s rest)
    {rest} (joins : (step s label).place = .joining rest) : Awaited (step s label) rest := by
  by_cases own : label = .engine0
  · have ran := joins
    rw [own, step, System.run] at ran
    split at ran
    · split at ran
      · cases ran
        rename_i set
        exact step_awaited ⟨set, fun _ => .inl⟩ fun _ => .inl
      · cases ran
    · rename_i now
      obtain ⟨todo, next⟩ := perform_place now
      cases next.symm.trans ran
    · exact step_awaited (awaited _ ran) fun _ => .inl
    · rename_i now
      split at ran
      · cases ran
        refine step_awaited (awaited _ now) fun thread listed => ?_
        rcases List.mem_cons.mp listed with rfl | waits
        · exact .inr ‹_›
        · exact .inl waits
      · exact step_awaited (awaited _ ran) fun _ => .inl
  · exact step_awaited (awaited rest ((step_keeps_engine own).1 ▸ joins)) fun _ => .inl

end

section Run

variable {workers : Nat} {extraIo : Bool} {stopped : Fin workers → Bool} {schedule : Nat → Label workers}

theorem trace_orderly (extraIo : Bool) (stopped : Fin workers → Bool)
    (schedule : Nat → Label workers) (time : Nat) :
    ∀ worker, Orderly (trace step (start extraIo stopped) schedule time) worker := by
  induction time with
  | zero => exact start_orderly extraIo stopped
  | succ time ih => exact step_orderly _ ih

variable {worker : Fin workers} {time : Nat}

theorem worker_told {id} (runs : Recurs schedule (.worker worker))
    (sent : Sent (trace step (start extraIo stopped) schedule time) worker id) :
    ∃ later ≥ time, (trace step (start extraIo stopped) schedule later).workerStopping worker := by
  refine trace_eventually (fun s => Sent s worker id) (fun s => s.workerStopping worker)
    (untilCall worker id) runs sent (fun _ => step_sent) (fun s still unset => ?_)
    (fun s other still foreign unset => ?_)
  · have inv := still.orderly worker
    refine .inr (runWorker_untilCall inv still.sent (Nat.le_of_not_lt fun ran => ?_) unset)
    obtain ⟨func, executed, rfl⟩ := executed_of_lt inv.delivered ran
    exact unset (inv.heeded func executed still.listed)
  · obtain ⟨place, incoming, executed⟩ := step_keeps_worker (s := s) foreign
    exact .inr (by simp only [untilCall, turn, place, incoming, executed])

theorem worker_leaves (runs : Recurs schedule (.worker worker))
    (set : (trace step (start extraIo stopped) schedule time).workerStopping worker) :
    ∃ later ≥ time, (trace step (start extraIo stopped) schedule later).workerPlace worker = .left := by
  refine trace_eventually (fun s => s.workerStopping worker)
    (fun s => s.workerPlace worker = .left) (untilTop worker) runs set
    (fun s label => step_workerStopping) (fun s still inside => ?_)
    (fun s other still foreign inside => ?_)
  · exact .inr (runWorker_untilTop still inside)
  · obtain ⟨place, incoming, -⟩ := step_keeps_worker (s := s) foreign
    exact .inr (by simp only [untilTop, place, incoming])

theorem engine_leaves (runs : Recurs schedule .engine0)
    (set : (trace step (start extraIo stopped) schedule time).stopping) :
    ∃ later ≥ time, ∃ threads,
      (trace step (start extraIo stopped) schedule later).place = .joining threads := by
  refine trace_eventually (fun s : System workers => s.stopping)
    (fun s => ∃ threads, s.place = .joining threads) untilTest runs set
    (fun s label => step_flags.1) (fun s still inside => ?_) (fun s other still foreign inside => ?_)
  · cases now : s.place with
    | loop todo => exact .inr (run_untilTest still now)
    | joining threads => exact absurd ⟨threads, now⟩ inside
  · obtain ⟨place, completions⟩ := step_keeps_engine (s := s) foreign
    exact .inr (by simp only [untilTest, place, completions])

theorem ioThread_leaves (runs : Recurs schedule .ioThread)
    (set : (trace step (start extraIo stopped) schedule time).ioStop) :
    ∃ later ≥ time, (trace step (start extraIo stopped) schedule later).ioLeft := by
  refine trace_eventually (fun s : System workers => s.ioStop) (fun s => s.ioLeft) (fun _ => 0) runs set
    (fun s label => step_flags.2.1) (fun s still _ => .inl ?_) (fun _ _ _ _ _ => .inr rfl)
  rw [step, if_pos still]

def System.untilJoined (s : System workers) : Nat :=
  match s.place with
  | .loop _ => 0
  | .joining threads => threads.length

theorem joinAll_returns {threads} (runs : Recurs schedule .engine0)
    (joins : (trace step (start extraIo stopped) schedule time).place = .joining threads)
    (done : ∀ thread ∈ threads, (trace step (start extraIo stopped) schedule time).finished thread) :
    ∃ later ≥ time, (trace step (start extraIo stopped) schedule later).place = .joining [] := by
  refine trace_eventually
    (fun s : System workers => ∃ threads, s.place = .joining threads ∧
      ∀ thread ∈ threads, s.finished thread)
    (fun s => s.place = .joining []) untilJoined runs ⟨threads, joins, done⟩
    (fun s label still => ?_) (fun s still ahead => ?_) (fun s other still foreign ahead => ?_)
  · obtain ⟨threads, joins, done⟩ := still
    by_cases own : label = .engine0
    · subst own
      rcases run_joining joins with same | ⟨thread, rest, rfl, is⟩
      · rw [step, same]
        exact ⟨threads, joins, done⟩
      · rw [step, is]
        exact ⟨rest, rfl, fun thread listed => done thread (List.mem_cons_of_mem _ listed)⟩
    · exact ⟨threads, (step_keeps_engine own).1.trans joins,
        fun thread listed => step_finished (done thread listed)⟩
  · obtain ⟨threads, joins, done⟩ := still
    cases threads with
    | nil => exact absurd joins ahead
    | cons thread rest =>
      refine .inr ?_
      rw [step, System.run, joins]
      dsimp only
      rw [if_pos (done thread (List.mem_cons_self ..))]
      simp [untilJoined, joins]
  · obtain ⟨place, -⟩ := step_keeps_engine (s := s) foreign
    exact .inr (by simp only [untilJoined, place])

theorem trace_watched (time : Nat) : Watched (trace step (start extraIo stopped) schedule time) :=
  trace_invariant nofun (fun _ => step_watched) time

variable {label : Label workers}

theorem step_joining {s} (joins : ∃ threads, s.place = .joining threads) :
    ∃ threads, (step s label).place = .joining threads := by
  obtain ⟨threads, joins⟩ := joins
  by_cases own : label = .engine0
  · subst own
    rcases run_joining joins with same | ⟨thread, rest, -, is⟩
    · exact ⟨threads, by rw [step, same, joins]⟩
    · exact ⟨rest, by rw [step, is]⟩
  · exact ⟨threads, (step_keeps_engine own).1.trans joins⟩

theorem threads_finish (ioRuns : Recurs schedule .ioThread)
    (joins : ∃ threads, (trace step (start extraIo stopped) schedule time).place = .joining threads)
    (left : ∀ worker, (trace step (start extraIo stopped) schedule time).workerPlace worker = .left) :
    ∃ later ≥ time, ∃ threads,
      (trace step (start extraIo stopped) schedule later).place = .joining threads ∧
      ∀ thread ∈ threads, (trace step (start extraIo stopped) schedule later).finished thread := by
  by_cases told : (trace step (start extraIo stopped) schedule time).ioStop
  · obtain ⟨later, after, ioLeft⟩ := ioThread_leaves ioRuns told
    obtain ⟨threads, joins⟩ := trace_stays
      (fun s : System workers => ∃ threads, s.place = .joining threads) (fun _ _ => step_joining)
      after joins
    refine ⟨later, after, threads, joins, fun thread _ => ?_⟩
    cases thread with
    | io => exact ioLeft
    | worker worker =>
      exact decide_eq_true (trace_stays (fun s : System workers => s.workerPlace worker = .left)
        (fun _ _ => step_left) after (left worker))
  · obtain ⟨threads, joins⟩ := joins
    refine ⟨time, Nat.le_refl _, threads, joins, fun thread listed => ?_⟩
    cases thread with
    | io => exact absurd (trace_watched time threads joins listed) told
    | worker worker => exact decide_eq_true (left worker)

theorem stop_sent {s} (inv : ∀ worker, Orderly s worker)
    (room : (s.channels worker).queue.pending.items.length +
      (s.channels worker).queue.pendingFifo.length < queueLength) :
    Sent s.stop worker (s.channels worker).submitted.length := by
  have moves := (s.channels worker).queue.submitItem_moves
    { id := (s.channels worker).submitted.length, hasCallback := false }
  have total := congrArg List.length moves.order
  have left := moves.left
  have kept := congrArg List.length (inv worker).delivered.kept
  simp only [List.length_append, List.length_singleton] at total left
  simp only [MessageQueue.System.underway, List.length_append] at kept
  refine ⟨fun worker => (act_engineStep s .stop).orderly (inv worker), List.mem_cons_self .., ?_⟩
  simp only [stop, MessageQueue.step, MessageQueue.System.passed,
    MessageQueue.System.answers, moves.completed, moves.completedFifo]
  omega

/-- If every worker's ring has room for one more request than are waiting when `stop()` is called,
every engine is told to stop and `join_all` returns. -/
theorem stop_reaches_every_engine (extraIo : Bool) (stopped : Fin workers → Bool)
    (schedule : Nat → Label workers) (time : Nat) (engineRuns : Recurs schedule .engine0)
    (workersRun : ∀ worker, Recurs schedule (.worker worker)) (ioRuns : Recurs schedule .ioThread)
    (calls : schedule time = .handler .stop)
    (handled : (trace step (start extraIo stopped) schedule time).handles .stop)
    (room : ∀ worker, ((trace step (start extraIo stopped) schedule time).channels
        worker).queue.pending.items.length +
      ((trace step (start extraIo stopped) schedule time).channels
        worker).queue.pendingFifo.length < queueLength) :
    ∃ later ≥ time, (trace step (start extraIo stopped) schedule later).stopping ∧
      (∀ worker, (trace step (start extraIo stopped) schedule later).workerStopping worker) ∧
      (trace step (start extraIo stopped) schedule later).place = .joining [] := by
  have next : trace step (start extraIo stopped) schedule (time + 1) =
      (trace step (start extraIo stopped) schedule time).stop := by
    rw [trace, calls, step, if_pos handled, System.act]
  have inv := trace_orderly extraIo stopped schedule time
  have leaves : ∀ worker, ∃ later ≥ time + 1,
      (trace step (start extraIo stopped) schedule later).workerPlace worker = .left := by
    intro worker
    obtain ⟨told, after, set⟩ := worker_told (workersRun worker) (next ▸ stop_sent inv (room worker))
    obtain ⟨later, beyond, left⟩ := worker_leaves (workersRun worker) set
    exact ⟨later, Nat.le_trans after beyond, left⟩
  obtain ⟨first, afterFirst, allLeft⟩ := trace_all
    (fun worker (s : System workers) => s.workerPlace worker = .left) (fun _ _ _ => step_left) leaves
  have stopping : (trace step (start extraIo stopped) schedule first).stopping :=
    trace_stays (fun s : System workers => s.stopping) (fun _ _ => step_flags.1) afterFirst
      (by rw [next]; rfl)
  obtain ⟨second, afterSecond, joins⟩ := engine_leaves engineRuns stopping
  obtain ⟨third, afterThird, threads, joins, done⟩ := threads_finish ioRuns joins fun worker =>
    trace_stays (fun s : System workers => s.workerPlace worker = .left) (fun _ _ => step_left)
      afterSecond (allLeft worker)
  obtain ⟨last, afterLast, returned⟩ := joinAll_returns engineRuns joins done
  have beyond : first ≤ last := Nat.le_trans afterSecond (Nat.le_trans afterThird afterLast)
  refine ⟨last, by omega, ?_, fun worker => ?_, returned⟩
  · exact trace_stays (fun s : System workers => s.stopping) (fun _ _ => step_flags.1) beyond stopping
  · exact trace_stays (fun s : System workers => s.workerStopping worker)
      (fun _ _ => step_workerStopping) beyond
      ((trace_orderly extraIo stopped schedule first worker).left (allLeft worker))

end Run

theorem timer_stop_reaches_worker :
    let schedule : Nat → Label 1 := fun time =>
      if time = 0 then .engine0 else if time = 1 then .handler .stop
      else if time % 3 = 0 then .engine0 else if time % 3 = 1 then .worker 0 else .ioThread
    ∃ later ≥ 1, (trace step (start true fun _ => false) schedule later).stopping ∧
      (∀ worker, (trace step (start true fun _ => false) schedule later).workerStopping worker) ∧
      (trace step (start true fun _ => false) schedule later).place = .joining [] := by
  refine stop_reaches_every_engine true (fun _ => false) _ 1 ?_ ?_ ?_ rfl rfl ?_
  · exact fun time => ⟨3 * time + 3, by omega, by simp⟩
  · intro worker time
    rw [Subsingleton.elim worker 0]
    exact ⟨3 * time + 4, by omega, by simp⟩
  · exact fun time => ⟨3 * time + 2, by omega, by simp⟩
  · decide

/-- `join_all` returns only after `stop()` was called and every thread has left its loop. -/
theorem join_waits_for_threads {workers : Nat} (extraIo : Bool) (stopped : Fin workers → Bool)
    (schedule : Nat → Label workers) (time : Nat)
    (returned : (trace step (start extraIo stopped) schedule time).place = .joining []) :
    let s := trace step (start extraIo stopped) schedule time
    s.stopping ∧ (∀ thread ∈ s.threads, s.finished thread) ∧ ∀ worker, s.workerStopping worker := by
  obtain ⟨set, all⟩ := trace_stays
    (fun s : System workers => ∀ rest, s.place = .joining rest → Awaited s rest)
    (fun _ label inv _ => step_joins label inv) time.zero_le (by rintro _ ⟨⟩) [] returned
  intro s
  have finished : ∀ thread ∈ s.threads, s.finished thread := fun thread listed =>
    (all thread listed).resolve_left List.not_mem_nil
  refine ⟨set, finished, fun worker => ?_⟩
  refine (trace_orderly extraIo stopped schedule time worker).left (of_decide_eq_true ?_)
  exact finished (.worker worker) (by simp [System.threads])

theorem join_waits_for_one :
    let s : System 1 := trace step (start false fun _ => false)
      (fun time => [.workerStop 0, .worker 0, .engine0, .handler .stop].getD time .engine0) 9
    s.place = .joining [] ∧ s.stopping ∧ (∀ thread ∈ s.threads, s.finished thread) ∧
      ∀ worker, s.workerStopping worker :=
  ⟨by decide, join_waits_for_threads false _ _ 9 (by decide)⟩

/-- The request to stop is the last one and waits in the staging vector of engine 0, which has no
flush left to do. -/
structure Stranded (s : System 1) : Prop where
  orderly : ∀ worker, Orderly s worker
  place : s.place = .loop [.pollSignal] ∨ s.place = .loop [] ∨ s.place = .joining [.worker 0]
  stopping : s.stopping
  extraIo : s.extraIo = false
  pendingFifo : (s.channels 0).queue.pendingFifo.length = 1
  stops : ∀ id ∈ s.stops 0, id + 1 = (s.channels 0).submitted.length
  workerStopping : s.workerStopping 0 = false

theorem Stranded.engine {s} (stranded : Stranded s) : Stranded (step s .engine0) := by
  have orderly := step_orderly .engine0 stranded.orderly
  rw [step, System.run] at orderly ⊢
  rcases stranded.place with now | now | now <;> simp only [now] at orderly ⊢
  · exact { stranded with orderly, place := .inr (.inl rfl) }
  · rw [if_pos stranded.stopping] at orderly ⊢
    refine { stranded with orderly, place := .inr (.inr ?_) }
    simp [threads, stranded.extraIo, List.finRange]
  · have waits : ¬s.finished (.worker 0) := by
      intro left
      have set := (stranded.orderly 0).left (of_decide_eq_true left)
      rw [stranded.workerStopping] at set
      cases set
    rw [if_neg waits]
    exact stranded

variable {channel : MessageQueue.System}

theorem workerPart_keeps
    (which : part = .flushResponseBatch ∨ part = .processIncoming) :
    (MessageQueue.step channel part).queue.pendingFifo = channel.queue.pendingFifo ∧
      (MessageQueue.step channel part).submitted = channel.submitted := by
  rcases which with rfl | rfl
  · exact ⟨channel.queue.flushResponseBatch_responds.pendingFifo, rfl⟩
  · rw [MessageQueue.step, processIncoming]
    split
    · exact ⟨rfl, rfl⟩
    · rename_i func _ _ _
      cases func with
      | some func => exact ⟨(channel.queue.respond_responds channel.stopped func).pendingFifo, rfl⟩
      | none => exact ⟨rfl, rfl⟩
    · exact ⟨rfl, rfl⟩

theorem executed_le (delivered : Delivered channel) :
    channel.executed.length + channel.queue.pendingFifo.length ≤ channel.submitted.length := by
  have inHand := channel.incoming.halfDone_prefix.length_le
  rw [delivered.executed, delivered.kept]
  simp only [MessageQueue.System.answered, MessageQueue.System.underway, List.length_append]
  omega

theorem runWorker_workerStopping {workers : Nat} {s : System workers} {worker : Fin workers}
    (set : (s.runWorker worker).workerStopping worker) : s.workerStopping worker ∨ s.heeds worker := by
  unfold runWorker at set
  split at set
  · split at set <;> exact .inl set
  · exact .inl set
  · dsimp only at set
    split at set <;> simpa [setPlace] using set
  · exact .inl set

theorem Stranded.worker {s : System 1} (stranded : Stranded s) : Stranded (step s (.worker 0)) := by
  have change := runWorker_workerStep s 0
  have inv := stranded.orderly 0
  have kept : ((s.runWorker 0).channels 0).queue.pendingFifo = (s.channels 0).queue.pendingFifo ∧
      ((s.runWorker 0).channels 0).submitted = (s.channels 0).submitted := by
    rcases change.channel with same | ⟨part, which, stepped⟩
    · rw [same]
      exact ⟨rfl, rfl⟩
    · rw [stepped]
      exact workerPart_keeps which
  refine ⟨step_orderly _ stranded.orderly, ?_, ?_, ?_, ?_, ?_, ?_⟩
  · rw [step, change.place]
    exact stranded.place
  · exact change.stopping ▸ stranded.stopping
  · exact change.extraIo ▸ stranded.extraIo
  · rw [step, kept.1]
    exact stranded.pendingFifo
  · rw [step, kept.2, change.stops]
    exact stranded.stops
  · refine Bool.eq_false_iff.mpr fun set => ?_
    rcases runWorker_workerStopping set with before | heeds
    · rw [stranded.workerStopping] at before
      cases before
    · unfold System.heeds at heeds
      split at heeds
      · rename_i func _ _ phase
        have delivered := step_delivered .processIncoming inv.delivered
        have early := @executed_id_lt _ delivered func (by
          rw [MessageQueue.step, processIncoming, phase]
          simp)
        have room := executed_le delivered
        have last := stranded.stops func.id (by simpa using heeds)
        obtain ⟨pendingFifo, submitted⟩ := @workerPart_keeps _ (s.channels 0) (.inr rfl)
        rw [pendingFifo, submitted, stranded.pendingFifo] at room
        omega
      · cases heeds

theorem Stranded.ioThread {s} (stranded : Stranded s) : Stranded (step s .ioThread) := by
  have orderly := step_orderly .ioThread stranded.orderly
  rw [step] at orderly ⊢
  split at orderly <;> rename_i set
  · rw [if_pos set]
    exact { stranded with orderly }
  · rw [if_neg set]
    exact stranded

def busyWorker (time : Nat) : Label 1 :=
  if time < 7 then
    if time = 2 then .handler (.registerPoller .smp)
    else if time = 3 then .handler (.registerPoller .signal)
    else .engine0
  else if time < 135 then .handler (.submitTo (Fin.last 0) true)
  else if time < 138 then .engine0
  else if time = 138 then .handler .stop
  else if time % 3 = 0 then .engine0 else if time % 3 = 1 then .worker (Fin.last 0) else .ioThread

theorem busyWorker_strands : Stranded (trace step (start false fun _ => false) busyWorker 139) where
  orderly := trace_orderly _ _ _ _
  place := .inl (by decide +kernel)
  stopping := by decide +kernel
  extraIo := by decide +kernel
  pendingFifo := by decide +kernel
  stops := by decide +kernel
  workerStopping := by decide +kernel

theorem full_ring_strands_worker :
    Recurs busyWorker .engine0 ∧ (∀ worker, Recurs busyWorker (.worker worker)) ∧
      Recurs busyWorker .ioThread ∧ busyWorker 138 = .handler .stop ∧
      (trace step (start false fun _ => false) busyWorker 138).handles .stop ∧
      ∀ later > 138, (trace step (start false fun _ => false) busyWorker later).workerStopping 0 = false ∧
        (trace step (start false fun _ => false) busyWorker later).place ≠ .joining [] := by
  have late : ∀ {time}, 138 < time → busyWorker time =
      if time % 3 = 0 then .engine0 else if time % 3 = 1 then .worker 0 else .ioThread := by
    intro time after
    rw [busyWorker, if_neg (by omega), if_neg (by omega), if_neg (by omega), if_neg (by omega)]
    rfl
  have stranded : ∀ wait, Stranded (trace step (start false fun _ => false) busyWorker (139 + wait)) := by
    intro wait
    induction wait with
    | zero => exact busyWorker_strands
    | succ wait ih =>
      rw [← Nat.add_assoc, trace, late (by omega)]
      split
      · exact ih.engine
      · split
        · exact ih.worker
        · exact ih.ioThread
  refine ⟨fun time => ⟨3 * time + 141, by omega, ?_⟩, fun worker time =>
    ⟨3 * time + 142, by omega, ?_⟩, fun time => ⟨3 * time + 140, by omega, ?_⟩, rfl,
    by decide +kernel, fun later after => ?_⟩
  · rw [late (by omega), if_pos (by omega)]
  · rw [late (by omega), if_neg (by omega), if_pos (by omega), Subsingleton.elim worker 0]
  · rw [late (by omega), if_neg (by omega), if_neg (by omega)]
  · obtain ⟨wait, rfl⟩ := Nat.exists_eq_add_of_le (show 139 ≤ later from after)
    refine ⟨(stranded wait).workerStopping, fun returned => ?_⟩
    rcases (stranded wait).place with now | now | now <;> rw [now] at returned <;> cases returned

end Mcc.Shutdown
