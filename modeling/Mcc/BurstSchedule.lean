import Mcc.Machine

/-!
The I/O scheduler in burst mode. The worker engines register their queues while the I/O thread waits
for `nr_queue_`, which nothing has set before; then it starts the burst threads, and a thread drains
the queue whose number `burst_loop` computes from its own.
-/

namespace Mcc.IoScheduler

open Function (update update_self)

/-- Where the I/O thread is: in the loop of `run`, in that of `io_loop`, or waiting for the threads. -/
inductive Place where
  | waiting
  | starting
  | joining
  deriving Repr, DecidableEq

/-- The threads `0, 1, …` up to `burstThreads` have been started. -/
structure Scheduler where
  nrQueue : UInt32
  ioQueues : List Nat
  place : Place
  burstThreads : Nat
  bursting : Nat → Bool
  cycles : Nat → Nat
  bursts : List (Nat × Nat)

/-- The constructor sets neither `nr_queue_` nor `stop_`: they are what the memory held. -/
def create (nrQueue : UInt32) : Scheduler where
  nrQueue := nrQueue
  ioQueues := []
  place := .waiting
  burstThreads := 0
  bursting _ := false
  cycles _ := 0
  bursts := []

structure Setting where
  count : UInt32
  burstOn : UInt64
  stop : Bool

/-- The engines that have a queue: with several, the first is the distributor's and has none. -/
def workers (count : UInt32) : List Nat :=
  if 1 < count then List.range' 1 (count.toNat - 1) else [0]

def engineReady (count : UInt32) : UInt32 := if 1 < count then count - 1 else 1

def queueNumber (cpuId : Nat) : Nat := if cpuId = 0 then 0 else cpuId - 1

inductive Step where
  | addQueue (engine : Nat)
  | io
  | wake (thread : Nat)
  | iterate (thread : Nat) (elapsed : UInt64)

variable (setting : Setting)

namespace Scheduler

variable (s : Scheduler)

def addQueue (engine : Nat) : Scheduler :=
  { s with ioQueues := s.ioQueues ++ [engine], nrQueue := s.nrQueue + 1 }

/-- How many threads `io_loop` starts: on a single core there is no loop and one thread. -/
def bound : Nat := if 1 < setting.count then s.nrQueue.toNat else 1

def io : Scheduler :=
  match s.place with
  | .waiting => if engineReady setting.count ≤ s.nrQueue then { s with place := .starting } else s
  | .starting =>
    if s.burstThreads < s.bound setting then { s with burstThreads := s.burstThreads + 1 }
    else { s with place := .joining }
  | .joining => s

def iterate (thread : Nat) (elapsed : UInt64) : Except Fault Scheduler :=
  match s.ioQueues[queueNumber thread]? with
  | none => .error .outOfBounds
  | some engine =>
    let bursts := s.bursts ++ [(thread, engine)]
    if setting.burstOn ≤ elapsed then
      .ok { s with
        bursting := update s.bursting thread false
        cycles := update s.cycles thread (s.cycles thread + 1)
        bursts }
    else .ok { s with bursts }

def Runs (thread : Nat) : Prop := setting.stop = false ∧ thread < s.burstThreads

instance (thread : Nat) : Decidable (s.Runs setting thread) := inferInstanceAs (Decidable (_ ∧ _))

def step : Step → Except Fault Scheduler
  | .addQueue engine =>
    .ok (if engine ∈ workers setting.count ∧ engine ∉ s.ioQueues then s.addQueue engine else s)
  | .io => .ok (s.io setting)
  | .wake thread =>
    .ok (if s.Runs setting thread then { s with bursting := update s.bursting thread true } else s)
  | .iterate thread elapsed =>
    if s.Runs setting thread ∧ s.bursting thread then s.iterate setting thread elapsed else .ok s

def run (steps : List Step) : Except Fault Scheduler := steps.foldlM (step setting) s

end Scheduler

/-- In every run no index is out of range, and each registered queue is drained by one thread only, in
each of its cycles, and can always be drained again. -/
structure Scheduled (nrQueue : UInt32) : Prop where
  inRange : ∀ steps, ∃ s, (create nrQueue).run setting steps = .ok s
  drained : ∀ steps s, (create nrQueue).run setting steps = .ok s → ∀ engine ∈ s.ioQueues,
    (∀ thread other, (thread, engine) ∈ s.bursts → (other, engine) ∈ s.bursts → other = thread) ∧
      (∀ thread, (thread, engine) ∈ s.bursts → s.cycles thread ≤ s.bursts.count (thread, engine)) ∧
      ∃ more after thread, s.run setting more = .ok after ∧
        s.bursts.count (thread, engine) < after.bursts.count (thread, engine)

def Sound (s : Scheduler) : Prop :=
  ∀ thread engine, (thread, engine) ∈ s.bursts →
    s.Runs setting thread ∧ s.ioQueues[queueNumber thread]? = some engine

variable {setting} {s after : Scheduler} {engine : Nat}

theorem io_kept : (s.io setting).ioQueues = s.ioQueues ∧ (s.io setting).bursts = s.bursts ∧
    s.burstThreads ≤ (s.io setting).burstThreads := by
  unfold Scheduler.io
  repeat' split
  all_goals simp

theorem iterate_spec {thread} (leads : s.ioQueues[queueNumber thread]? = some engine) (elapsed : UInt64) :
    ∃ bursting cycles, s.iterate setting thread elapsed = .ok
        { s with bursting, cycles, bursts := s.bursts ++ [(thread, engine)] } ∧
      cycles thread ≤ s.cycles thread + 1 := by
  simp only [Scheduler.iterate, leads]
  split
  · exact ⟨_, _, rfl, Nat.le_of_eq (update_self _ _ _)⟩
  · exact ⟨s.bursting, s.cycles, rfl, Nat.le_succ _⟩

theorem step_sound (sound : Sound setting s) (step : Step) (done : s.step setting step = .ok after) :
    Sound setting after ∧ s.ioQueues <+: after.ioQueues := by
  cases step with
  | addQueue engine =>
    cases done
    split
    · refine ⟨fun thread other member => ?_, List.prefix_append _ _⟩
      obtain ⟨runs, leads⟩ := sound thread other member
      exact ⟨runs, List.getElem?_append_left (List.getElem?_eq_some_iff.mp leads).1 ▸ leads⟩
    · exact ⟨sound, List.prefix_refl _⟩
  | io =>
    cases done
    obtain ⟨queues, bursts, more⟩ := @io_kept setting s
    refine ⟨fun thread other member => ?_, queues ▸ List.prefix_refl _⟩
    obtain ⟨runs, leads⟩ := sound thread other (bursts ▸ member)
    exact ⟨⟨runs.1, Nat.lt_of_lt_of_le runs.2 more⟩, queues ▸ leads⟩
  | wake thread =>
    cases done
    split <;> exact ⟨sound, List.prefix_refl _⟩
  | iterate thread elapsed =>
    rw [Scheduler.step] at done
    split at done
    · rename_i runs
      cases leads : s.ioQueues[queueNumber thread]? with
      | none => simp [Scheduler.iterate, leads] at done
      | some engine =>
        obtain ⟨bursting, cycles, iterated, -⟩ := iterate_spec leads elapsed
        cases iterated.symm.trans done
        refine ⟨fun other found member => ?_, List.prefix_refl _⟩
        rcases List.mem_append.mp member with before | now
        · exact sound other found before
        · cases List.mem_singleton.mp now
          exact ⟨runs.1, leads⟩
    · cases done
      exact ⟨sound, List.prefix_refl _⟩

theorem run_sound (sound : Sound setting s) {steps} (done : s.run setting steps = .ok after) :
    Sound setting after ∧ s.ioQueues <+: after.ioQueues := by
  induction steps generalizing s with
  | nil =>
    cases done
    exact ⟨sound, List.prefix_refl _⟩
  | cons first rest ih =>
    rw [Scheduler.run, List.foldlM_cons] at done
    obtain ⟨next, stepped, done⟩ := bind_ok done
    obtain ⟨soundNext, grown⟩ := step_sound sound first stepped
    obtain ⟨soundAfter, more⟩ := ih soundNext done
    exact ⟨soundAfter, grown.trans more⟩

theorem run_cons {first rest next} (stepped : s.step setting first = .ok next) :
    s.run setting (first :: rest) = next.run setting rest := by
  rw [Scheduler.run, List.foldlM_cons, stepped]
  rfl

theorem run_append {first second} (done : s.run setting first = .ok after) :
    s.run setting (first ++ second) = after.run setting second := by
  rw [Scheduler.run, List.foldlM_append, show List.foldlM _ s first = _ from done]
  rfl

theorem cycle_eq {thread} (runs : s.Runs setting thread) :
    s.run setting [.wake thread, .iterate thread 0] =
      ({ s with bursting := update s.bursting thread true }).iterate setting thread 0 := by
  have woken : s.step setting (.wake thread) =
      .ok { s with bursting := update s.bursting thread true } := congrArg Except.ok (if_pos runs)
  rw [run_cons woken, Scheduler.run, List.foldlM_cons, Scheduler.step,
    if_pos ⟨runs, update_self thread true s.bursting⟩]
  exact bind_pure _

theorem cycle_bursts {thread} (runs : s.Runs setting thread)
    (leads : s.ioQueues[queueNumber thread]? = some engine) :
    ∃ bursting cycles, s.run setting [.wake thread, .iterate thread 0] = .ok
      { s with bursting, cycles, bursts := s.bursts ++ [(thread, engine)] } := by
  obtain ⟨bursting, cycles, iterated, -⟩ := @iterate_spec setting
    { s with bursting := update s.bursting thread true } engine thread leads 0
  exact ⟨bursting, cycles, (cycle_eq runs).trans iterated⟩

/-- The only queue is registered or not, and only thread 0 is ever started. -/
structure Single (setting : Setting) (engine : Nat) (s : Scheduler) : Prop where
  sound : Sound setting s
  queues : s.ioQueues = [engine] ∧ s.nrQueue = 1 ∨
    s.ioQueues = [] ∧ s.nrQueue = 0 ∧ s.place = .waiting ∧ s.burstThreads = 0
  most : s.burstThreads ≤ 1
  joined : s.place = .joining → s.burstThreads = 1
  cycles : s.cycles 0 ≤ s.bursts.count (0, engine)

theorem bound_single (one : s.nrQueue = 1) : s.bound setting = 1 := by
  unfold Scheduler.bound
  split
  · rw [one]
    rfl
  · rfl

section

variable (alone : workers setting.count = [engine]) (ready : engineReady setting.count = 1)

include ready in
theorem io_single (single : Single setting engine s) : Single setting engine (s.io setting) := by
  have sound := (step_sound single.sound .io rfl).1
  rcases single.queues with ⟨queues, one⟩ | ⟨-, zero, waits, -⟩
  · unfold Scheduler.io at sound ⊢
    rw [bound_single one] at sound ⊢
    split
    · split
      · exact { single with queues := .inl ⟨queues, one⟩, joined := by rintro ⟨⟩ }
      · exact single
    · rename_i starts
      split
      · rename_i below
        simp only [starts, if_pos below] at sound
        exact ⟨sound, .inl ⟨queues, one⟩, below, fun joins => (by cases starts.symm.trans joins),
          single.cycles⟩
      · have most := single.most
        exact { single with queues := .inl ⟨queues, one⟩, joined := fun _ => by dsimp only; omega }
    · exact single
  · rw [Scheduler.io, waits]
    dsimp only
    rw [if_neg (by rw [ready, zero]; decide)]
    exact single

include alone ready in
theorem step_single (single : Single setting engine s) (step : Step) :
    ∃ after, s.step setting step = .ok after ∧ Single setting engine after := by
  cases step with
  | addQueue other =>
    refine ⟨_, rfl, ?_⟩
    have sound := (step_sound single.sound (.addQueue other) rfl).1
    split
    · rename_i new
      rw [if_pos new] at sound
      rw [alone, List.mem_singleton] at new
      obtain ⟨rfl, unregistered⟩ := new
      rcases single.queues with ⟨queues, -⟩ | ⟨queues, zero, -⟩
      · simp [queues] at unregistered
      · exact { single with sound, queues := .inl (by simp [Scheduler.addQueue, queues, zero]) }
    · exact single
  | io => exact ⟨_, rfl, io_single ready single⟩
  | wake thread =>
    refine ⟨_, rfl, ?_⟩
    split
    · exact { single with }
    · exact single
  | iterate thread elapsed =>
    rw [Scheduler.step]
    split
    · rename_i runs
      have started := runs.1.2
      have most := single.most
      obtain rfl : thread = 0 := by omega
      have leads : s.ioQueues[queueNumber 0]? = some engine := by
        rcases single.queues with ⟨queues, -⟩ | ⟨-, -, -, zero⟩
        · rw [queues]
          rfl
        · omega
      obtain ⟨bursting, cycles, iterated, counted⟩ := @iterate_spec setting s engine 0 leads elapsed
      have sound := step_sound single.sound (.iterate 0 elapsed)
        (by rw [Scheduler.step, if_pos runs, iterated])
      refine ⟨_, iterated, { single with sound := sound.1, cycles := ?_ }⟩
      have before := single.cycles
      simp only [List.count_append, List.count_singleton_self]
      omega
    · exact ⟨s, rfl, single⟩

include alone ready in
theorem run_single (single : Single setting engine s) (steps : List Step) :
    ∃ after, s.run setting steps = .ok after ∧ Single setting engine after := by
  induction steps generalizing s with
  | nil => exact ⟨s, rfl, single⟩
  | cons first rest ih =>
    obtain ⟨next, stepped, singleNext⟩ := step_single alone ready single first
    obtain ⟨after, done, singleAfter⟩ := ih singleNext
    exact ⟨after, by rw [Scheduler.run, List.foldlM_cons, stepped]; exact done, singleAfter⟩

end

theorem create_sound (nrQueue : UInt32) : Sound setting (create nrQueue) := by
  intro thread engine member
  simp [create] at member

theorem create_single : Single setting engine (create 0) :=
  ⟨create_sound 0, .inr ⟨rfl, rfl, rfl, rfl⟩, Nat.zero_le _, by rintro ⟨⟩, Nat.zero_le _⟩

/-- Once the queue is registered, two steps of the I/O thread at most start its thread. -/
theorem Single.starts (single : Single setting engine s) (ready : engineReady setting.count = 1)
    (queues : s.ioQueues = [engine]) : ∃ steps after, s.run setting steps = .ok after ∧
      0 < after.burstThreads ∧ after.ioQueues = [engine] ∧ after.bursts = s.bursts := by
  have one : s.nrQueue = 1 := by
    rcases single.queues with ⟨-, one⟩ | ⟨unregistered, -⟩
    · exact one
    · simp [queues] at unregistered
  by_cases idle : s.burstThreads = 0
  · cases place : s.place with
    | waiting =>
      refine ⟨[.io, .io], _, rfl, ?_⟩
      simp [Scheduler.io, place, ready, one, idle, bound_single, queues]
    | starting =>
      refine ⟨[.io], _, rfl, ?_⟩
      simp [Scheduler.io, place, bound_single one, idle, queues]
    | joining =>
      have := single.joined place
      omega
  · exact ⟨[], s, rfl, Nat.pos_of_ne_zero idle, queues, rfl⟩

theorem few_workers (few : setting.count ≤ 2) :
    (∃ engine, workers setting.count = [engine]) ∧ engineReady setting.count = 1 := by
  unfold workers engineReady
  by_cases several : 1 < setting.count
  · obtain two : setting.count = 2 := by
      rw [UInt32.le_iff_toNat_le] at few
      rw [UInt32.lt_iff_toNat_lt] at several
      exact UInt32.toNat_inj.mp (Nat.le_antisymm few several)
    rw [two]
    exact ⟨⟨1, rfl⟩, rfl⟩
  · simp [several]

theorem scheduled_few (stop : setting.stop = false) (few : setting.count ≤ 2) :
    Scheduled setting 0 := by
  obtain ⟨⟨engine, alone⟩, ready⟩ := few_workers few
  constructor
  · intro steps
    obtain ⟨s, done, -⟩ := run_single alone ready create_single steps
    exact ⟨s, done⟩
  · intro steps s done other registered
    obtain ⟨s, again, single⟩ := run_single alone ready create_single steps
    cases again.symm.trans done
    rcases single.queues with ⟨queues, -⟩ | ⟨unregistered, -⟩
    · obtain rfl : other = engine := by simpa [queues] using registered
      have zero : ∀ thread, (thread, other) ∈ s.bursts → thread = 0 := by
        intro thread member
        have started := (single.sound thread other member).1.2
        have most := single.most
        omega
      refine ⟨fun thread second first next => (zero _ next).trans (zero _ first).symm, ?_, ?_⟩
      · intro thread member
        rw [zero thread member]
        exact single.cycles
      · obtain ⟨steps, started, begun, runs, queues, bursts⟩ := single.starts ready queues
        obtain ⟨bursting, cycles, cycled⟩ :=
          @cycle_bursts setting started other 0 ⟨stop, runs⟩ (by rw [queues]; rfl)
        refine ⟨_, _, 0, (run_append begun).trans cycled, ?_⟩
        simp [bursts]
    · simp [unregistered] at registered

theorem addQueue_new (works : engine ∈ workers setting.count) (new : engine ∉ s.ioQueues) :
    s.step setting (.addQueue engine) = .ok (s.addQueue engine) :=
  congrArg Except.ok (if_pos ⟨works, new⟩)

section

variable {nrQueue : UInt32} (scheduled : Scheduled setting nrQueue)
include scheduled

/-- A registered queue is drained at some time, by a thread that runs. -/
theorem Scheduled.burst {steps} (done : (create nrQueue).run setting steps = .ok s)
    (registered : engine ∈ s.ioQueues) : ∃ more after thread, s.run setting more = .ok after ∧
      after.Runs setting thread ∧ after.ioQueues[queueNumber thread]? = some engine ∧
      s.ioQueues <+: after.ioQueues := by
  obtain ⟨-, -, more, after, thread, continued, fewer⟩ := scheduled.drained steps s done engine registered
  obtain ⟨sound, grown⟩ := run_sound (run_sound (create_sound nrQueue) done).1 continued
  have member := List.count_pos_iff.mp (Nat.zero_lt_of_lt fewer)
  obtain ⟨runs, leads⟩ := sound thread engine member
  exact ⟨more, after, thread, continued, runs, leads, grown⟩

theorem Scheduled.unset : setting.stop = false := by
  obtain ⟨first, works⟩ : ∃ engine, engine ∈ workers setting.count := by
    unfold workers
    split
    · rename_i several
      have more : 1 < setting.count.toNat := several
      exact ⟨1, List.mem_range'_1.mpr ⟨Nat.le_refl 1, by omega⟩⟩
    · exact ⟨0, List.mem_singleton_self 0⟩
  have registers : (create nrQueue).run setting [.addQueue first] =
      .ok ((create nrQueue).addQueue first) :=
    run_cons (addQueue_new works (List.not_mem_nil))
  obtain ⟨_, _, _, _, runs, -⟩ :=
    scheduled.burst registers (List.mem_append_right [] (List.mem_singleton_self first))
  exact runs.1

/-- The second queue needs thread 2, and then the threads 0 and 1 both drain the first. -/
theorem Scheduled.few : setting.count ≤ 2 := by
  by_contra many
  have more : 2 < setting.count.toNat := UInt32.not_le.mp many
  have works : ∀ engine ∈ [1, 2], engine ∈ workers setting.count := by
    intro engine member
    have several : 1 < setting.count := Nat.lt_of_succ_lt more
    rw [workers, if_pos several, List.mem_range'_1]
    simp only [List.mem_cons, List.not_mem_nil, or_false] at member
    omega
  have registers : (create nrQueue).run setting [.addQueue 1, .addQueue 2] =
      .ok (((create nrQueue).addQueue 1).addQueue 2) :=
    (run_cons (addQueue_new (works 1 (by decide)) (List.not_mem_nil))).trans
      (run_cons (addQueue_new (works 2 (by decide)) (by simp [Scheduler.addQueue, create])))
  obtain ⟨steps, s, thread, done, runs, second, ⟨others, queues⟩⟩ :=
    scheduled.burst registers (List.mem_append_right [1] (List.mem_singleton_self 2))
  have queues : s.ioQueues = 1 :: 2 :: others := queues.symm
  have far : 2 ≤ thread := by
    by_contra near
    have first : queueNumber thread = 0 := by
      unfold queueNumber
      split <;> omega
    simp [first, queues] at second
  have lower : ∀ other < 2, s.Runs setting other :=
    fun other below => ⟨runs.1, Nat.lt_trans (Nat.lt_of_lt_of_le below far) runs.2⟩
  obtain ⟨bursting, cycles, zero⟩ :=
    @cycle_bursts setting s 1 0 (lower 0 (by decide)) (by rw [queues]; rfl)
  obtain ⟨_, _, one⟩ := @cycle_bursts setting
    { s with bursting, cycles, bursts := s.bursts ++ [(0, 1)] } 1 1 (lower 1 (by decide))
    (by rw [queues]; rfl)
  have whole := (run_append registers).trans ((run_append done).trans ((run_append zero).trans one))
  obtain ⟨only, -⟩ := scheduled.drained _ _ whole 1 (by simp [queues])
  exact absurd (only 0 1 (by simp) (by simp)) (by decide)

/-- With anything else in `nr_queue_` the thread can be started before a queue is registered. -/
theorem Scheduled.zero : nrQueue = 0 := by
  by_contra garbage
  have positive : 1 ≤ nrQueue.toNat :=
    Nat.one_le_iff_ne_zero.mpr fun zero => garbage (UInt32.toNat_inj.mp zero)
  have ready : engineReady setting.count ≤ nrQueue := by
    rw [(few_workers scheduled.few).2]
    exact positive
  have below : 0 < (create nrQueue).bound setting := by
    unfold Scheduler.bound
    split
    · exact positive
    · exact Nat.one_pos
  have begun : (create nrQueue).run setting [.io, .io] =
      .ok { create nrQueue with place := .starting, burstThreads := 1 } := by
    have waited : (create nrQueue).step setting .io = .ok { create nrQueue with place := .starting } :=
      congrArg Except.ok (if_pos ready)
    rw [run_cons waited]
    exact run_cons (congrArg Except.ok (if_pos below))
  obtain ⟨s, done⟩ := scheduled.inRange ([.io, .io] ++ [.wake 0, .iterate 0 0])
  rw [run_append begun, cycle_eq ⟨scheduled.unset, Nat.one_pos⟩] at done
  cases done

end

theorem scheduled_iff (setting : Setting) (nrQueue : UInt32) : Scheduled setting nrQueue ↔
    setting.stop = false ∧ setting.count ≤ 2 ∧ nrQueue = 0 := by
  constructor
  · intro scheduled
    exact ⟨scheduled.unset, scheduled.few, scheduled.zero⟩
  · rintro ⟨unset, few, rfl⟩
    exact scheduled_few unset few

/-- With two queues both threads drain the first; with 1 in `nr_queue_` the thread of a single core
can be started, and look for its queue, before the engine has registered it. -/
theorem two_queues_miss_one :
    ((create 0).run ⟨3, 100, false⟩ [.addQueue 1, .addQueue 2, .io, .io, .io, .io,
        .wake 0, .iterate 0 100, .wake 1, .iterate 1 100]).map
          (fun s => (s.place, s.burstThreads, s.ioQueues, s.bursts)) =
      .ok (.joining, 2, [1, 2], [(0, 1), (1, 1)]) ∧
    ((create 1).run ⟨1, 100, false⟩ [.io, .io, .wake 0, .iterate 0 0]).map Scheduler.bursts =
      .error .outOfBounds := by
  decide

end Mcc.IoScheduler
