import Mathlib

/-!
The end of a test of the WAN loader. `end_test` is submitted to every service at the start and
again by a task three seconds later, and each time it schedules `finish`, which calls `end_game` of
the distributor. `end_game` increments a plain `size_t` that all cores share, so that a call is three
steps: the load, the store, and the comparison that reads the counter again. The last service is to
signal core 0, whose callback stops the engines one second later.
-/

namespace Mcc.Completion

inductive Call where
  | idle
  | loaded (value : Nat)
  | stored
  deriving Repr, DecidableEq

structure Worker where
  asked : Nat
  timers : Nat
  call : Call
  finished : Nat
  stopped : Bool
  deriving Repr, DecidableEq

/-- The loop of core 0: `engine().stop()` only sets `stopping_`, and what is left of the iteration
still runs. -/
inductive Phase where
  | running
  | stopping
  | left
  deriving Repr, DecidableEq

structure Loader (count : Nat) where
  workers : Fin count → Worker
  endedServices : Nat
  again : Bool
  signals : Nat
  onDone : Nat
  stops : Nat
  phase : Phase

open Loader

inductive Step (count : Nat) where
  | again
  | endTest (core : Fin count)
  | finish (core : Fin count)
  | store (core : Fin count)
  | compare (core : Fin count)
  | onDone
  | stop
  | interrupt
  | leave
  | halt (core : Fin count)
  deriving Repr, DecidableEq

variable {count : Nat}

def Loader.start (count : Nat) : Loader count where
  workers _ := { asked := 1, timers := 0, call := .idle, finished := 0, stopped := false }
  endedServices := 0
  again := true
  signals := 0
  onDone := 0
  stops := 0
  phase := .running

def Loader.set (l : Loader count) (core : Fin count) (worker : Worker) : Loader count :=
  { l with workers := Function.update l.workers core worker }

def Loader.submitAgain (l : Loader count) : Loader count :=
  { l with
    workers := fun core => { l.workers core with asked := (l.workers core).asked + 1 }
    again := false }

def Worker.endTest (duration : Nat) (w : Worker) : Worker :=
  { w with
    asked := w.asked - 1
    timers := if duration > 0 then w.timers + 1 else w.timers }

def Worker.finish (w : Worker) (value : Nat) : Worker :=
  { w with timers := w.timers - 1, finished := w.finished + 1, call := .loaded value }

def Worker.halt (w : Worker) : Worker :=
  { w with stopped := true }

def Worker.at (w : Worker) (call : Call) : Worker :=
  { w with call := call }

def Loader.store (l : Loader count) (core : Fin count) (value : Nat) : Loader count :=
  { l.set core ((l.workers core).at .stored) with endedServices := value + 1 }

def Loader.compare (l : Loader count) (core : Fin count) : Loader count :=
  { l.set core ((l.workers core).at .idle) with
    signals := if l.endedServices ≥ count then l.signals + 1 else l.signals }

def Loader.halts (l : Loader count) : Loader count :=
  { l with phase := if l.phase = .running then .stopping else l.phase }

def Loader.step (duration : Nat) (l : Loader count) : Step count → Loader count
  | .again => if l.phase ≠ .left ∧ l.again then l.submitAgain else l
  | .endTest core =>
    let w := l.workers core
    if w.stopped = false ∧ w.call = .idle ∧ 0 < w.asked then l.set core (w.endTest duration) else l
  | .finish core =>
    let w := l.workers core
    if w.stopped = false ∧ w.call = .idle ∧ 0 < w.timers then
      l.set core (w.finish l.endedServices)
    else l
  | .store core =>
    match (l.workers core).call with
    | .loaded value => l.store core value
    | _ => l
  | .compare core => if (l.workers core).call = .stored then l.compare core else l
  | .onDone =>
    if l.phase ≠ .left ∧ 0 < l.signals then
      { l with signals := l.signals - 1, onDone := l.onDone + 1, stops := l.stops + 1 }
    else l
  | .stop => if l.phase ≠ .left ∧ 0 < l.stops then { l.halts with stops := l.stops - 1 } else l
  | .interrupt => l.halts
  | .leave => if l.phase = .stopping then { l with phase := .left } else l
  | .halt core =>
    let w := l.workers core
    if l.phase ≠ .running ∧ w.call = .idle ∧ w.stopped = false then
      l.set core w.halt
    else l

def Loader.run (duration : Nat) (l : Loader count) (steps : List (Step count)) : Loader count :=
  steps.foldl (Loader.step duration) l

def Settled (duration : Nat) (l : Loader count) : Prop :=
  ∀ step, step ≠ .interrupt → l.step duration step = l

def SignalledOnce (duration : Nat) (l : Loader count) : Prop :=
  l.onDone ≤ 1 ∧ (0 < l.onDone → ∀ core, 0 < (l.workers core).finished) ∧
    (Settled duration l → l.onDone = 1)

/-- While core 0 is in its loop, no service calls `end_game` for the second time and no two calls
overlap; no signal of the operating system stops it. -/
def Step.Paced (l : Loader count) : Step count → Prop
  | .finish core => 0 < (l.workers core).timers →
      l.phase = .left ∨ (l.workers core).finished = 0 ∧ ∀ other, (l.workers other).call = .idle
  | .interrupt => l.phase = .left
  | _ => True

def PacedRun (duration : Nat) (l : Loader count) : List (Step count) → Prop
  | [] => True
  | step :: rest => step.Paced l ∧ PacedRun duration (l.step duration step) rest

inductive Moved (duration : Nat) (l : Loader count) : Step count → Loader count → Prop
  | again (inside : l.phase ≠ .left) (due : l.again = true) : Moved duration l .again l.submitAgain
  | endTest {core} (asked : 0 < (l.workers core).asked) :
      Moved duration l (.endTest core) (l.set core ((l.workers core).endTest duration))
  | finish {core} (free : (l.workers core).call = .idle) (due : 0 < (l.workers core).timers) :
      Moved duration l (.finish core) (l.set core ((l.workers core).finish l.endedServices))
  | store {core value} (call : (l.workers core).call = .loaded value) :
      Moved duration l (.store core) (l.store core value)
  | compare {core} (call : (l.workers core).call = .stored) :
      Moved duration l (.compare core) (l.compare core)
  | onDone (inside : l.phase ≠ .left) (signal : 0 < l.signals) : Moved duration l .onDone
      { l with signals := l.signals - 1, onDone := l.onDone + 1, stops := l.stops + 1 }
  | stop (inside : l.phase ≠ .left) (due : 0 < l.stops) :
      Moved duration l .stop { l.halts with stops := l.stops - 1 }
  | interrupt (running : l.phase = .running) : Moved duration l .interrupt { l with phase := .stopping }
  | leave (stopping : l.phase = .stopping) : Moved duration l .leave { l with phase := .left }
  | halt {core} (ended : l.phase ≠ .running) (awake : (l.workers core).stopped = false) :
      Moved duration l (.halt core) (l.set core (l.workers core).halt)

theorem step_moved (duration : Nat) (l : Loader count) (step : Step count) :
    l.step duration step = l ∨ Moved duration l step (l.step duration step) := by
  cases step <;> simp only [Loader.step]
  case interrupt =>
    rw [halts]
    split
    · next running => exact .inr (.interrupt running)
    · exact .inl rfl
  all_goals split
  case again.isTrue possible => exact .inr (.again possible.1 possible.2)
  case endTest.isTrue possible => exact .inr (.endTest possible.2.2)
  case finish.isTrue possible => exact .inr (.finish possible.2.1 possible.2.2)
  case h_1 call => exact .inr (.store call)
  case compare.isTrue call => exact .inr (.compare call)
  case onDone.isTrue possible => exact .inr (.onDone possible.1 possible.2)
  case stop.isTrue possible => exact .inr (.stop possible.1 possible.2)
  case leave.isTrue stopping => exact .inr (.leave stopping)
  case halt.isTrue possible => exact .inr (.halt possible.1 possible.2.2)
  all_goals exact .inl rfl

theorem sum_update (measure : Worker → Nat) (workers : Fin count → Worker) (core : Fin count)
    (worker : Worker) :
    (∑ other, measure (Function.update workers core worker other)) + measure (workers core) =
      (∑ other, measure (workers other)) + measure worker := by
  have before := Finset.add_sum_erase Finset.univ (fun other => measure (workers other))
    (Finset.mem_univ core)
  have after := Finset.add_sum_erase Finset.univ
    (fun other => measure (Function.update workers core worker other)) (Finset.mem_univ core)
  have same : (∑ other ∈ Finset.univ.erase core, measure (Function.update workers core worker other)) =
      ∑ other ∈ Finset.univ.erase core, measure (workers other) := by
    refine Finset.sum_congr rfl fun other member => ?_
    rw [Function.update_of_ne (Finset.ne_of_mem_erase member)]
  simp only [Function.update_self] at after
  omega

def Call.rank : Call → Nat
  | .idle => 0
  | .loaded _ => 4
  | .stored => 3

def Worker.rank (w : Worker) : Nat :=
  6 * w.asked + 5 * w.timers + w.call.rank + (!w.stopped).toNat

def Phase.rank : Phase → Nat
  | .running => 2
  | .stopping => 1
  | .left => 0

def Loader.reserve (l : Loader count) : Nat :=
  if l.again then 6 * count + 1 else 0

def Loader.rank (l : Loader count) : Nat :=
  (∑ core, (l.workers core).rank) + l.reserve + 2 * l.signals + l.stops + l.phase.rank

theorem rank_set (l : Loader count) (core : Fin count) (worker : Worker) :
    (l.set core worker).rank + (l.workers core).rank = l.rank + worker.rank := by
  have sum := sum_update Worker.rank l.workers core worker
  have reserve : (l.set core worker).reserve = l.reserve := rfl
  simp only [rank, reserve]
  simp only [Loader.set]
  omega

variable {l : Loader count}

theorem rank_submitAgain (again : l.again = true) : l.submitAgain.rank < l.rank := by
  have each (core) : (l.submitAgain.workers core).rank = (l.workers core).rank + 6 := by
    simp only [submitAgain, Worker.rank]
    omega
  have sum : (∑ core, (l.submitAgain.workers core).rank) =
      (∑ core, (l.workers core).rank) + 6 * count := by
    simp only [each, Finset.sum_add_distrib, Finset.sum_const, Finset.card_univ, Fintype.card_fin,
      smul_eq_mul]
    omega
  have before : l.reserve = 6 * count + 1 := by simp [reserve, again]
  have after : l.submitAgain.reserve = 0 := rfl
  simp only [rank, sum, before, after]
  simp only [submitAgain]
  omega

variable {core : Fin count}

theorem rank_lt_of_worker {worker} (lower : worker.rank < (l.workers core).rank) :
    (l.set core worker).rank < l.rank := by
  have sum := rank_set l core worker
  omega

theorem rank_store {value} (call : (l.workers core).call = .loaded value) :
    (l.store core value).rank < l.rank := by
  change (l.set core _).rank < l.rank
  refine rank_lt_of_worker ?_
  simp only [Worker.at, Worker.rank, call, Call.rank]
  omega

theorem rank_compare (call : (l.workers core).call = .stored) : (l.compare core).rank < l.rank := by
  have sum := rank_set l core ((l.workers core).at .idle)
  have lower : ((l.workers core).at .idle).rank + 3 = (l.workers core).rank := by
    simp only [Worker.at, Worker.rank, call, Call.rank]
    omega
  have signal : (l.compare core).rank ≤ (l.set core ((l.workers core).at .idle)).rank + 2 := by
    change _ + l.reserve + 2 * (l.compare core).signals + l.stops + l.phase.rank ≤
      _ + l.reserve + 2 * l.signals + l.stops + l.phase.rank + 2
    have : (l.compare core).signals ≤ l.signals + 1 := by
      simp only [Loader.compare]
      split <;> omega
    have same : (∑ other, ((l.compare core).workers other).rank) =
      ∑ other, ((l.set core ((l.workers core).at .idle)).workers other).rank := rfl
    omega
  omega

theorem rank_lt_of_main {after : Loader count} (workers : after.workers = l.workers)
    (reserve : after.reserve = l.reserve) (lower : 2 * after.signals + after.stops + after.phase.rank <
      2 * l.signals + l.stops + l.phase.rank) : after.rank < l.rank := by
  simp only [rank, workers, reserve]
  omega

theorem step_rank (duration : Nat) (l : Loader count) (step : Step count) :
    l.step duration step = l ∨ (l.step duration step).rank < l.rank := by
  refine (step_moved duration l step).imp_right fun moved => ?_
  generalize l.step duration step = after at moved
  cases moved with
  | again inside due => exact rank_submitAgain due
  | endTest asked =>
    refine rank_lt_of_worker ?_
    simp only [Worker.endTest, Worker.rank]
    split <;> omega
  | finish free due =>
    refine rank_lt_of_worker ?_
    simp only [Worker.finish, Worker.rank, free, Call.rank]
    omega
  | store call => exact rank_store call
  | compare call => exact rank_compare call
  | onDone inside signal =>
    refine rank_lt_of_main rfl rfl ?_
    change 2 * (l.signals - 1) + (l.stops + 1) + l.phase.rank < _
    omega
  | stop inside due =>
    have phase : l.halts.phase.rank ≤ l.phase.rank := by
      simp only [halts]
      cases l.phase <;> decide
    refine rank_lt_of_main rfl rfl ?_
    change 2 * l.signals + (l.stops - 1) + l.halts.phase.rank < _
    omega
  | interrupt running => exact rank_lt_of_main rfl rfl (by simp [running, Phase.rank])
  | leave stopping => exact rank_lt_of_main rfl rfl (by simp [stopping, Phase.rank])
  | halt ended awake =>
    refine rank_lt_of_worker ?_
    simp [Worker.halt, Worker.rank, awake]

theorem settles (duration : Nat) (l : Loader count) :
    ∃ steps, .interrupt ∉ steps ∧ Settled duration (l.run duration steps) := by
  generalize bound : l.rank = rank
  induction rank using Nat.strong_induction_on generalizing l with
  | _ rank ih =>
    by_cases settled : Settled duration l
    · exact ⟨[], List.not_mem_nil, settled⟩
    · simp only [Settled, not_forall] at settled
      obtain ⟨step, own, changes⟩ := settled
      have lower := (step_rank duration l step).resolve_left changes
      obtain ⟨steps, others, ends⟩ := ih _ (bound ▸ lower) (l.step duration step) rfl
      exact ⟨step :: steps, by simp [others, Ne.symm own], ends⟩

def AllDone (l : Loader count) : Prop :=
  ∀ core, 0 < (l.workers core).finished ∧ (l.workers core).call = .idle

def Call.loading : Call → Nat
  | .loaded _ => 1
  | _ => 0

structure Running (l : Loader count) : Prop where
  once : ∀ core, (l.workers core).finished ≤ 1
  alone : ∀ core other, (l.workers core).call ≠ .idle → (l.workers other).call ≠ .idle → core = other
  counted : l.endedServices + ∑ core, (l.workers core).call.loading = ∑ core, (l.workers core).finished
  current : ∀ core value, (l.workers core).call = .loaded value → value = l.endedServices
  signalled : AllDone l → l.signals + l.onDone = 1
  silent : ¬ AllDone l → l.signals = 0 ∧ l.onDone = 0
  stops : l.stops ≤ l.onDone
  stopping : l.phase = .stopping → 0 < l.onDone
  awake : l.phase = .running → ∀ core, (l.workers core).stopped = false

structure Sound (l : Loader count) : Prop where
  asked : ∀ core, (l.workers core).asked + (l.workers core).timers + (l.workers core).finished =
    if l.again then 1 else 2
  running : l.phase ≠ .left → Running l
  left : l.phase = .left → l.onDone = 1 ∧ ∀ core, 0 < (l.workers core).finished

theorem start_sound (above : 0 < count) : Sound (Loader.start count) where
  asked _ := rfl
  running _ := {
    once := fun _ => Nat.zero_le _
    alone := fun _ _ busy => absurd rfl busy
    counted := by simp [Loader.start, Call.loading]
    current := fun _ _ call => nomatch call
    signalled := fun all => absurd (all ⟨0, above⟩).1 (Nat.lt_irrefl 0)
    silent := fun _ => ⟨rfl, rfl⟩
    stops := Nat.le_refl 0
    stopping := fun phase => nomatch phase
    awake := fun _ _ => rfl }
  left phase := nomatch phase

theorem Running.congr {after} (running : Running l)
    (finished : ∀ core, (after.workers core).finished = (l.workers core).finished)
    (call : ∀ core, (after.workers core).call = (l.workers core).call)
    (ended : after.endedServices = l.endedServices) (signals : after.signals = l.signals)
    (onDone : after.onDone = l.onDone) (stops : after.stops ≤ l.onDone)
    (stopping : after.phase = .stopping → 0 < l.onDone)
    (awake : after.phase = .running → ∀ core, (after.workers core).stopped = false) : Running after := by
  have done : AllDone after ↔ AllDone l := by simp only [AllDone, finished, call]
  constructor
  case once => simpa only [finished] using running.once
  case alone => simpa only [call] using running.alone
  case counted => simpa only [finished, call, ended] using running.counted
  case current => simpa only [call, ended] using running.current
  case signalled => simpa only [done, signals, onDone] using running.signalled
  case silent => simpa only [done, signals, onDone] using running.silent
  case stops => simpa only [onDone] using stops
  case stopping => simpa only [onDone] using stopping
  case awake => exact awake

@[simp] theorem set_self (l : Loader count) (core : Fin count) (worker : Worker) :
    (l.set core worker).workers core = worker := Function.update_self ..

theorem set_other {other} (worker : Worker) (distinct : other ≠ core) :
    (l.set core worker).workers other = l.workers other :=
  Function.update_of_ne distinct ..

theorem set_keeps {α} (field : Worker → α) (l : Loader count) {worker}
    (same : field worker = field (l.workers core)) (other : Fin count) :
    field ((l.set core worker).workers other) = field (l.workers other) := by
  by_cases here : other = core
  · subst here
    rw [set_self, same]
  · rw [set_other _ here]

theorem set_all (property : Fin count → Worker → Prop) {worker} (here : property core worker)
    (before : ∀ other, property other (l.workers other)) (other : Fin count) :
    property other ((l.set core worker).workers other) := by
  by_cases same : other = core
  · subst same
    rwa [set_self]
  · rw [set_other _ same]
    exact before other

theorem inCall_running (running : Running l) {worker : Worker} {ended : Nat}
    (inCall : worker.call ≠ .idle) (free : ∀ other ≠ core, (l.workers other).call = .idle)
    (unfinished : ¬AllDone l) (once : worker.finished ≤ 1)
    (counted : ended + worker.call.loading + (l.workers core).finished =
      l.endedServices + (l.workers core).call.loading + worker.finished)
    (current : ∀ value, worker.call = .loaded value → value = ended)
    (awake : worker.stopped = (l.workers core).stopped) :
    Running { l.set core worker with endedServices := ended } := by
  have busy (other) (working : ((l.set core worker).workers other).call ≠ .idle) : other = core := by
    by_contra distinct
    rw [set_other _ distinct] at working
    exact working (free other distinct)
  constructor
  case once => exact set_all (fun _ w => w.finished ≤ 1) once running.once
  case alone => exact fun one other first second => (busy one first).trans (busy other second).symm
  case counted =>
    have loads := sum_update (fun w => w.call.loading) l.workers core worker
    have ends := sum_update Worker.finished l.workers core worker
    have before := running.counted
    simp only [Loader.set]
    omega
  case current =>
    intro other value loaded
    have here := busy other fun idle => nomatch loaded.symm.trans idle
    subst here
    exact current value ((congrArg Worker.call (set_self l other worker)).symm.trans loaded)
  case signalled =>
    intro all
    exact absurd ((congrArg Worker.call (set_self l core worker)).symm.trans (all core).2) inCall
  case silent => exact fun _ => running.silent unfinished
  case stops => exact running.stops
  case stopping => exact running.stopping
  case awake =>
    intro phase
    exact set_all (fun _ w => w.stopped = false) (awake.trans (running.awake phase core))
      (running.awake phase)

theorem finish_running (running : Running l) (first : (l.workers core).finished = 0)
    (free : ∀ other, (l.workers other).call = .idle) :
    Running (l.set core ((l.workers core).finish l.endedServices)) := by
  refine inCall_running running nofun (fun other _ => free other) ?_ (by simp [Worker.finish, first]) ?_
    (fun _ same => (Call.loaded.inj same).symm) rfl
  · intro all
    have := (all core).1
    omega
  · rw [free core]
    simp only [Worker.finish, Call.loading]
    omega

theorem store_running (running : Running l) {value}
    (call : (l.workers core).call = .loaded value) : Running (l.store core value) := by
  have current := running.current core value call
  refine inCall_running running nofun ?_ ?_ (running.once core) ?_ nofun rfl
  · intro other distinct
    by_contra working
    exact distinct (running.alone other core working (by simp [call]))
  · intro all
    have := (all core).2
    simp [call] at this
  · simp only [call, current, Worker.at, Call.loading]

theorem all_finished (once : ∀ core, (l.workers core).finished ≤ 1)
    (enough : count ≤ ∑ core, (l.workers core).finished) (core : Fin count) :
    0 < (l.workers core).finished := by
  by_contra nothing
  have less : ∑ other, (l.workers other).finished < ∑ _other : Fin count, 1 :=
    Finset.sum_lt_sum (fun other _ => once other) ⟨core, Finset.mem_univ core, by omega⟩
  simp at less
  omega

theorem compare_running (running : Running l) (call : (l.workers core).call = .stored) :
    Running (l.compare core) := by
  have free (other) : ((l.compare core).workers other).call = .idle := by
    by_cases here : other = core
    · subst here
      exact congrArg Worker.call (set_self ..)
    · have same : (l.compare core).workers other = l.workers other := set_other _ here
      rw [same]
      by_contra working
      exact here (running.alone other core working (by simp [call]))
  have kept (other) : ((l.compare core).workers other).finished = (l.workers other).finished :=
    @set_keeps _ core _ Worker.finished l ((l.workers core).at .idle) rfl other
  have unfinished : ¬ AllDone l := fun all => by
    have := (all core).2
    simp [call] at this
  have zero : (∑ other, (l.workers other).call.loading) = 0 := by
    refine Finset.sum_eq_zero fun other _ => ?_
    cases state : (l.workers other).call with
    | idle => rfl
    | stored => rfl
    | loaded value =>
      have same := running.alone other core (by simp [state]) (by simp [call])
      subst same
      simp [state] at call
  have counted := running.counted
  obtain ⟨noSignal, noDone⟩ := running.silent unfinished
  constructor
  case once => simpa only [kept] using running.once
  case alone => exact fun one _ working => absurd (free one) working
  case counted =>
    simp only [free, kept, Call.loading, Finset.sum_const_zero]
    change l.endedServices + 0 = _
    omega
  case current => exact fun other value loaded => by simp [free] at loaded
  case signalled =>
    intro all
    have enough : l.endedServices ≥ count := by
      have each : (∑ _other : Fin count, 1) ≤ ∑ other, (l.workers other).finished :=
        Finset.sum_le_sum fun other _ => by
          have := (all other).1
          rwa [kept] at this
      simp at each
      omega
    simp [Loader.compare, enough, noSignal, Loader.set, noDone]
  case silent =>
    intro notAll
    have few : ¬ l.endedServices ≥ count := fun enough =>
      notAll fun other => ⟨by
        rw [kept]
        exact all_finished running.once (by omega) other, free other⟩
    simp [Loader.compare, few, noSignal, Loader.set, noDone]
  case stops => exact running.stops
  case stopping => exact running.stopping
  case awake =>
    intro phase
    exact set_all (fun _ w => w.stopped = false) (running.awake phase core) (running.awake phase)

theorem step_left (duration : Nat) (phase : l.phase = .left) (step : Step count) :
    (l.step duration step).phase = .left ∧ (l.step duration step).onDone = l.onDone ∧
      ∀ core, (l.workers core).finished ≤ ((l.step duration step).workers core).finished := by
  have grows (core : Fin count) (worker : Worker) (here : (l.workers core).finished ≤ worker.finished) :=
    set_all (fun other w => (l.workers other).finished ≤ w.finished) here fun _ => Nat.le_refl _
  rcases step_moved duration l step with same | moved
  · rw [same]
    exact ⟨phase, rfl, fun _ => Nat.le_refl _⟩
  · generalize l.step duration step = after at moved
    cases moved with
    | again inside _ | onDone inside _ | stop inside _ => exact absurd phase inside
    | finish free due => exact ⟨phase, rfl, grows _ _ (Nat.le_succ _)⟩
    | interrupt running => cases running.symm.trans phase
    | leave stopping => cases stopping.symm.trans phase
    | endTest | store | compare | halt => exact ⟨phase, rfl, grows _ _ (Nat.le_refl _)⟩

variable {duration : Nat}

theorem step_asked (lasting : 0 < duration) (step : Step count)
    (asked : ∀ core, (l.workers core).asked + (l.workers core).timers + (l.workers core).finished =
      if l.again then 1 else 2) (core : Fin count) :
    ((l.step duration step).workers core).asked + ((l.step duration step).workers core).timers +
      ((l.step duration step).workers core).finished = if (l.step duration step).again then 1 else 2 := by
  have keeps (one : Fin count) (worker : Worker)
      (same : worker.asked + worker.timers + worker.finished =
        (l.workers one).asked + (l.workers one).timers + (l.workers one).finished) :
      ((l.set one worker).workers core).asked + ((l.set one worker).workers core).timers +
        ((l.set one worker).workers core).finished = if l.again then 1 else 2 :=
    (set_keeps (fun w => w.asked + w.timers + w.finished) l same core).trans (asked core)
  rcases step_moved duration l step with same | moved
  · rw [same]
    exact asked core
  · generalize l.step duration step = after at moved
    cases moved with
    | again inside due =>
      have before := asked core
      simp only [due, if_true] at before
      simp only [submitAgain, Bool.false_eq_true, if_false]
      omega
    | endTest above =>
      refine keeps _ _ ?_
      simp only [Worker.endTest, lasting, if_true]
      omega
    | finish free due =>
      refine keeps _ _ ?_
      simp only [Worker.finish]
      omega
    | @store one value call => exact keeps one ((l.workers one).at .stored) rfl
    | @compare one call => exact keeps one ((l.workers one).at .idle) rfl
    | halt ended awake => exact keeps _ _ rfl
    | onDone | stop | interrupt | leave => exact asked core

theorem onDone_running (running : Running l) (signal : 0 < l.signals) :
    Running { l with signals := l.signals - 1, onDone := l.onDone + 1, stops := l.stops + 1 } := by
  have all : AllDone l := by
    by_contra notAll
    have := running.silent notAll
    omega
  exact { running with
    signalled _ := by
      have := running.signalled all
      change l.signals - 1 + (l.onDone + 1) = 1
      omega
    silent notAll := absurd all notAll
    stops := Nat.succ_le_succ running.stops
    stopping _ := Nat.succ_pos _ }

theorem step_running (duration : Nat) (running : Running l) (inside : l.phase ≠ .left)
    (step : Step count) (paced : step.Paced l) (stays : step ≠ .leave) :
    Running (l.step duration step) := by
  rcases step_moved duration l step with same | moved
  · rw [same]
    exact running
  · generalize l.step duration step = after at moved
    cases moved with
    | again inside due =>
      exact { running with }
    | @endTest core asked =>
      exact running.congr (set_keeps Worker.finished l rfl) (set_keeps Worker.call l rfl) rfl rfl rfl
        running.stops running.stopping fun phase =>
          set_all (fun _ w => w.stopped = false) (running.awake phase core) (running.awake phase)
    | finish free due =>
      obtain ⟨first, free⟩ := (paced due).resolve_left inside
      exact finish_running running first free
    | store call => exact store_running running call
    | compare call => exact compare_running running call
    | onDone inside signal => exact onDone_running running signal
    | stop inside due =>
      have done : 0 < l.onDone := Nat.lt_of_lt_of_le due running.stops
      refine { running with stops := ?_, stopping := fun _ => done, awake := ?_ }
      · exact Nat.le_trans (Nat.sub_le _ _) running.stops
      · intro phase
        exfalso
        revert phase
        simp only [halts]
        cases l.phase <;> simp
    | interrupt => exact absurd paced inside
    | leave => exact absurd rfl stays
    | halt ended awake =>
      exact running.congr (set_keeps Worker.finished l rfl) (set_keeps Worker.call l rfl) rfl rfl rfl
        running.stops running.stopping fun phase => absurd phase ended

theorem step_inside (duration : Nat) (inside : l.phase ≠ .left) {step}
    (stays : step ≠ .leave) : (l.step duration step).phase ≠ .left := by
  rcases step_moved duration l step with same | moved
  · rwa [same]
  · generalize l.step duration step = after at moved
    cases moved with
    | leave => exact absurd rfl stays
    | interrupt => exact nofun
    | stop =>
      simp only [halts]
      split
      · exact nofun
      · exact inside
    | _ => exact inside

theorem leave_sound (sound : Sound l) (inside : l.phase ≠ .left) : Sound (l.step duration .leave) := by
  have running := sound.running inside
  simp only [Loader.step]
  split
  · rename_i phase
    have done := running.stopping phase
    have all : AllDone l := by
      by_contra notAll
      have := running.silent notAll
      omega
    have once := running.signalled all
    refine ⟨sound.asked, fun outside => absurd rfl outside, fun _ => ⟨?_, fun core => (all core).1⟩⟩
    change l.onDone = 1
    omega
  · exact sound

theorem step_sound (lasting : 0 < duration) (sound : Sound l) (step : Step count)
    (paced : step.Paced l) : Sound (l.step duration step) := by
  have asked := step_asked lasting step sound.asked
  by_cases phase : l.phase = .left
  · obtain ⟨outside, same, grows⟩ := step_left duration phase step
    obtain ⟨once, finished⟩ := sound.left phase
    exact ⟨asked, fun inside => absurd outside inside, fun _ =>
      ⟨same.trans once, fun core => Nat.lt_of_lt_of_le (finished core) (grows core)⟩⟩
  · by_cases leaves : step = .leave
    · subst leaves
      exact leave_sound sound phase
    · have running := step_running duration (sound.running phase) phase step paced leaves
      exact ⟨asked, fun _ => running, fun outside =>
        absurd outside (step_inside duration phase leaves)⟩

theorem run_sound (lasting : 0 < duration) (l : Loader count) (steps : List (Step count))
    (sound : Sound l) (paced : PacedRun duration l steps) : Sound (l.run duration steps) := by
  induction steps generalizing l with
  | nil => exact sound
  | cons step rest ih => exact ih _ (step_sound lasting sound step paced.1) paced.2

theorem settled_left (above : 0 < count) (sound : Sound l) (settled : Settled duration l) :
    l.phase = .left := by
  by_contra inside
  have running := sound.running inside
  have isRunning : l.phase = .running := by
    cases phase : l.phase with
    | running => rfl
    | stopping =>
      have same := settled .leave (by simp)
      simp only [Loader.step, phase, if_true] at same
      exact absurd (congrArg Loader.phase same) (by simp [phase])
    | left => exact absurd phase inside
  have noMore : l.again = false := by
    cases more : l.again with
    | false => rfl
    | true =>
      have same := congrArg again (settled .again (by simp))
      simp [Loader.step, inside, more, submitAgain] at same
  obtain ⟨core, isCore⟩ : ∃ core : Fin count, core = ⟨0, above⟩ := ⟨_, rfl⟩
  have awake := running.awake isRunning core
  have free : (l.workers core).call = .idle := by
    cases call : (l.workers core).call with
    | idle => rfl
    | loaded value =>
      have same := congrArg (fun l => (l.workers core).call) (settled (.store core) (by simp))
      simp [Loader.step, call, store, Worker.at] at same
    | stored =>
      have same := congrArg (fun l => (l.workers core).call) (settled (.compare core) (by simp))
      simp [Loader.step, call, Loader.compare, Worker.at] at same
  have notAsked : (l.workers core).asked = 0 := by
    by_contra nonzero
    have same := congrArg (fun l => (l.workers core).asked) (settled (.endTest core) (by simp))
    simp [Loader.step, awake, free, Nat.pos_of_ne_zero nonzero, Worker.endTest] at same
    omega
  have noTimer : (l.workers core).timers = 0 := by
    by_contra nonzero
    have same := congrArg (fun l => (l.workers core).call) (settled (.finish core) (by simp))
    simp [Loader.step, awake, free, Nat.pos_of_ne_zero nonzero, Worker.finish] at same
  have total := sound.asked core
  have once := running.once core
  simp [noMore] at total
  omega

theorem sound_signalled (above : 0 < count) (sound : Sound l) : SignalledOnce duration l := by
  refine ⟨?_, ?_, fun settled => (sound.left (settled_left above sound settled)).1⟩
  · by_cases phase : l.phase = .left
    · exact Nat.le_of_eq (sound.left phase).1
    · have running := sound.running phase
      by_cases all : AllDone l
      · have := running.signalled all
        omega
      · have := running.silent all
        omega
  · intro done core
    by_cases phase : l.phase = .left
    · exact (sound.left phase).2 core
    · have running := sound.running phase
      by_contra unfinished
      have := running.silent fun all => unfinished (all core).1
      omega

structure Quiet (l : Loader count) : Prop where
  services : ∀ core, (l.workers core).timers = 0 ∧ (l.workers core).call = .idle
  signals : l.signals = 0
  onDone : l.onDone = 0

theorem step_quiet (never : count = 0 ∨ duration = 0) (quiet : Quiet l) (step : Step count) :
    Quiet (l.step duration step) := by
  have core_never (core : Fin count) : duration = 0 :=
    never.resolve_left fun zero => (zero ▸ core).elim0
  rcases step_moved duration l step with same | moved
  · rwa [same]
  · generalize l.step duration step = after at moved
    cases moved with
    | @endTest core asked =>
      refine ⟨?_, quiet.signals, quiet.onDone⟩
      refine set_all (fun _ w => w.timers = 0 ∧ w.call = .idle) ?_ quiet.services
      simpa [Worker.endTest, core_never core] using quiet.services core
    | @finish core free due => exact absurd (quiet.services core).1 (Nat.ne_of_gt due)
    | @store core value call => cases call.symm.trans (quiet.services core).2
    | @compare core call => cases call.symm.trans (quiet.services core).2
    | onDone inside signal => exact absurd quiet.signals (Nat.ne_of_gt signal)
    | @halt core ended awake =>
      exact ⟨set_all (fun _ w => w.timers = 0 ∧ w.call = .idle) (quiet.services core) quiet.services,
        quiet.signals, quiet.onDone⟩
    | again | stop | interrupt | leave => exact { quiet with }

theorem quiet_paced (quiet : Quiet l) {step : Step count} (own : step ≠ .interrupt) : step.Paced l := by
  cases step with
  | finish core => exact fun timer => absurd (quiet.services core).1 (Nat.ne_of_gt timer)
  | interrupt => exact absurd rfl own
  | _ => trivial

theorem run_quiet (never : count = 0 ∨ duration = 0) (l : Loader count) (steps : List (Step count))
    (quiet : Quiet l) (own : .interrupt ∉ steps) :
    PacedRun duration l steps ∧ Quiet (l.run duration steps) := by
  induction steps generalizing l with
  | nil => exact ⟨trivial, quiet⟩
  | cons step rest ih =>
    simp only [List.mem_cons, not_or] at own
    have next := ih (l.step duration step) (step_quiet never quiet step) own.2
    exact ⟨⟨quiet_paced quiet (Ne.symm own.1), next.1⟩, next.2⟩

/-- If no two calls of `end_game` overlap and none is repeated while core 0 listens, completion is
signalled once, given a service and a duration. -/
theorem signalled_once_iff (count duration : Nat) :
    (∀ steps, PacedRun duration (Loader.start count) steps →
        SignalledOnce duration ((Loader.start count).run duration steps)) ↔
      0 < count ∧ 0 < duration := by
  constructor
  · intro signalled
    by_contra condition
    have never : count = 0 ∨ duration = 0 := by omega
    have quiet : Quiet (Loader.start count) := ⟨fun _ => ⟨rfl, rfl⟩, rfl, rfl⟩
    obtain ⟨steps, own, settled⟩ := settles duration (Loader.start count)
    obtain ⟨paced, still⟩ := run_quiet never _ steps quiet own
    have once := (signalled steps paced).2.2 settled
    rw [still.onDone] at once
    cases once
  · rintro ⟨above, lasting⟩ steps paced
    exact sound_signalled above (run_sound lasting _ steps (start_sound above) paced)

/-- Calls that overlap signal twice or lose an increment, and a service that finishes twice signals
for the other. -/
theorem signalled_wrongly :
    ((Loader.start 2).run 30 [.endTest 0, .endTest 1, .finish 0, .store 0, .finish 1, .store 1,
      .compare 0, .compare 1, .onDone, .onDone]).onDone = 2 ∧
    ((Loader.start 2).run 30 [.endTest 0, .endTest 1, .finish 0, .finish 1, .store 0, .store 1,
      .compare 0, .compare 1, .onDone]).onDone = 0 ∧
    ¬ SignalledOnce 30 ((Loader.start 2).run 30 [.endTest 0, .again, .endTest 0, .finish 0, .store 0,
      .compare 0, .finish 0, .store 0, .compare 0, .onDone]) := by
  refine ⟨by decide, by decide, fun signalled => ?_⟩
  have finished := signalled.2.1 (by decide) 1
  revert finished
  decide

end Mcc.Completion
