import Mcc.Machine

/-!
The totals that the client prints. A reporting round asks every worker core for its counters, the
answers are added to shared accumulators as they come in, and a task prints the accumulators and
resets them: 100 ms later in the round of every second, and at once in the round of the log.
-/

namespace Mcc.Reporting

inductive Report where
  | sec
  | log
  deriving Repr, DecidableEq

open Report

inductive Counter where
  | connected
  | request
  | send
  | received
  | retry
  deriving Repr, DecidableEq

def Report.counters : Report → List Counter
  | .sec => [.connected, .request, .send, .received, .retry]
  | .log => [.connected, .request, .send, .received]

structure Item where
  report : Report
  round : Nat
  counter : Counter
  core : Nat
  deriving Repr, DecidableEq

structure Line where
  report : Report
  round : Nat
  totals : Counter → Int

structure Client where
  adders : Report → Counter → UInt32
  pending : List Item
  rounds : Report → Nat
  due : List Nat
  printed : List Line

open Client

def Client.start : Client where
  adders _ _ := 0
  pending := []
  rounds _ := 0
  due := []
  printed := []

def shown : Report → UInt32 → Int
  | .sec, result => result.toNat
  | .log, result => result.toInt32.toInt

/-- The adder takes an `unsigned`, so that a 64-bit value is cut. -/
def add (result : UInt32) (value : UInt64) : UInt32 := result + value.toUInt32

def mapReduce (count : Nat) (report : Report) (round : Nat) (counter : Counter) : List Item :=
  (List.range' 1 (count - 1)).map fun core => { report, round, counter, core }

def Client.line (c : Client) (report : Report) (round : Nat) : Line where
  report := report
  round := round
  totals counter := shown report (c.adders report counter)

def Client.print (c : Client) (report : Report) (round : Nat) : Client :=
  { c with
    printed := c.printed ++ [c.line report round]
    adders := Function.update c.adders report fun _ => 0 }

abbrev Returned := Item → UInt64

inductive Step where
  | round (report : Report)
  | complete (item : Item)
  | print

def Client.submit (count : Nat) (c : Client) (report : Report) : Client :=
  { c with
    pending := c.pending ++ report.counters.flatMap (mapReduce count report (c.rounds report))
    rounds := Function.update c.rounds report (c.rounds report + 1) }

def Client.complete (returned : Returned) (c : Client) (item : Item) : Client :=
  { c with
    pending := c.pending.erase item
    adders := Function.update c.adders item.report (Function.update (c.adders item.report)
      item.counter (add (c.adders item.report item.counter) (returned item))) }

def Client.step (count : Nat) (returned : Returned) (c : Client) : Step → Client
  | .round .sec => { c.submit count .sec with due := c.due ++ [c.rounds .sec] }
  | .round .log => (c.submit count .log).print .log (c.rounds .log)
  | .complete item => if item ∈ c.pending then c.complete returned item else c
  | .print =>
    match c.due with
    | [] => c
    | round :: rest => { c.print .sec round with due := rest }

def Client.run (count : Nat) (returned : Returned) (c : Client) (steps : List Step) : Client :=
  steps.foldl (Client.step count returned) c

def total (count : Nat) (returned : Returned) (report : Report) (round : Nat) (counter : Counter) :
    Nat :=
  ((mapReduce count report round counter).map fun item => (returned item).toNat).sum

def Exact (count : Nat) (returned : Returned) (c : Client) : Prop :=
  ∀ line ∈ c.printed, ∀ counter ∈ line.report.counters,
    line.totals counter = total count returned line.report line.round counter

/-- The answers of a round of the first task come in before its line is printed, and the next round
begins after that. -/
def Step.Timely (c : Client) : Step → Prop
  | .round .sec => c.due = []
  | .print => ∀ item ∈ c.pending, item.report ≠ .sec
  | _ => True

def TimelyRun (count : Nat) (returned : Returned) (c : Client) : List Step → Prop
  | [] => True
  | step :: rest => step.Timely c ∧ TimelyRun count returned (c.step count returned step) rest

def share (returned : Returned) (report : Report) (counter : Counter) (item : Item) : Nat :=
  if item.report = report ∧ item.counter = counter then (returned item).toNat else 0

theorem sum_share_mapReduce (count : Nat) (returned : Returned) (report other : Report) (round : Nat)
    (counter asked : Counter) :
    ((mapReduce count other round asked).map (share returned report counter)).sum =
      if other = report ∧ asked = counter then total count returned report round counter else 0 := by
  split
  · rename_i same
    obtain ⟨rfl, rfl⟩ := same
    simp [mapReduce, total, share, Function.comp_def]
  · rename_i distinct
    simp [mapReduce, share, distinct, Function.comp_def]

variable {count : Nat} {returned : Returned} {report : Report} {counter : Counter}

theorem sum_share_round (round : Nat) (member : counter ∈ report.counters) :
    ((report.counters.flatMap (mapReduce count report round)).map
      (share returned report counter)).sum = total count returned report round counter := by
  cases report <;> cases counter <;> simp_all [counters, sum_share_mapReduce]

theorem sum_share_other {other : Report} (round : Nat) (counter : Counter) (distinct : other ≠ report) :
    ((other.counters.flatMap (mapReduce count other round)).map
      (share returned report counter)).sum = 0 := by
  cases other <;> simp [counters, sum_share_mapReduce, distinct]

theorem share_of_counters {items : List Item} (absent : ∀ item ∈ items, item.report ≠ report) :
    (items.map (share returned report counter)).sum = 0 := by
  induction items with
  | nil => rfl
  | cons item rest ih =>
    have other : share returned report counter item = 0 := by
      simp [share, absent item List.mem_cons_self]
    simp [other, ih fun member inRest => absent member (List.mem_cons_of_mem _ inRest)]

def Client.expected (count : Nat) (returned : Returned) (c : Client) (counter : Counter) : Nat :=
  match c.due with
  | [] => 0
  | round :: _ => total count returned .sec round counter

structure Sound (count : Nat) (returned : Returned) (c : Client) : Prop where
  single : c.due.length ≤ 1
  balanced : ∀ counter ∈ Report.sec.counters,
    (c.adders .sec counter).toNat + (c.pending.map (share returned .sec counter)).sum =
      c.expected count returned counter
  silent : ∀ counter, c.adders .log counter = 0
  quiet : ∀ item ∈ c.pending, item.report = .log → returned item = 0
  correct : Exact count returned c

theorem start_sound (count : Nat) (returned : Returned) : Sound count returned .start where
  single := Nat.zero_le _
  balanced _ _ := rfl
  silent _ := rfl
  quiet _ member := nomatch member
  correct _ member := nomatch member

def Fits (count : Nat) (returned : Returned) : Prop :=
  (∀ round, ∀ counter ∈ Report.sec.counters, total count returned .sec round counter < 2 ^ 32) ∧
    ∀ round, ∀ counter ∈ Report.log.counters, total count returned .log round counter = 0

theorem Fits.expected_lt (fits : Fits count returned) (c : Client)
    (member : counter ∈ sec.counters) : c.expected count returned counter < 2 ^ 32 := by
  unfold expected
  split
  · decide
  · exact fits.1 _ counter member

variable {item : Item}

theorem Fits.quiet (fits : Fits count returned) {round : Nat}
    (member : item ∈ Report.log.counters.flatMap (mapReduce count .log round)) : returned item = 0 := by
  obtain ⟨counter, listed, among⟩ := List.mem_flatMap.mp member
  have nothing := fits.2 round counter listed
  have zero := List.sum_eq_zero_iff.mp nothing _ (List.mem_map_of_mem among)
  exact UInt64.toNat_inj.mp zero

theorem mapReduce_report {round : Nat}
    (member : item ∈ report.counters.flatMap (mapReduce count report round)) : item.report = report := by
  obtain ⟨counter, _, among⟩ := List.mem_flatMap.mp member
  obtain ⟨core, _, rfl⟩ := List.mem_map.mp among
  rfl

variable {c : Client}

section

variable (sound : Sound count returned c)
include sound

theorem round_sec_sound (timely : c.due = []) :
    Sound count returned (c.step count returned (.round .sec)) := by
  have nothing (counter) (member : counter ∈ sec.counters) :
      (c.adders .sec counter).toNat + (c.pending.map (share returned .sec counter)).sum = 0 := by
    rw [sound.balanced counter member, expected, timely]
  constructor
  case single => simp [Client.step, timely]
  case balanced =>
    intro counter member
    have all := @sum_share_round count returned .sec counter (c.rounds .sec) member
    simp only [Client.step, submit, expected, timely, List.nil_append, List.map_append,
      List.sum_append, all]
    have := nothing counter member
    omega
  case silent => exact sound.silent
  case quiet =>
    intro item member isLog
    rcases List.mem_append.mp member with old | new
    · exact sound.quiet item old isLog
    · rw [mapReduce_report new] at isLog
      cases isLog
  case correct => exact sound.correct

theorem complete_silent (pending : item ∈ c.pending) (counter : Counter) :
    (c.complete returned item).adders .log counter = 0 := by
  cases of : item.report with
  | sec => simpa [complete, of] using sound.silent counter
  | log =>
    by_cases same : counter = item.counter
    · subst same
      simp [complete, of, add, sound.silent, sound.quiet item pending of]
    · simp [complete, of, Function.update_of_ne same, sound.silent]

theorem print_sound (timely : ∀ item ∈ c.pending, item.report ≠ .sec) :
    Sound count returned (c.step count returned .print) := by
  cases due : c.due with
  | nil => simpa [Client.step, due] using sound
  | cons round rest =>
    have single := sound.single
    rw [due] at single
    obtain rfl : rest = [] := List.eq_nil_of_length_eq_zero (by simpa using single)
    have step : c.step count returned .print = { c.print .sec round with due := [] } := by
      simp [Client.step, due]
    have complete (counter) (listed : counter ∈ sec.counters) :
        (c.adders .sec counter).toNat = total count returned .sec round counter := by
      have before := sound.balanced counter listed
      rwa [share_of_counters timely, expected, due] at before
    rw [step]
    constructor
    case single => exact Nat.zero_le _
    case balanced =>
      intro counter _
      simp [print, expected, share_of_counters timely]
    case silent => exact fun counter => by simpa [print] using sound.silent counter
    case quiet => exact sound.quiet
    case correct =>
      intro line member counter listed
      rcases List.mem_append.mp member with old | new
      · exact sound.correct line old counter listed
      · cases List.mem_singleton.mp new
        exact congrArg Int.ofNat (complete counter listed)

end

section

variable (fits : Fits count returned)
include fits

section

variable (sound : Sound count returned c)
include sound

theorem round_log_sound : Sound count returned (c.step count returned (.round .log)) := by
  constructor
  case single => exact sound.single
  case balanced =>
    intro counter member
    have others := @sum_share_other count returned .sec .log (c.rounds .log) counter (by decide)
    have before := sound.balanced counter member
    simpa [Client.step, submit, print, expected, others] using before
  case silent => exact fun counter => by simp [Client.step, print]
  case quiet =>
    intro item member isLog
    rcases List.mem_append.mp member with old | new
    · exact sound.quiet item old isLog
    · exact fits.quiet new
  case correct =>
    intro line member counter listed
    rcases List.mem_append.mp member with old | new
    · exact sound.correct line old counter listed
    · cases List.mem_singleton.mp new
      -- The line shows the empty accumulators, and every core has returned zero.
      have nothing := fits.2 (c.rounds .log) counter listed
      simp [Client.line, submit, sound.silent, shown, nothing]

theorem complete_balanced (pending : item ∈ c.pending) (listed : counter ∈ sec.counters) :
    ((c.complete returned item).adders .sec counter).toNat +
        ((c.pending.erase item).map (share returned .sec counter)).sum =
      c.expected count returned counter := by
  have before := sound.balanced counter listed
  have split := List.sum_map_erase (share returned .sec counter) pending
  have bound := fits.expected_lt c listed
  by_cases counts : item.report = .sec ∧ item.counter = counter
  · obtain ⟨ofSec, same⟩ := counts
    have part : share returned .sec counter item = (returned item).toNat := by
      simp [share, ofSec, same]
    have small : (returned item).toNat < 2 ^ 32 := by omega
    have cut : (returned item).toUInt32.toNat = (returned item).toNat := by
      rw [UInt64.toNat_toUInt32]
      exact Nat.mod_eq_of_lt small
    have sum : ((c.complete returned item).adders .sec counter).toNat =
        (c.adders .sec counter).toNat + (returned item).toNat := by
      simp only [complete, ofSec, same, Function.update_self, add, UInt32.toNat_add, cut]
      exact Nat.mod_eq_of_lt (by omega)
    omega
  · have part : share returned .sec counter item = 0 := by simp [share, counts]
    have kept : (c.complete returned item).adders .sec counter = c.adders .sec counter := by
      cases of : item.report with
      | sec => simp [complete, of, Function.update_of_ne fun same => counts ⟨of, same.symm⟩]
      | log => simp [complete, of]
    rw [kept]
    omega

theorem complete_sound (item : Item) : Sound count returned (c.step count returned (.complete item)) := by
  simp only [Client.step]
  split
  · rename_i pending
    constructor
    case single => exact sound.single
    case balanced => exact fun _ => complete_balanced fits sound pending
    case silent => exact complete_silent sound pending
    case quiet => exact fun other member => sound.quiet other (List.mem_of_mem_erase member)
    case correct => exact sound.correct
  · exact sound

theorem step_sound (step : Step) (timely : step.Timely c) :
    Sound count returned (c.step count returned step) := by
  cases step with
  | round report =>
    cases report with
    | sec => exact round_sec_sound sound timely
    | log => exact round_log_sound fits sound
  | complete item => exact complete_sound fits sound item
  | print => exact print_sound sound timely

end

theorem run_sound (c : Client) (steps : List Step)
    (sound : Sound count returned c) (timely : TimelyRun count returned c steps) :
    Sound count returned (c.run count returned steps) := by
  induction steps generalizing c with
  | nil => exact sound
  | cons step rest ih => exact ih _ (step_sound fits sound step timely.1) timely.2

end

def fullRound (count round : Nat) : List Step :=
  .round .sec :: (Report.sec.counters.flatMap (mapReduce count .sec round)).map .complete ++ [.print]

theorem run_append (count : Nat) (returned : Returned) (c : Client) (first second : List Step) :
    c.run count returned (first ++ second) = (c.run count returned first).run count returned second := by
  simp [Client.run, List.foldl_append]

theorem timelyRun_append {first second : List Step} (before : TimelyRun count returned c first)
    (after : TimelyRun count returned (c.run count returned first) second) :
    TimelyRun count returned c (first ++ second) := by
  induction first generalizing c with
  | nil => exact after
  | cons step rest ih => exact ⟨before.1, ih before.2 after⟩

structure Idle (c : Client) (round : Nat) : Prop where
  pending : c.pending = []
  due : c.due = []
  rounds : c.rounds .sec = round

theorem run_complete (count : Nat) (returned : Returned) (c : Client) (items : List Item)
    (pending : c.pending = items) :
    TimelyRun count returned c (items.map .complete) ∧
      (c.run count returned (items.map .complete)).pending = [] ∧
      (c.run count returned (items.map .complete)).due = c.due ∧
      (c.run count returned (items.map .complete)).rounds = c.rounds := by
  induction items generalizing c with
  | nil => exact ⟨trivial, pending, rfl, rfl⟩
  | cons item rest ih =>
    have step : c.step count returned (.complete item) = c.complete returned item := by
      simp [Client.step, pending]
    have next := ih (c.complete returned item) (by simp [complete, pending])
    simp only [List.map_cons, TimelyRun, Client.run, List.foldl_cons, step]
    exact ⟨⟨trivial, next.1⟩, next.2⟩

theorem fullRound_prints {round : Nat} (idle : Idle c round) :
    TimelyRun count returned c (fullRound count round) ∧
      Idle (c.run count returned (fullRound count round)) (round + 1) ∧
      ∃ line ∈ (c.run count returned (fullRound count round)).printed,
        line.report = .sec ∧ line.round = round ∧ ∀ counter, line.totals counter < 2 ^ 32 := by
  obtain ⟨asked, isAsked⟩ : ∃ asked, asked = c.step count returned (.round .sec) := ⟨_, rfl⟩
  have waiting : asked.pending = sec.counters.flatMap (mapReduce count .sec round) := by
    simp [isAsked, Client.step, submit, idle.pending, idle.rounds]
  obtain ⟨timely, pending, due, rounds⟩ := run_complete count returned asked _ waiting
  obtain ⟨answered, isAnswered⟩ : ∃ answered, answered = asked.run count returned
    ((sec.counters.flatMap (mapReduce count .sec round)).map .complete) := ⟨_, rfl⟩
  rw [← isAnswered] at pending due rounds
  have onlyDue : answered.due = [round] := by
    rw [due, isAsked]
    simp [Client.step, idle.due, idle.rounds]
  have first : c.run count returned (.round .sec ::
      (sec.counters.flatMap (mapReduce count .sec round)).map .complete) = answered := by
    rw [isAnswered, isAsked]
    rfl
  have whole : c.run count returned (fullRound count round) =
      { answered.print .sec round with due := [] } := by
    rw [fullRound, run_append, first]
    change answered.step count returned .print = _
    rw [Client.step, onlyDue]
  refine ⟨?_, ?_, ?_⟩
  · refine timelyRun_append ⟨idle.due, ?_⟩ ⟨?_, trivial⟩
    · rwa [← isAsked]
    · rw [first]
      change ∀ item ∈ answered.pending, _
      rw [pending]
      exact fun _ member => nomatch member
  · rw [whole]
    refine ⟨pending, rfl, ?_⟩
    change answered.rounds .sec = round + 1
    rw [rounds, isAsked]
    simp [Client.step, submit, idle.rounds]
  · rw [whole]
    refine ⟨answered.line .sec round, List.mem_append_right _ List.mem_cons_self, rfl, rfl, ?_⟩
    intro counter
    have := (answered.adders .sec counter).toNat_lt
    simp only [Client.line, shown]
    omega

theorem idle_reached (count : Nat) (returned : Returned) (round : Nat) :
    ∃ steps, TimelyRun count returned .start steps ∧
      Idle (Client.start.run count returned steps) round := by
  induction round with
  | zero => exact ⟨[], trivial, rfl, rfl, rfl⟩
  | succ round ih =>
    obtain ⟨steps, timely, idle⟩ := ih
    obtain ⟨timelyRound, next, _⟩ := @fullRound_prints count returned _ round idle
    refine ⟨steps ++ fullRound count round, timelyRun_append timely timelyRound, ?_⟩
    rwa [run_append]

theorem log_rounds (count : Nat) (returned : Returned) (round : Nat) :
    TimelyRun count returned .start (List.replicate (round + 1) (.round .log)) ∧
      ∃ line ∈ (Client.start.run count returned (List.replicate (round + 1) (.round .log))).printed,
        line.report = .log ∧ line.round = round ∧ ∀ counter, line.totals counter = 0 := by
  suffices general : ∀ (more : Nat) (c : Client), (∀ counter, c.adders .log counter = 0) →
      TimelyRun count returned c (List.replicate (more + 1) (.round .log)) ∧
        ∃ line ∈ (c.run count returned (List.replicate (more + 1) (.round .log))).printed,
          line.report = .log ∧ line.round = c.rounds .log + more ∧ ∀ counter, line.totals counter = 0 by
    obtain ⟨timely, line, printed, isLog, number, zero⟩ := general round .start fun _ => rfl
    exact ⟨timely, line, printed, isLog, number.trans (Nat.zero_add round), zero⟩
  intro more
  induction more with
  | zero =>
    intro c empty
    refine ⟨⟨trivial, trivial⟩, c.line .log (c.rounds .log), ?_, rfl, rfl, ?_⟩
    · exact List.mem_append_right _ List.mem_cons_self
    · simp [Client.line, empty, shown]
  | succ more ih =>
    intro c empty
    obtain ⟨timely, line, printed, isLog, number, zero⟩ :=
      ih (c.step count returned (.round .log)) fun _ => by simp [Client.step, print]
    refine ⟨⟨trivial, timely⟩, line, printed, isLog, ?_, zero⟩
    rw [number]
    simp [Client.step, print, submit]
    omega

/-- With answers in time, the printed totals are exact just if the sums fit the 32-bit accumulators
and there is nothing to log: that line is printed before any answer. -/
theorem totals_exact_iff (count : Nat) (returned : Returned) :
    (∀ steps, TimelyRun count returned .start steps →
        Exact count returned (Client.start.run count returned steps)) ↔
      (∀ round, ∀ counter ∈ Report.sec.counters, total count returned .sec round counter < 2 ^ 32) ∧
        ∀ round, ∀ counter ∈ Report.log.counters, total count returned .log round counter = 0 := by
  constructor
  · intro correct
    constructor
    · intro round counter listed
      obtain ⟨steps, timely, idle⟩ := idle_reached count returned round
      obtain ⟨timelyRound, _, line, printed, isSec, rfl, small⟩ :=
        @fullRound_prints count returned _ round idle
      have all := correct _ (timelyRun_append timely timelyRound)
      rw [run_append] at all
      have equal := all line printed counter (by rwa [isSec])
      rw [isSec] at equal
      have := small counter
      omega
    · intro round counter listed
      obtain ⟨timely, line, printed, isLog, rfl, zero⟩ := log_rounds count returned round
      have equal := correct _ timely line printed counter (by rwa [isLog])
      rw [isLog, zero] at equal
      exact_mod_cast equal.symm
  · intro fits steps timely
    exact (run_sound fits .start steps (start_sound count returned) timely).correct

instance (count : Nat) (returned : Returned) (c : Client) : Decidable (Exact count returned c) :=
  inferInstanceAs (Decidable (∀ line ∈ c.printed, ∀ counter ∈ line.report.counters,
    line.totals counter = total count returned line.report line.round counter))

theorem totals_differ : ¬ Exact 3 (fun _ => 5) (Client.start.run 3 (fun _ => 5) [.round .log]) ∧
    ¬ Exact 2 (fun _ => 5) (Client.start.run 2 (fun _ => 5)
      [.round .sec, .print, .complete ⟨.sec, 0, .connected, 1⟩, .round .sec,
        .complete ⟨.sec, 1, .connected, 1⟩, .print]) ∧
    ¬ Exact 3 (fun _ => 2 ^ 31) (Client.start.run 3 (fun _ => 2 ^ 31) (fullRound 3 0)) := by
  refine ⟨?_, ?_, ?_⟩ <;> decide +kernel

end Mcc.Reporting
