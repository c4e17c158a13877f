import Mcc.Progress
import Mcc.Stepped

/-!
Endless runs of the stack's loop, in which every part of it comes again and again, and those of them
whose first steps are given and after which the loop goes on for nothing.
-/

namespace Mcc

open Progress

inductive Service where
  | rto
  | timewaitExpire
  | connectionTimeout
  | writeControl
  | writeData
  | writeAck
  | connectq
  | sendq
  | ackq
  | closeq
  | closeqInt
  | resetq
  | resetqInt
  | destroyq
  deriving Repr, DecidableEq

def Step.service : Step → Option Service
  | .rto => some .rto
  | .timewaitExpire _ => some .timewaitExpire
  | .connectionTimeout _ => some .connectionTimeout
  | .writeControl output _ => if output then some .writeControl else none
  | .writeData buffers _ => if 0 < buffers then some .writeData else none
  | .writeAck buffers _ => if 0 < buffers then some .writeAck else none
  | .connectq => some .connectq
  | .sendq => some .sendq
  | .ackq => some .ackq
  | .closeq => some .closeq
  | .closeqInt => some .closeqInt
  | .resetq => some .resetq
  | .resetqInt => some .resetqInt
  | .destroyq => some .destroyq
  | _ => none

structure EndlessRun (config : Config) (hosts : Nat → Host) (taken : Nat → Step) : Prop where
  steps : ∀ time, step config (hosts time) (taken time) = .ok (hosts (time + 1))
  fair : ∀ service, Recurs (fun time => (taken time).service) (some service)

theorem EndlessRun.stream {config hosts taken} (endless : EndlessRun config hosts taken) (time : Nat) :
    stepStream config (hosts time).listener (hosts time).stream (taken time) =
      .ok (hosts (time + 1)).stream := by
  obtain ⟨stream, stepped, made⟩ := bind_ok (endless.steps time)
  have same : stream = (hosts (time + 1)).stream := congrArg Host.stream (Except.ok.inj made)
  rw [← same]
  exact stepped

def serviceRound : List Step :=
  [.rto, .timewaitExpire 0, .connectionTimeout 0, .writeControl true 0, .writeData 1 0, .writeAck 1 0,
    .connectq, .sendq, .ackq, .closeq, .closeqInt, .resetq, .resetqInt, .destroyq]

def thenRounds (steps : List Step) (time : Nat) : Step :=
  steps.getD time (serviceRound.getD ((time - steps.length) % 14) .rto)

theorem thenRounds_late {steps time} (late : steps.length ≤ time) :
    thenRounds steps time = serviceRound.getD ((time - steps.length) % 14) .rto := by
  simp [thenRounds, List.getElem?_eq_none late]

theorem thenRounds_silent {steps time} (late : steps.length ≤ time) :
    (thenRounds steps time).isSegment = false := by
  have all : ∀ place < 14, (serviceRound.getD place .rto).isSegment = false := by decide
  rw [thenRounds_late late]
  exact all _ (Nat.mod_lt _ (by decide))

theorem thenRounds_fair (steps : List Step) (service : Service) :
    Recurs (fun time => (thenRounds steps time).service) (some service) := by
  have all : ∀ service : Service, ∃ place < 14, (serviceRound.getD place .rto).service = some service := by
    intro service
    cases service <;> decide
  obtain ⟨place, below, is⟩ := all service
  intro time
  refine ⟨steps.length + 14 * time + place, by omega, ?_⟩
  have turn : (steps.length + 14 * time + place - steps.length) % 14 = place := by omega
  dsimp only
  rw [thenRounds_late (by omega), turn, is]

structure ComesToRest (config : Config) (steps : List Step) (hosts : Nat → Host) : Prop where
  follows : ∀ {time next}, step config (hosts time) (thenRounds steps time) = .ok next →
    hosts (time + 1) = next
  fine : ∀ time < steps.length, (step config (hosts time) (thenRounds steps time)).isOk
  idle : ∀ taken ∈ serviceRound, (step config (hosts steps.length) taken).toOption =
    some (hosts steps.length)

namespace ComesToRest

variable {config : Config} {steps : List Step} {hosts : Nat → Host}

section

variable (comes : ComesToRest config steps hosts)
include comes

theorem late_step {time} (late : steps.length ≤ time) :
    step config (hosts steps.length) (thenRounds steps time) = .ok (hosts steps.length) := by
  have all : ∀ place < 14, serviceRound.getD place .rto ∈ serviceRound := by decide
  have idle := comes.idle _ (thenRounds_late late ▸ all _ (Nat.mod_lt _ (by decide)))
  cases stepped : step config (hosts steps.length) (thenRounds steps time) with
  | ok next =>
    rw [stepped] at idle
    exact congrArg Except.ok (Option.some.inj idle)
  | error fault =>
    rw [stepped] at idle
    cases idle

theorem rests (distance : Nat) : hosts (steps.length + distance) = hosts steps.length := by
  induction distance with
  | zero => rfl
  | succ distance ih =>
    rw [← Nat.add_assoc]
    refine comes.follows ?_
    rw [ih]
    exact comes.late_step (Nat.le_add_right _ _)

theorem run : EndlessRun config hosts (thenRounds steps) := by
  refine ⟨fun time => ?_, thenRounds_fair steps⟩
  rcases Nat.lt_or_ge time steps.length with early | late
  · have fine := comes.fine time early
    cases stepped : step config (hosts time) (thenRounds steps time) with
    | ok next => rw [comes.follows stepped]
    | error fault =>
      rw [stepped] at fine
      cases fine
  · obtain ⟨distance, rfl⟩ := Nat.exists_eq_add_of_le late
    rw [comes.rests distance, Nat.add_assoc, comes.rests (distance + 1)]
    exact comes.late_step late

end

theorem always {kept : Host → Prop} (comes : ComesToRest config steps hosts) {start : Nat}
    (early : ∀ time, start ≤ time → time ≤ steps.length → kept (hosts time))
    (before : start ≤ steps.length) : ∀ time ≥ start, kept (hosts time) := by
  intro time after
  rcases Nat.lt_or_ge time steps.length with soon | late
  · exact early time after (Nat.le_of_lt soon)
  · obtain ⟨distance, rfl⟩ := Nat.exists_eq_add_of_le late
    rw [comes.rests distance]
    exact early _ before (Nat.le_refl _)

end ComesToRest


end Mcc
