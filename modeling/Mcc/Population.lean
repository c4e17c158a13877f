import Mcc.Connection

/-!
The connections of one core of the WAN loader. `nr_connected` is incremented with every new connection
and decremented by the closed and the disconnect callback, and a periodic task opens connections until
it is `conn_per_core_` again. There is no failed callback.
-/

namespace Mcc.Population

open Mcc.Connection (Kind State)

structure Member where
  state : State
  attached : Bool
  listed : Bool
  nrInteract : UInt32
  deriving Repr, DecidableEq

open Member

/-- How the reads of one call of `handle_read` end: with the end of the stream, an error, nothing,
or a message; `fails` tells that the request sent in answer meets an error. -/
inductive ReadEnd where
  | eof
  | error
  | nothing
  | message (fails : Bool)
  deriving Repr, DecidableEq

inductive Happening where
  | handshake (succeeds fails : Bool)
  | read (ended : ReadEnd)
  | write (fails : Bool)
  deriving Repr, DecidableEq

namespace Member

abbrev Reaction := Member × Bool

def cleanup (m : Member) : Reaction := ({ m with attached := false, listed := false }, true)

def close (m : Member) : Reaction := { m with state := .closed }.cleanup

def sendError (kind : Kind) (m : Member) : Reaction :=
  match kind with
  | .posix => { m with state := .disconnect }.cleanup
  | .mtcp => ({ m with state := .disconnect }, false)

def send (kind : Kind) (m : Member) (fails : Bool) : Reaction :=
  if fails then m.sendError kind else (m, false)

def doReq (kind : Kind) (m : Member) (fails : Bool) : Reaction :=
  let sent := m.send kind fails
  ({ sent.1 with nrInteract := sent.1.nrInteract - 1 }, sent.2)

def onMessage (kind : Kind) (m : Member) (fails : Bool) : Reaction :=
  if m.nrInteract > 0 then m.doReq kind fails else m.close

def handleHandshake (kind : Kind) (times : UInt32) (m : Member) (succeeds fails : Bool) : Reaction :=
  if succeeds then { m with state := .connected, nrInteract := times }.doReq kind fails
  else ({ m with state := .failed }, false)

def readError (kind : Kind) (m : Member) : Reaction :=
  match kind with
  | .posix => m.cleanup
  | .mtcp => { m with state := .disconnect }.cleanup

def handleRead (kind : Kind) (m : Member) : ReadEnd → Reaction
  | .eof => { m with state := .disconnect }.cleanup
  | .error => m.readError kind
  | .nothing => (m, false)
  | .message fails => m.onMessage kind fails

def handleWrite (kind : Kind) (m : Member) (fails : Bool) : Reaction :=
  match kind with
  | .posix => m.send .posix fails
  | .mtcp => (m, false)

def react (kind : Kind) (times : UInt32) (m : Member) : Happening → Reaction
  | .handshake succeeds fails =>
    if m.state = .connecting then m.handleHandshake kind times succeeds fails else (m, false)
  | .read ended => if m.state = .connected then m.handleRead kind ended else (m, false)
  | .write fails => if m.state = .connected then m.handleWrite kind fails else (m, false)

def live (m : Member) : Bool := m.state = .connecting || m.state = .connected

end Member

structure Core where
  kind : Kind
  connPerCore : UInt32
  nrInteractT : UInt32
  members : List Member
  nrConnected : UInt32
  underflowed : Bool
  deriving Repr, DecidableEq

open Population.Core

namespace Core

def connect (c : Core) : Core :=
  { c with
    members := c.members ++ [{ state := .connecting, attached := true, listed := true, nrInteract := 0 }]
    nrConnected := c.nrConnected + 1 }

def connectMore : Nat → Core → Core
  | 0, c => c
  | more + 1, c => connectMore more c.connect

def empty (kind : Kind) (connPerCore nrInteractT : UInt32) : Core where
  kind := kind
  connPerCore := connPerCore
  nrInteractT := nrInteractT
  members := []
  nrConnected := 0
  underflowed := false

def running (kind : Kind) (connPerCore nrInteractT : UInt32) : Core :=
  connectMore connPerCore.toNat (.empty kind connPerCore nrInteractT)

def reconnecting (c : Core) : Core :=
  connectMore (c.connPerCore.toNat - c.nrConnected.toNat) c

def lose (c : Core) : Core :=
  { c with
    nrConnected := c.nrConnected - 1
    underflowed := c.underflowed || c.nrConnected = 0 }

def settle (c : Core) (con : Nat) (reaction : Member.Reaction) : Core :=
  let c := { c with members := c.members.set con reaction.1 }
  if reaction.2 then c.lose else c

end Core

inductive Step where
  | reconnecting
  | event (con : Nat) (happening : Happening)
  deriving Repr, DecidableEq

def Core.step (c : Core) : Step → Core
  | .reconnecting => c.reconnecting
  | .event con happening =>
    match c.members[con]? with
    | some m => if m.attached then c.settle con (m.react c.kind c.nrInteractT happening) else c
    | none => c

def Core.run (c : Core) (steps : List Step) : Core := steps.foldl Core.step c

def Core.account (c : Core) : UInt32 × Nat := (c.nrConnected, c.members.countP Member.live)

structure Right (c : Core) : Prop where
  counted : c.nrConnected.toNat = c.members.countP Member.live
  noUnderflow : c.underflowed = false
  listed : ∀ m ∈ c.members, m.listed = m.live

def Kept (c : Core) : List Step → Prop
  | [] => Right c
  | step :: rest => Right c ∧ (step = .reconnecting → (c.step step).nrConnected = c.connPerCore) ∧
      Kept (c.step step) rest

/-- No connection fails to connect, no read of a posix connection and no write of an mTCP connection
meets an error. -/
def Happening.Proper (kind : Kind) (m : Member) : Happening → Prop
  | .handshake succeeds fails => m.state = .connecting → succeeds = true ∧ (kind = .mtcp → fails = false)
  | .read ended => m.state = .connected →
      (kind = .posix → ended ≠ .error) ∧ (kind = .mtcp → m.nrInteract > 0 → ended ≠ .message true)
  | .write _ => True

def Step.Proper (c : Core) : Step → Prop
  | .reconnecting => True
  | .event con happening => ∀ m, c.members[con]? = some m → m.attached = true → happening.Proper c.kind m

def ProperRun (c : Core) : List Step → Prop
  | [] => True
  | step :: rest => step.Proper c ∧ ProperRun (c.step step) rest

variable {m : Member}

theorem react_called {kind times happening}
    (called : (m.react kind times happening).2 = true) : m.live = true := by
  cases happening <;> simp only [react] at called <;> split at called <;>
    simp_all [live]

theorem react_balanced (kind : Kind) (times : UInt32) (m : Member) (happening : Happening) :
    happening.Proper kind m ↔
      m.live.toNat = (m.react kind times happening).1.live.toNat +
        (m.react kind times happening).2.toNat := by
  cases happening with
  | handshake succeeds fails =>
    by_cases connecting : m.state = .connecting
    · cases succeeds <;> cases fails <;> cases kind <;>
        simp [Happening.Proper, react, handleHandshake, doReq, send,
          sendError, cleanup, live, connecting]
    · simp [Happening.Proper, react, connecting]
  | read ended =>
    by_cases connected : m.state = .connected
    · cases ended with
      | eof => simp [Happening.Proper, react, handleRead, cleanup, live, connected]
      | nothing => simp [Happening.Proper, react, handleRead, live, connected]
      | error =>
        cases kind <;> simp [Happening.Proper, react, handleRead, readError, cleanup, live, connected]
      | message fails =>
        by_cases more : m.nrInteract > 0 <;> cases fails <;> cases kind <;>
          simp [Happening.Proper, react, handleRead, onMessage, doReq,
            send, sendError, close, cleanup, live, connected,
            more]
    · simp [Happening.Proper, react, connected]
  | write fails =>
    by_cases connected : m.state = .connected
    · cases fails <;> cases kind <;>
        simp [Happening.Proper, react, handleWrite, send, sendError, cleanup, live, connected]
    · simp [Happening.Proper, react, connected]

@[simp]
theorem send_listed (kind : Kind) (m : Member) (fails : Bool) :
    (m.send kind fails).1.listed = (m.listed && !(m.send kind fails).2) := by
  cases fails <;> cases kind <;> simp [send, sendError, cleanup]

theorem react_listed (kind : Kind) (times : UInt32) (happening : Happening) :
    (m.react kind times happening).1.listed = (m.listed && !(m.react kind times happening).2) := by
  cases happening <;> rw [react] <;> split
  case handshake.isTrue =>
    rw [handleHandshake]
    split <;> simp [doReq]
  case read.isTrue ended _ =>
    cases ended with
    | message =>
      rw [handleRead, onMessage]
      split <;> simp [doReq, close, cleanup]
    | _ => cases kind <;> simp [handleRead, readError, cleanup]
  case write.isTrue => cases kind <;> simp [handleWrite]
  all_goals simp

@[simp] theorem settle_members (c : Core) (con : Nat) (reaction : Reaction) :
    (c.settle con reaction).members = c.members.set con reaction.1 := by
  simp only [settle]
  split <;> rfl

@[simp] theorem settle_connPerCore (c : Core) (con : Nat) (reaction : Reaction) :
    (c.settle con reaction).connPerCore = c.connPerCore := by
  simp only [settle]
  split <;> rfl

variable {c : Core}

theorem settle_nrConnected (right : Right c) {con} (member : c.members[con]? = some m)
    (reaction : Reaction) (called : reaction.2 = true → m.live = true) :
    (c.settle con reaction).nrConnected.toNat + reaction.2.toNat = c.nrConnected.toNat ∧
      (c.settle con reaction).underflowed = false := by
  cases calls : reaction.2 with
  | false => simp [settle, calls, right.noUnderflow]
  | true =>
    have positive : 0 < c.nrConnected.toNat := by
      rw [right.counted, List.countP_pos_iff]
      exact ⟨m, List.mem_of_getElem? member, called calls⟩
    have one : (1 : UInt32) ≤ c.nrConnected := by
      rw [UInt32.le_iff_toNat_le]
      exact positive
    have nonzero : c.nrConnected ≠ 0 := by
      rintro zero
      rw [zero] at positive
      exact Nat.lt_irrefl 0 positive
    constructor
    · simp only [settle, calls, if_true, lose, UInt32.toNat_sub_of_le _ _ one, Bool.toNat_true]
      exact Nat.sub_add_cancel positive
    · simp [settle, calls, lose, right.noUnderflow, nonzero]

theorem settle_live {con} (member : c.members[con]? = some m) (reaction : Reaction) :
    (c.settle con reaction).members.countP Member.live + m.live.toNat =
      c.members.countP Member.live + reaction.1.live.toNat := by
  obtain ⟨inside, isMember⟩ := List.getElem?_eq_some_iff.mp member
  rw [settle_members, List.countP_set inside, isMember]
  have positive : m.live = true → 0 < c.members.countP Member.live := fun live =>
    List.countP_pos_iff.mpr ⟨m, List.mem_of_getElem? member, live⟩
  cases live : m.live <;> cases reaction.1.live <;> simp
  all_goals
    have := positive live
    omega

theorem settle_right_iff (right : Right c) {con} (member : c.members[con]? = some m)
    (happening : Happening) :
    Right (c.settle con (m.react c.kind c.nrInteractT happening)) ↔ happening.Proper c.kind m := by
  obtain ⟨reaction, isReaction⟩ : ∃ reaction, reaction = m.react c.kind c.nrInteractT happening :=
    ⟨_, rfl⟩
  have balanced := react_balanced c.kind c.nrInteractT m happening
  rw [← isReaction] at balanced ⊢
  have called : reaction.2 = true → m.live = true := by
    rw [isReaction]
    exact react_called
  obtain ⟨counter, noUnderflow⟩ := settle_nrConnected right member reaction called
  have live := settle_live member reaction
  have before := right.counted
  constructor
  · intro after
    have counted := after.counted
    exact balanced.mpr (by omega)
  · intro proper
    have even := balanced.mp proper
    refine ⟨by omega, noUnderflow, ?_⟩
    intro other among
    rw [settle_members] at among
    rcases List.mem_or_eq_of_mem_set among with old | rfl
    · exact right.listed other old
    · have unlisted := react_listed (m := m) c.kind c.nrInteractT happening
      rw [← isReaction, right.listed m (List.mem_of_getElem? member)] at unlisted
      rw [unlisted]
      revert even
      cases m.live <;> cases reaction.1.live <;> cases reaction.2 <;> simp

theorem connect_counts (room : c.nrConnected < c.connPerCore) :
    c.connect.nrConnected.toNat = c.nrConnected.toNat + 1 := by
  have room := UInt32.lt_iff_toNat_lt.mp room
  have bound := c.connPerCore.toNat_lt
  simp only [connect, UInt32.toNat_add]
  exact Nat.mod_eq_of_lt (by simp; omega)

theorem connect_right (right : Right c) (room : c.nrConnected < c.connPerCore) :
    Right c.connect ∧ c.connect.nrConnected.toNat = c.nrConnected.toNat + 1 := by
  have more := connect_counts room
  refine ⟨⟨?_, right.noUnderflow, ?_⟩, more⟩
  · rw [more, right.counted]
    simp [connect, live]
  · intro m among
    rcases List.mem_append.mp among with old | new
    · exact right.listed m old
    · rw [List.mem_singleton.mp new]
      rfl

theorem connectMore_right (more : Nat) (right : Right c)
    (room : c.nrConnected.toNat + more ≤ c.connPerCore.toNat) :
    Right (connectMore more c) ∧
      (connectMore more c).nrConnected.toNat = c.nrConnected.toNat + more ∧
        (connectMore more c).connPerCore = c.connPerCore := by
  induction more generalizing c with
  | zero => exact ⟨right, rfl, rfl⟩
  | succ more ih =>
    obtain ⟨next, counter⟩ := connect_right right (UInt32.lt_iff_toNat_lt.mpr (by omega))
    have := ih next (by
      rw [counter]
      change _ ≤ c.connPerCore.toNat
      omega)
    refine ⟨this.1, ?_, this.2.2⟩
    rw [connectMore, this.2.1, counter]
    omega

theorem reconnecting_loop (c : Core) :
    c.reconnecting = if c.nrConnected < c.connPerCore then c.connect.reconnecting else c := by
  split
  · rename_i room
    have more := connect_counts room
    rw [UInt32.lt_iff_toNat_lt] at room
    have count : c.connPerCore.toNat - c.nrConnected.toNat =
        (c.connPerCore.toNat - c.connect.nrConnected.toNat) + 1 := by omega
    rw [reconnecting, count]
    rfl
  · rename_i full
    rw [UInt32.lt_iff_toNat_lt] at full
    rw [reconnecting, Nat.sub_eq_zero_of_le (by omega)]
    rfl

theorem reconnecting_right (right : Right c) (bounded : c.nrConnected ≤ c.connPerCore) :
    Right c.reconnecting ∧ c.reconnecting.nrConnected = c.connPerCore ∧
      c.reconnecting.connPerCore = c.connPerCore := by
  have bounded := UInt32.le_iff_toNat_le.mp bounded
  obtain ⟨after, counter, same⟩ :=
    connectMore_right (c.connPerCore.toNat - c.nrConnected.toNat) right (by omega)
  refine ⟨after, ?_, same⟩
  rw [← UInt32.toNat_inj]
  simp only [reconnecting]
  omega

theorem running_right (kind : Kind) (connPerCore nrInteractT : UInt32) :
    Right (running kind connPerCore nrInteractT) ∧
      (running kind connPerCore nrInteractT).nrConnected =
        (running kind connPerCore nrInteractT).connPerCore := by
  have nothing : Right (.empty kind connPerCore nrInteractT) := ⟨rfl, rfl, nofun⟩
  obtain ⟨after, counter, same⟩ :=
    connectMore_right connPerCore.toNat nothing (by simp [empty])
  refine ⟨after, ?_⟩
  rw [← UInt32.toNat_inj, running, same, counter]
  simp [empty]

theorem event_bounded (right : Right c) (bounded : c.nrConnected ≤ c.connPerCore) (con : Nat)
    (happening : Happening) :
    (c.step (.event con happening)).nrConnected ≤ (c.step (.event con happening)).connPerCore := by
  simp only [Core.step]
  split
  · rename_i m member
    split
    · have counter := (settle_nrConnected right member (m.react c.kind c.nrInteractT happening)
        react_called).1
      rw [settle_connPerCore, UInt32.le_iff_toNat_le]
      have := UInt32.le_iff_toNat_le.mp bounded
      omega
    · exact bounded
  · exact bounded

theorem event_right_iff (right : Right c) (con : Nat) (happening : Happening) :
    Right (c.step (.event con happening)) ↔ (Step.event con happening).Proper c := by
  simp only [Core.step, Step.Proper]
  cases member : c.members[con]? with
  | none => simpa using right
  | some m =>
    by_cases attached : m.attached = true
    · simpa [attached] using settle_right_iff right member happening
    · simpa [attached] using right

theorem kept_iff (right : Right c) (bounded : c.nrConnected ≤ c.connPerCore) (steps : List Step) :
    Kept c steps ↔ ProperRun c steps := by
  induction steps generalizing c with
  | nil => simpa [Kept, ProperRun] using right
  | cons step rest ih =>
    cases step with
    | reconnecting =>
      obtain ⟨after, restored, same⟩ := reconnecting_right right bounded
      have next := @ih (c.step .reconnecting) after (by
        change c.reconnecting.nrConnected ≤ c.reconnecting.connPerCore
        rw [restored, same]
        exact UInt32.le_refl _)
      simp only [Kept, ProperRun, Step.Proper, true_and, next]
      exact ⟨fun kept => kept.2.2, fun proper => ⟨right, fun _ => restored, proper⟩⟩
    | event con happening =>
      have iff := event_right_iff right con happening
      have bounded := event_bounded right bounded con happening
      have kept_right (kept : Kept (c.step (.event con happening)) rest) :
          Right (c.step (.event con happening)) := by
        cases rest with
        | nil => exact kept
        | cons _ _ => exact kept.1
      simp only [Kept, ProperRun]
      constructor
      · rintro ⟨_, _, kept⟩
        have after := kept_right kept
        exact ⟨iff.mp after, (ih after bounded).mp kept⟩
      · rintro ⟨proper, properRest⟩
        exact ⟨right, nofun, (ih (iff.mpr proper) bounded).mpr properRest⟩

theorem population_kept_iff (kind : Kind) (connPerCore nrInteractT : UInt32) (steps : List Step) :
    Kept (Core.running kind connPerCore nrInteractT) steps ↔
      ProperRun (Core.running kind connPerCore nrInteractT) steps := by
  obtain ⟨right, full⟩ := running_right kind connPerCore nrInteractT
  exact kept_iff right (full ▸ UInt32.le_refl _) steps

theorem population_drifts :
    ((Core.running .posix 1 1).run [.event 0 (.handshake false false), .reconnecting]).account = (1, 0) ∧
    ((Core.running .posix 1 2).run [.event 0 (.handshake true false), .event 0 (.read .error),
      .reconnecting]).account = (1, 2) ∧
    ((Core.running .mtcp 1 1).run [.event 0 (.handshake true true), .reconnecting]).account = (1, 0) := by
  decide +kernel

end Mcc.Population
