import Mcc.Buffer

/-!
The connection objects over the kernel's sockets and over those of mTCP: their state, their
descriptor in the poll loop, and their callbacks, which may send, close and reconnect.
-/

namespace Mcc.Connection

inductive State where
  | connecting
  | failed
  | connected
  | disconnect
  | closed
  deriving Repr, DecidableEq

inductive Kind where
  | posix
  | mtcp
  deriving Repr, DecidableEq

inductive WriteResult where
  | wrote (count : Nat)
  | error
  deriving Repr, DecidableEq

mutual

inductive Action where
  | sendPacket (data : List UInt8) (result : WriteResult) (onDisconnect : Script)
  | close (onClosed : Script)
  | reconnect

inductive Script where
  | done
  | next (action : Action) (rest : Script)

end

/-- `openFds` are the registered descriptors, `closes` counts how often that of the last `attach`
was closed, and `callbacks` the closed, disconnect and failed callbacks since then. The flags record
an `attach` over a descriptor, a `close` without effect, a second such callback, the use of a null
`pfd_`, and a copy of `output_` from memory given up. `passed` went to `send_packet`, `written` to
the socket. -/
structure Conn where
  kind : Kind
  state : State
  pfd : Option Nat
  wantRead : Bool
  wantWrite : Bool
  output : Buffer
  attaches : Nat
  openFds : List Nat
  closes : Nat
  callbacks : Nat
  attachedOver : Bool
  ignoredClose : Bool
  calledTwice : Bool
  crashed : Bool
  corrupt : Bool
  passed : List UInt8
  written : List UInt8

open Conn

namespace Conn

def attach (c : Conn) : Conn :=
  { c with
    state := .connecting
    attachedOver := c.attachedOver || c.pfd.isSome
    pfd := some c.attaches
    attaches := c.attaches + 1
    openFds := c.attaches :: c.openFds
    wantRead := true
    wantWrite := true
    closes := 0
    callbacks := 0 }

def create (kind : Kind) : Conn :=
  attach
    { kind
      state := .closed
      pfd := none
      wantRead := false
      wantWrite := false
      output := .empty
      attaches := 0
      openFds := []
      closes := 0
      callbacks := 0
      attachedOver := false
      ignoredClose := false
      calledTwice := false
      crashed := false
      corrupt := false
      passed := []
      written := [] }

def release (c : Conn) : Conn :=
  match c.pfd with
  | some fd => { c with pfd := none, openFds := c.openFds.erase fd, closes := c.closes + 1 }
  | none => { c with crashed := true }

def notify (c : Conn) : Conn :=
  { c with calledTwice := c.calledTwice || decide (0 < c.callbacks), callbacks := c.callbacks + 1 }

def cleanup (c : Conn) : Conn := c.release.notify

def mayClose (c : Conn) : Bool :=
  match c.kind with
  | .posix => !(c.state = .closed || c.state = .disconnect)
  | .mtcp => c.state = .connected

def close (c : Conn) : Conn :=
  if c.mayClose then { c with state := .closed }.release.notify
  else
    { c with
      ignoredClose := c.ignoredClose || c.state = .connecting || c.state = .connected }

/-- The socket takes the first bytes. If it takes none, a posix connection keeps all of them in
`output_`; `own` tells that they are those of `output_` themselves. -/
def take (c : Conn) (data : List UInt8) (own : Bool) (count : Nat) : Conn :=
  if 0 < min count data.length then { c with written := c.written ++ data.take count }
  else
    match c.kind with
    | .mtcp => c
    | .posix =>
      if own then
        match c.output.appendSelf with
        | some output => { c with output, wantWrite := true }
        | none => { c with corrupt := true, wantWrite := true }
      else { c with output := c.output.append data, wantWrite := true }

def sendError (c : Conn) : Conn :=
  match c.kind with
  | .posix => { c with state := .disconnect }.cleanup
  | .mtcp => { c with state := .disconnect }

def sends (c : Conn) (data : List UInt8) : Bool := c.state = .connected && !data.isEmpty

def send (c : Conn) (data : List UInt8) (own : Bool) (result : WriteResult) : Conn :=
  if c.pfd = none then { c with crashed := true }
  else
    match result with
    | .error => c.sendError
    | .wrote count =>
      let after := c.take data own count
      if data.length ≤ count then { after with wantRead := true } else after

end Conn

mutual

def Action.run (c : Conn) : Action → Conn
  | .sendPacket data result onDisconnect =>
    if c.sends data then
      let after := { c with passed := c.passed ++ data }.send data false result
      if result = .error && c.kind = .posix then onDisconnect.run after else after
    else c
  | .close onClosed => if c.mayClose then onClosed.run c.close else c.close
  | .reconnect => c.attach

def Script.run (c : Conn) : Script → Conn
  | .done => c
  | .next action rest => rest.run (action.run c)

end

inductive Handshake where
  | success (onConnected : Script)
  | failure (onFailed : Script)

inductive ReadResult where
  | data (onRecved : Script)
  | eof (onDisconnect : Script)
  | again (onMsg : Option Script)
  | error (onDisconnect : Script)

namespace Conn

def handleHandshake (c : Conn) : Handshake → Conn
  | .success onConnected => onConnected.run { c with state := .connected }
  | .failure onFailed => onFailed.run { c with state := .failed }.notify

def handleWrite (c : Conn) (handshake : Handshake) (result : WriteResult) (onDisconnect : Script) :
    Conn :=
  if c.state = .connecting then c.handleHandshake handshake
  else if c.sends c.output.bytes then
    let after := c.send c.output.bytes true result
    if result = .error && c.kind = .posix then onDisconnect.run after else after
  else c

/-- The loop of `handle_read`. A posix connection does not leave its state on an error, and an mTCP
connection asks for more when there is nothing to read. -/
def readLoop (c : Conn) : List ReadResult → Conn
  | [] => c
  | result :: rest =>
    if c.state = .connected then
      match result with
      | .data onRecved => (onRecved.run { c with wantRead := true }).readLoop rest
      | .eof onDisconnect => onDisconnect.run { c with state := .disconnect }.cleanup
      | .again (some onMsg) => onMsg.run c
      | .again none =>
        match c.kind with
        | .posix => c
        | .mtcp => { c with wantRead := true }
      | .error onDisconnect =>
        match c.kind with
        | .posix => onDisconnect.run c.cleanup
        | .mtcp => onDisconnect.run { c with state := .disconnect }.cleanup
    else c

def handleRead (c : Conn) (handshake : Handshake) (reads : List ReadResult) : Conn :=
  if c.state = .connecting then
    match handshake with
    | .success _ => c.handleHandshake handshake
    | .failure _ =>
      let after := c.handleHandshake handshake
      if after.pfd = none then { after with crashed := true } else after.readLoop reads
  else if c.pfd = none then { c with crashed := true }
  else c.readLoop reads

def registered (c : Conn) : Bool :=
  match c.pfd with
  | some fd => c.openFds.contains fd
  | none => false

end Conn

inductive Event where
  | call (action : Action)
  | writable (handshake : Handshake) (result : WriteResult) (onDisconnect : Script)
  | readable (handshake : Handshake) (reads : List ReadResult)

def step (c : Conn) : Event → Conn
  | .call action => action.run c
  | .writable handshake result onDisconnect =>
    if c.registered && c.wantWrite then
      { c with wantWrite := false }.handleWrite handshake result onDisconnect
    else c
  | .readable handshake reads =>
    if c.registered && c.wantRead then { c with wantRead := false }.handleRead handshake reads
    else c

def run (c : Conn) (events : List Event) : Conn := events.foldl step c

structure Tidy (c : Conn) : Prop where
  live : c.state = .connecting ∨ c.state = .connected →
    (∃ fd, c.pfd = some fd ∧ fd ∈ c.openFds) ∧ c.closes = 0 ∧ c.callbacks = 0
  finished : c.state = .closed ∨ c.state = .disconnect ∨ c.state = .failed → c.pfd = none ∧ c.closes = 1
  attachedOver : c.attachedOver = false
  ignoredClose : c.ignoredClose = false
  calledTwice : c.calledTwice = false
  crashed : c.crashed = false

structure Sound (c : Conn) : Prop extends Tidy c where
  unfailed : c.state ≠ .failed

theorem create_sound (kind : Kind) : Sound (.create kind) :=
  ⟨⟨fun _ => ⟨⟨0, rfl, List.mem_singleton_self 0⟩, rfl, rfl⟩, nofun, rfl, rfl, rfl, rfl⟩, nofun⟩

mutual

/-- The calls that do no harm: no reconnect of a connection that is in use, no close of an mTCP
connection that is connecting, and no write error there. -/
def Action.Allowed (c : Conn) : Action → Prop
  | .sendPacket data result onDisconnect =>
    c.sends data → (c.kind = .mtcp → result ≠ .error) ∧
      (result = .error →
        onDisconnect.Allowed ({ c with passed := c.passed ++ data }.send data false result))
  | .close onClosed =>
    (c.kind = .mtcp → c.state ≠ .connecting) ∧ (c.mayClose → onClosed.Allowed c.close)
  | .reconnect => c.state = .closed ∨ c.state = .disconnect

def Script.Allowed (c : Conn) : Script → Prop
  | .done => True
  | .next action rest => action.Allowed c ∧ rest.Allowed (action.run c)

end

theorem attach_sound {c} (sound : Sound c) (finished : c.state = .closed ∨ c.state = .disconnect) :
    Sound c.attach := by
  have free := (sound.finished (finished.imp_right .inl)).1
  refine ⟨⟨fun _ => ⟨⟨_, rfl, List.mem_cons_self ..⟩, rfl, rfl⟩, nofun, ?_, sound.ignoredClose,
    sound.calledTwice, sound.crashed⟩, nofun⟩
  simp [attach, sound.attachedOver, free]

theorem cleanup_sound {c} (sound : Sound c) (live : c.state = .connecting ∨ c.state = .connected) {state}
    (finished : state = .closed ∨ state = .disconnect) : Sound { c with state }.cleanup := by
  obtain ⟨⟨fd, is, -⟩, closes, callbacks⟩ := sound.live live
  have shape : { c with state }.cleanup = { c with
      state, pfd := none, openFds := c.openFds.erase fd, closes := c.closes + 1,
      calledTwice := c.calledTwice || decide (0 < c.callbacks), callbacks := c.callbacks + 1 } := by
    rw [cleanup, release, is]
    rfl
  rw [shape]
  refine ⟨⟨fun again => ?_, fun _ => ⟨rfl, by rw [closes]⟩, sound.attachedOver, sound.ignoredClose,
    ?_, sound.crashed⟩, ?_⟩
  · rcases finished with rfl | rfl <;> simp at again
  · simp [sound.calledTwice, callbacks]
  · rcases finished with rfl | rfl <;> nofun

theorem close_sound {c} (sound : Sound c)
    (allowed : c.kind = .mtcp → c.state ≠ .connecting) : Sound c.close := by
  have unfailed := sound.unfailed
  unfold close
  split
  · rename_i mayClose
    have live : c.state = .connecting ∨ c.state = .connected := by
      unfold Conn.mayClose at mayClose
      cases kind : c.kind <;> cases state : c.state <;> simp_all
    exact cleanup_sound sound live (.inl rfl)
  · rename_i ignored
    have finished : ¬(c.state = .connecting ∨ c.state = .connected) := by
      unfold Conn.mayClose at ignored
      cases kind : c.kind <;> cases state : c.state <;> simp_all
    refine { sound with ignoredClose := ?_ }
    simpa [sound.ignoredClose] using finished

theorem take_sound {c} (sound : Sound c) (data : List UInt8) (own : Bool) (count : Nat) :
    Sound (c.take data own count) := by
  unfold take
  split
  · exact { sound with }
  · split
    · exact sound
    · split
      · split <;> exact { sound with }
      · exact { sound with }

theorem send_sound {c} (sound : Sound c) (connected : c.state = .connected)
    (data : List UInt8) (own : Bool) {result}
    (allowed : c.kind = .mtcp → result ≠ .error) : Sound (c.send data own result) := by
  obtain ⟨⟨fd, is, -⟩, -⟩ := sound.live (.inr connected)
  unfold send
  rw [if_neg (by rw [is]; nofun)]
  cases result with
  | error =>
    dsimp only
    unfold sendError
    split
    · exact cleanup_sound sound (.inr connected) (.inr rfl)
    · rename_i mtcp
      exact absurd rfl (allowed mtcp)
  | wrote count =>
    have taken := take_sound sound data own count
    dsimp only
    split
    · exact { taken with }
    · exact taken

theorem sends_connected {c : Conn} {data : List UInt8} (sends : c.sends data) : c.state = .connected := by
  unfold Conn.sends at sends
  simp at sends
  exact sends.1

mutual

theorem Action.run_sound {c : Conn} (sound : Sound c) :
    ∀ action : Action, action.Allowed c → Sound (action.run c)
  | .sendPacket data result onDisconnect, allowed => by
      rw [Action.run]
      split
      · rename_i sends
        rw [Action.Allowed] at allowed
        obtain ⟨harmless, nested⟩ := allowed sends
        have before : Sound { c with passed := c.passed ++ data } :=
          { sound with }
        have sent := send_sound before (sends_connected sends) data false harmless
        dsimp only
        split
        · rename_i called
          rw [Bool.and_eq_true, decide_eq_true_eq] at called
          exact Script.run_sound sent onDisconnect (nested called.1)
        · exact sent
      · exact sound
  | .close onClosed, allowed => by
      rw [Action.Allowed] at allowed
      rw [Action.run]
      have closed := close_sound sound allowed.1
      split
      · rename_i mayClose
        exact Script.run_sound closed onClosed (allowed.2 mayClose)
      · exact closed
  | .reconnect, allowed => by
      rw [Action.Allowed] at allowed
      rw [Action.run]
      exact attach_sound sound allowed

theorem Script.run_sound {c} (sound : Sound c) :
    ∀ script : Script, script.Allowed c → Sound (script.run c)
  | .done, _ => by
      rw [Script.run]
      exact sound
  | .next action rest, allowed => by
      rw [Script.Allowed] at allowed
      rw [Script.run]
      exact Script.run_sound (Action.run_sound sound action allowed.1) rest allowed.2

end

def Handshake.Allowed (c : Conn) : Handshake → Prop
  | .success onConnected => onConnected.Allowed { c with state := .connected }
  | .failure _ => False

theorem handleHandshake_sound {c} (sound : Sound c) (connecting : c.state = .connecting)
    {handshake} (allowed : handshake.Allowed c) : Sound (c.handleHandshake handshake) := by
  cases handshake with
  | success onConnected =>
    have connected : Sound { c with state := .connected } :=
      { sound with live := fun _ => sound.live (.inl connecting), finished := nofun, unfailed := nofun }
    exact Script.run_sound connected onConnected allowed
  | failure onFailed => exact allowed.elim

def AllowedReads (c : Conn) : List ReadResult → Prop
  | [] => True
  | result :: rest => c.state = .connected → match result with
      | .data onRecved =>
        onRecved.Allowed { c with wantRead := true } ∧
          AllowedReads (onRecved.run { c with wantRead := true }) rest
      | .eof onDisconnect => onDisconnect.Allowed { c with state := .disconnect }.cleanup
      | .again none => True
      | .again (some onMsg) => onMsg.Allowed c
      | .error onDisconnect =>
        c.kind = .mtcp ∧ onDisconnect.Allowed { c with state := .disconnect }.cleanup

theorem readLoop_sound (reads : List ReadResult) :
    ∀ {c}, Sound c → AllowedReads c reads → Sound (c.readLoop reads) := by
  induction reads with
  | nil => exact fun sound _ => sound
  | cons result rest ih =>
    intro c sound allowed
    unfold readLoop
    split
    · rename_i connected
      have allowed := allowed connected
      have gone := cleanup_sound sound (.inr connected) (.inr (rfl : State.disconnect = .disconnect))
      cases result with
      | data onRecved =>
        have asked : Sound { c with wantRead := true } :=
          { sound with }
        exact ih (Script.run_sound asked onRecved allowed.1) allowed.2
      | eof onDisconnect => exact Script.run_sound gone onDisconnect allowed
      | again onMsg =>
        cases onMsg with
        | none =>
          dsimp only
          split
          · exact sound
          · exact { sound with }
        | some onMsg => exact Script.run_sound sound onMsg allowed
      | error onDisconnect =>
        dsimp only
        split
        · rename_i posix
          cases posix.symm.trans allowed.1
        · exact Script.run_sound gone onDisconnect allowed.2
    · exact sound

def Event.Allowed (c : Conn) : Event → Prop
  | .call action => action.Allowed c
  | .writable handshake result onDisconnect =>
    if c.state = .connecting then handshake.Allowed { c with wantWrite := false }
    else c.sends c.output.bytes → (c.kind = .mtcp → result ≠ .error) ∧ (result = .error →
      onDisconnect.Allowed ({ c with wantWrite := false }.send c.output.bytes true result))
  | .readable handshake reads =>
    if c.state = .connecting then handshake.Allowed { c with wantRead := false }
    else AllowedReads { c with wantRead := false } reads

theorem handleWrite_sound {c : Conn} (sound : Sound c) {handshake : Handshake}
    {result : WriteResult} {onDisconnect : Script}
    (connecting : c.state = .connecting → handshake.Allowed c)
    (flushing : c.state ≠ .connecting → c.sends c.output.bytes →
      (c.kind = .mtcp → result ≠ .error) ∧
        (result = .error → onDisconnect.Allowed (c.send c.output.bytes true result))) :
    Sound (c.handleWrite handshake result onDisconnect) := by
  unfold handleWrite
  split
  · rename_i state
    exact handleHandshake_sound sound state (connecting state)
  · rename_i state
    split
    · rename_i sends
      obtain ⟨harmless, nested⟩ := flushing state sends
      have sent := send_sound sound (sends_connected sends) c.output.bytes true harmless
      dsimp only
      split
      · rename_i called
        rw [Bool.and_eq_true, decide_eq_true_eq] at called
        exact Script.run_sound sent onDisconnect (nested called.1)
      · exact sent
    · exact sound

theorem handleRead_sound {c} (sound : Sound c) (registered : c.pfd ≠ none) {handshake reads}
    (connecting : c.state = .connecting → handshake.Allowed c)
    (reading : c.state ≠ .connecting → AllowedReads c reads) : Sound (c.handleRead handshake reads) := by
  unfold handleRead
  split
  · rename_i state
    have allowed := connecting state
    cases handshake with
    | success onConnected => exact handleHandshake_sound sound state allowed
    | failure onFailed => exact allowed.elim
  · rename_i state
    exact readLoop_sound reads sound (reading state)

theorem step_sound {c} (sound : Sound c) {event} (allowed : event.Allowed c) : Sound (step c event) := by
  cases event with
  | call action => exact Action.run_sound sound action allowed
  | writable handshake result onDisconnect =>
    rw [step]
    split
    · have taken : Sound { c with wantWrite := false } :=
        { sound with }
      refine handleWrite_sound taken (fun connecting => ?_) (fun other => ?_)
      · rw [Event.Allowed, if_pos connecting] at allowed
        exact allowed
      · rw [Event.Allowed, if_neg other] at allowed
        exact allowed
    · exact sound
  | readable handshake reads =>
    rw [step]
    split
    · rename_i asked
      have taken : Sound { c with wantRead := false } :=
        { sound with }
      refine handleRead_sound taken ?_ (fun connecting => ?_) (fun other => ?_)
      · intro same
        have free : c.pfd = none := same
        simp [registered, free] at asked
      · rw [Event.Allowed, if_pos connecting] at allowed
        exact allowed
      · rw [Event.Allowed, if_neg other] at allowed
        exact allowed
    · exact sound

def AllowedRun (c : Conn) : List Event → Prop
  | [] => True
  | event :: rest => event.Allowed c ∧ AllowedRun (step c event) rest

theorem run_sound (events : List Event) :
    ∀ {c}, Sound c → AllowedRun c events → Sound (run c events) := by
  induction events with
  | nil => exact fun sound _ => sound
  | cons event rest ih => exact fun sound allowed => ih (step_sound sound allowed.1) allowed.2

/-- A connection stays tidy in every run without the events and calls that its code mishandles. -/
theorem connection_consistent (kind : Kind) (events : List Event)
    (allowed : AllowedRun (.create kind) events) : Tidy (run (.create kind) events) :=
  (run_sound events (create_sound kind) allowed).toTidy

theorem reconnect_after_eof_tidy :
    Tidy (run (.create .mtcp) [.writable (.success .done) .error .done,
      .readable (.success .done) [.data (.next (.sendPacket [1] (.wrote 1) .done) .done),
        .eof (.next .reconnect .done)]]) := by
  refine connection_consistent .mtcp _ ⟨?_, ?_, trivial⟩
  · simp [Event.Allowed, Handshake.Allowed, Script.Allowed, Conn.create, Conn.attach]
  · simp [Event.Allowed, AllowedReads, Script.Allowed, Action.Allowed, Script.run, Action.run, step,
      Conn.create, Conn.attach, Conn.registered, Conn.handleWrite, Conn.handleHandshake, Conn.sends,
      Conn.send, Conn.take, Conn.cleanup, Conn.release, Conn.notify]

/-- A handshake that fails, a read error and a reconnect while in use (posix); a close while
connecting and a write error (mTCP). -/
theorem connection_inconsistent :
    (let c := run (.create .posix) [.writable (.failure .done) .error .done];
      c.state = .failed ∧ c.closes = 0 ∧ c.pfd ≠ none) ∧
    (let c := run (.create .posix) [.writable (.success .done) .error .done,
        .readable (.success .done) [.error .done]];
      c.state = .connected ∧ c.pfd = none) ∧
    (run (.create .posix) [.call .reconnect]).attachedOver = true ∧
    (let c := run (.create .mtcp) [.call (.close .done)];
      c.state = .connecting ∧ c.ignoredClose = true) ∧
    (let c := run (.create .mtcp) [.writable (.success .done) .error .done,
        .call (.sendPacket [1] .error .done)];
      c.state = .disconnect ∧ c.closes = 0 ∧ c.pfd ≠ none) := by
  decide

end Mcc.Connection
