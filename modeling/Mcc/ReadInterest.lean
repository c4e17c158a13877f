import Mcc.Connection

/-!
The request for readability. Delivering the event takes the request back, so a connection that stays
connected has to renew it, or what the peer sends later is never noticed. Some ways through
`handle_read` leave that to the callbacks of the application.
-/

namespace Mcc.Connection

mutual

/-- Whether a call asks for readability again: a packet that is taken whole, or an `attach`, also in
a callback. -/
def Action.renews (c : Conn) : Action → Bool
  | .sendPacket data result onDisconnect =>
    c.sends data &&
      match result with
      | .wrote count => c.pfd.isSome && decide (data.length ≤ count)
      | .error => decide (c.kind = .posix) &&
          onDisconnect.renews ({ c with passed := c.passed ++ data }.send data false .error)
  | .close onClosed => c.mayClose && onClosed.renews c.close
  | .reconnect => true

def Script.renews (c : Conn) : Script → Bool
  | .done => false
  | .next action rest => action.renews c || rest.renews (action.run c)

end

open Script

def Conn.Live (c : Conn) : Prop := c.state = .connecting ∨ c.state = .connected

open Conn

def Attached (c : Conn) : Prop := c.Live → c.registered = true

structure Changes (c after : Conn) (renews : Bool) : Prop where
  kind : after.kind = c.kind
  connected : after.state = .connected → c.state = .connected
  live : after.Live → c.Live ∨ after.wantRead = true
  attached : Attached c → Attached after
  wantRead : after.wantRead = (c.wantRead || renews)

variable {c after : Conn}

theorem Changes.trans {middle : Conn} {first second : Bool} (one : Changes c middle first)
    (two : Changes middle after second) : Changes c after (first || second) where
  kind := two.kind.trans one.kind
  connected now := one.connected (two.connected now)
  live isLive := by
    rcases two.live isLive with before | asks
    · rcases one.live before with first | asks
      · exact .inl first
      · exact .inr (by rw [two.wantRead, asks, Bool.true_or])
    · exact .inr asks
  attached before := two.attached (one.attached before)
  wantRead := by rw [two.wantRead, one.wantRead, Bool.or_assoc]

def Asking (c : Conn) : Prop := c.Live → c.registered = true ∧ c.wantRead = true

theorem Changes.asking {renews : Bool} (changes : Changes c after renews) (attached : Attached c)
    (asks : (c.wantRead || renews) = true) : Asking after :=
  fun isLive => ⟨changes.attached attached isLive, changes.wantRead.trans asks⟩

theorem Changes.keeps_asking {renews : Bool} (changes : Changes c after renews)
    (asking : Asking c) : Asking after := by
  intro isLive
  refine ⟨changes.attached (fun before => (asking before).1) isLive, ?_⟩
  rcases changes.live isLive with before | asks
  · rw [changes.wantRead, (asking before).2, Bool.true_or]
  · exact asks

theorem Changes.refl (c : Conn) : Changes c c false :=
  ⟨rfl, id, .inl, id, (Bool.or_false _).symm⟩

theorem not_live (connecting : c.state ≠ .connecting) (connected : c.state ≠ .connected) : ¬c.Live := by
  rintro (isLive | isLive)
  · exact connecting isLive
  · exact connected isLive

theorem Changes.of_over (kind : after.kind = c.kind) (finished : ¬after.Live)
    (wantRead : after.wantRead = c.wantRead) : Changes c after false :=
  ⟨kind, fun now => absurd (.inr now) finished, fun isLive => absurd isLive finished,
    fun _ isLive => absurd isLive finished, wantRead.trans (Bool.or_false _).symm⟩

section

variable (c : Conn)

theorem cleanup_fields :
    c.cleanup.kind = c.kind ∧ c.cleanup.state = c.state ∧ c.cleanup.wantRead = c.wantRead := by
  rw [cleanup, release]
  split <;> exact ⟨rfl, rfl, rfl⟩

theorem attach_changes : Changes c c.attach true where
  kind := rfl
  connected := nofun
  live _ := .inr rfl
  attached _ _ := by simp [registered, attach]
  wantRead := by simp [attach]

theorem cleanup_changes {state : State} (connecting : state ≠ .connecting)
    (connected : state ≠ .connected) : Changes c { c with state }.cleanup false := by
  obtain ⟨kind, same, wantRead⟩ := cleanup_fields { c with state }
  refine .of_over kind (not_live ?_ ?_) wantRead
  · rw [same]
    exact connecting
  · rw [same]
    exact connected

theorem close_changes : Changes c c.close false := by
  unfold close
  split
  · exact cleanup_changes c nofun nofun
  · exact { Changes.refl c with }

theorem take_changes (data : List UInt8) (own : Bool) (count : Nat) :
    Changes c (c.take data own count) false := by
  unfold take
  split
  · exact { Changes.refl c with }
  · split
    · exact { Changes.refl c with }
    · split
      · split <;> exact { Changes.refl c with }
      · exact { Changes.refl c with }

theorem sendError_changes : Changes c c.sendError false := by
  unfold sendError
  split
  · exact cleanup_changes c nofun nofun
  · exact .of_over rfl (not_live nofun nofun) rfl

theorem send_changes (data : List UInt8) (own : Bool) (result : WriteResult) :
    Changes c (c.send data own result)
      (match result with
        | .wrote count => c.pfd.isSome && decide (data.length ≤ count)
        | .error => false) := by
  unfold send
  split
  · rename_i absent
    have crashes : Changes c { c with crashed := true } false := { Changes.refl c with }
    cases result <;> simpa [absent] using crashes
  · rename_i present
    cases result with
    | error => exact sendError_changes c
    | wrote count =>
      have taken := take_changes c data own count
      have isSome : c.pfd.isSome = true := Option.isSome_iff_ne_none.mpr present
      dsimp only
      split
      · rename_i whole
        refine ⟨taken.kind, taken.connected, fun _ => .inr rfl, fun before => taken.attached before, ?_⟩
        simp [isSome, whole]
      · rename_i part
        simpa [part] using taken

end

mutual

theorem Action.run_changes (c : Conn) : ∀ action : Action, Changes c (action.run c) (action.renews c)
  | .sendPacket data result onDisconnect => by
      rw [Action.run]
      unfold Action.renews
      split
      · rename_i sends
        have passes : Changes c { c with passed := c.passed ++ data } false :=
          { Changes.refl c with }
        have sent := passes.trans (send_changes _ data false result)
        rw [sends, Bool.true_and]
        rw [Bool.false_or] at sent
        cases result with
        | wrote count => simpa using sent
        | error =>
          by_cases posix : c.kind = .posix
          · have called := sent.trans (Script.run_changes _ onDisconnect)
            rw [Bool.false_or] at called
            rw [if_pos (by simp [posix])]
            rw [decide_eq_true posix, Bool.true_and]
            exact called
          · rw [if_neg (by simp [posix])]
            rw [decide_eq_false posix, Bool.false_and]
            exact sent
      · rename_i never
        rw [Bool.not_eq_true] at never
        rw [never, Bool.false_and]
        exact { Changes.refl c with }
  | .close onClosed => by
      rw [Action.run, Action.renews]
      split
      · rename_i mayClose
        have called := (close_changes c).trans (Script.run_changes c.close onClosed)
        rw [mayClose, Bool.true_and]
        simpa using called
      · rename_i ignored
        rw [Bool.not_eq_true] at ignored
        rw [ignored, Bool.false_and]
        exact close_changes c
  | .reconnect => by
      rw [Action.run, Action.renews]
      exact attach_changes c

theorem Script.run_changes (c : Conn) : ∀ script : Script, Changes c (script.run c) (script.renews c)
  | .done => by
      rw [Script.run, renews]
      exact { Changes.refl c with }
  | .next action rest => by
      rw [Script.run, renews]
      exact (Action.run_changes c action).trans (Script.run_changes (action.run c) rest)

end

theorem gone_asking (c : Conn) (onDisconnect : Script) :
    Asking (onDisconnect.run { c with state := .disconnect }.cleanup) := by
  refine (run_changes _ onDisconnect).keeps_asking fun isLive => absurd isLive ?_
  have same := (cleanup_fields { c with state := .disconnect }).2.1
  refine not_live ?_ ?_ <;> rw [same] <;> nofun

theorem readLoop_asking (reads : List ReadResult) : ∀ {c : Conn}, Asking c →
    (c.kind = .posix → ∀ onDisconnect, .error onDisconnect ∉ reads) → Asking (c.readLoop reads) := by
  induction reads with
  | nil => exact fun asking _ => asking
  | cons result rest ih =>
    intro c asking clean
    unfold readLoop
    split
    · cases result with
      | data onRecved =>
        have changes := run_changes { c with wantRead := true } onRecved
        have asked : Asking { c with wantRead := true } := fun isLive => ⟨(asking isLive).1, rfl⟩
        refine ih (changes.keeps_asking asked) ?_
        intro posix onDisconnect later
        rw [changes.kind] at posix
        exact clean posix onDisconnect (List.mem_cons_of_mem _ later)
      | eof onDisconnect => exact gone_asking c onDisconnect
      | again onMsg =>
        cases onMsg with
        | none =>
          dsimp only
          split
          · exact asking
          · exact fun isLive => ⟨(asking isLive).1, rfl⟩
        | some onMsg => exact (run_changes c onMsg).keeps_asking asking
      | error onDisconnect =>
        dsimp only
        split
        · rename_i posix
          exact absurd (List.mem_cons_self ..) (clean posix onDisconnect)
        · exact gone_asking c onDisconnect
    · exact asking

/-- What renews the request in `handle_read`: data or the end of the stream first; an mTCP
connection may also find nothing to read; the message callback has to renew it itself. -/
def RenewingReads (c : Conn) : List ReadResult → Prop
  | [] => c.state ≠ .connected
  | .data _ :: rest => c.kind = .posix → ∀ onDisconnect, .error onDisconnect ∉ rest
  | .eof _ :: _ => True
  | .again none :: _ => c.kind = .mtcp
  | .again (some onMsg) :: _ => onMsg.renews c = true
  | .error _ :: _ => c.kind = .mtcp

def Handshake.Renewing (c : Conn) : Handshake → Prop
  | .success onConnected => onConnected.renews { c with state := .connected } = true
  | .failure _ => True

def Event.Renewing (c : Conn) : Event → Prop
  | .call _ => True
  | .writable .. => True
  | .readable handshake reads =>
    if c.state = .connecting then handshake.Renewing { c with wantRead := false }
    else RenewingReads { c with wantRead := false } reads

theorem readLoop_skipped (other : c.state ≠ .connected) (reads : List ReadResult) :
    c.readLoop reads = c := by
  cases reads with
  | nil => rfl
  | cons result rest =>
    unfold readLoop
    rw [if_neg other]

theorem renewingReads_asking (attached : Attached c) (other : c.state ≠ .connecting)
    {reads : List ReadResult} (renewing : RenewingReads c reads) : Asking (c.readLoop reads) := by
  by_cases connected : c.state = .connected
  · cases reads with
    | nil => exact absurd connected renewing
    | cons result rest =>
      unfold readLoop
      rw [if_pos connected]
      cases result with
      | data onRecved =>
        have changes := run_changes { c with wantRead := true } onRecved
        have asked : Asking { c with wantRead := true } := fun isLive => ⟨attached isLive, rfl⟩
        refine readLoop_asking rest (changes.keeps_asking asked) fun posix => ?_
        rw [changes.kind] at posix
        exact renewing posix
      | eof onDisconnect => exact gone_asking c onDisconnect
      | again onMsg =>
        cases onMsg with
        | none =>
          have mtcp : c.kind = .mtcp := renewing
          rw [mtcp]
          exact fun isLive => ⟨attached isLive, rfl⟩
        | some onMsg =>
          have renews : onMsg.renews c = true := renewing
          exact (run_changes c onMsg).asking attached (by rw [renews, Bool.or_true])
      | error onDisconnect =>
        have mtcp : c.kind = .mtcp := renewing
        simp only [mtcp]
        rw [← mtcp]
        exact gone_asking c onDisconnect
  · rw [readLoop_skipped connected]
    exact fun isLive => absurd isLive (not_live other connected)

theorem handleRead_asking (attached : Attached c) (registered : c.pfd ≠ none)
    {handshake : Handshake} {reads : List ReadResult}
    (connecting : c.state = .connecting → handshake.Renewing c)
    (reading : c.state ≠ .connecting → RenewingReads c reads) :
    Asking (c.handleRead handshake reads) := by
  unfold handleRead
  split
  · rename_i state
    cases handshake with
    | success onConnected =>
      have now : Attached { c with state := .connected } := fun _ => attached (.inl state)
      have renews : onConnected.renews { c with state := .connected } = true := connecting state
      exact (run_changes _ onConnected).asking now (by rw [renews, Bool.or_true])
    | failure onFailed =>
      have changes := run_changes { c with state := .failed }.notify onFailed
      have failed := changes.keeps_asking fun isLive => absurd isLive (not_live nofun nofun)
      have skipped := readLoop_skipped (fun now => nomatch changes.connected now) reads
      dsimp only [handleHandshake]
      split
      · exact fun isLive => failed isLive
      · rw [skipped]
        exact failed
  · rename_i other
    exact renewingReads_asking attached other (reading other)

theorem handleWrite_asking (asking : Asking c) (handshake : Handshake) (result : WriteResult)
    (onDisconnect : Script) : Asking (c.handleWrite handshake result onDisconnect) := by
  unfold handleWrite
  split
  · rename_i connecting
    cases handshake with
    | success onConnected =>
      have now : Asking { c with state := .connected } := fun _ => asking (.inl connecting)
      exact (run_changes _ onConnected).keeps_asking now
    | failure onFailed =>
      exact (run_changes _ onFailed).keeps_asking fun isLive => absurd isLive (not_live nofun nofun)
  · split
    · have sent := (send_changes c c.output.bytes true result).keeps_asking asking
      dsimp only
      split
      · exact (run_changes _ onDisconnect).keeps_asking sent
      · exact sent
    · exact asking

theorem step_asking (asking : Asking c) {event : Event} (renewing : event.Renewing c) :
    Asking (step c event) := by
  cases event with
  | call action => exact (Action.run_changes c action).keeps_asking asking
  | writable handshake result onDisconnect =>
    rw [step]
    split
    · have taken : Asking { c with wantWrite := false } := asking
      exact handleWrite_asking taken handshake result onDisconnect
    · exact asking
  | readable handshake reads =>
    rw [step]
    split
    · rename_i asked
      have taken : Attached { c with wantRead := false } := fun isLive => (asking isLive).1
      refine handleRead_asking taken ?_ (fun connecting => ?_) (fun other => ?_)
      · intro same
        have free : c.pfd = none := same
        simp [registered, free] at asked
      · rw [Event.Renewing, if_pos connecting] at renewing
        exact renewing
      · rw [Event.Renewing, if_neg other] at renewing
        exact renewing
    · exact asking

def RenewingRun (c : Conn) : List Event → Prop
  | [] => True
  | event :: rest => event.Renewing c ∧ RenewingRun (step c event) rest

theorem run_asking (events : List Event) :
    ∀ {c : Conn}, Asking c → RenewingRun c events → Asking (run c events) := by
  induction events with
  | nil => exact fun asking _ => asking
  | cons event rest ih => exact fun asking renewing => ih (step_asking asking renewing.1) renewing.2

theorem create_asking (kind : Kind) : Asking (.create kind) := fun _ => by
  cases kind <;> decide

/-- After every event, a connection that is connected has a poll state that asks for readability. -/
theorem read_interest_kept (kind : Kind) (events : List Event)
    (renewing : RenewingRun (.create kind) events)
    (connected : (run (.create kind) events).state = .connected) :
    (run (.create kind) events).registered = true ∧ (run (.create kind) events).wantRead = true :=
  run_asking events (create_asking kind) renewing (.inr connected)

theorem read_interest_after_data :
    (run (.create .posix) [.writable (.success .done) .error .done,
      .readable (.success .done) [.data .done, .again none]]).wantRead = true := by
  refine (read_interest_kept .posix [.writable (.success .done) .error .done,
    .readable (.success .done) [.data .done, .again none]] ⟨trivial, ?_, trivial⟩ (by decide)).2
  simp [Event.Renewing, RenewingReads, step, Conn.create, Conn.attach, Conn.registered,
    Conn.handleWrite, Conn.handleHandshake, Script.run]

/-- A handshake completed by an event for reading, nothing to read (posix), and a message that is
delivered again (mTCP). -/
theorem read_interest_lost :
    (let c := run (.create .posix) [.readable (.success .done) []];
      c.state = .connected ∧ c.registered = true ∧ c.wantRead = false) ∧
    (let c := run (.create .mtcp) [.readable (.success .done) []];
      c.state = .connected ∧ c.registered = true ∧ c.wantRead = false) ∧
    (let c := run (.create .posix) [.writable (.success .done) .error .done,
        .readable (.success .done) [.again none]];
      c.state = .connected ∧ c.registered = true ∧ c.wantRead = false) ∧
    (let c := run (.create .mtcp) [.writable (.success .done) .error .done,
        .readable (.success .done) [.data .done, .again (some .done)],
        .readable (.success .done) [.again (some .done)]];
      c.state = .connected ∧ c.registered = true ∧ c.wantRead = false) := by
  decide

end Mcc.Connection
