import Mcc.Connection

/-!
The bytes that a posix connection writes. What a full socket does not take goes into `output_`,
which the next writable event sends again as a whole and which is never emptied; what a short write
leaves over goes nowhere.
-/

namespace Mcc.Connection

inductive Output where
  | send (data : List UInt8) (count : Nat)
  | writable (count : Nat)
  deriving Repr, DecidableEq

open Output

def Output.event : Output → Event
  | .send data count => .call (.sendPacket data (.wrote count) .done)
  | .writable count => .writable (.success .done) (.wrote count) .done

def runOutput (c : Conn) (outputs : List Output) : Conn := run c (outputs.map Output.event)

structure Fresh (c : Conn) : Prop where
  posix : c.kind = .posix
  connected : c.state = .connected
  registered : c.registered
  output : c.output.bytes = []
  passed : c.passed = []
  written : c.written = []

def Conn.pending (c : Conn) : Bool := c.wantWrite && !c.output.bytes.isEmpty

/-- The writes that lose no bytes: a packet taken as a whole, or not at all while nothing older is
in `output_` that will not be sent with it, or behind what is pending; and a flush taken as a whole.
-/
def Output.Lossless (c : Conn) : Output → Prop
  | .send data count =>
    data = [] ∨ if c.pending then count = 0
      else data.length ≤ count ∨ count = 0 ∧ c.output.bytes = []
  | .writable count => c.wantWrite → c.output.bytes.length ≤ count

def LosslessRun (c : Conn) : List Output → Prop
  | [] => True
  | output :: rest => output.Lossless c ∧ LosslessRun (step c output.event) rest

structure Intact (c : Conn) : Prop where
  posix : c.kind = .posix
  connected : c.state = .connected
  registered : c.registered
  kept : c.passed = c.written ++ if c.wantWrite then c.output.bytes else []

variable {c : Conn}

theorem Fresh.intact (fresh : Fresh c) : Intact c := by
  refine { fresh with kept := ?_ }
  rw [fresh.passed, fresh.written, fresh.output]
  simp

theorem Intact.pfd (intact : Intact c) : c.pfd ≠ none := by
  intro absent
  have registered := intact.registered
  simp [Conn.registered, absent] at registered

variable {data : List UInt8} {count : Nat}

theorem send_all (pfd : c.pfd ≠ none) (filled : data ≠ []) {own : Bool} (all : data.length ≤ count) :
    c.send data own (.wrote count) = { c with written := c.written ++ data, wantRead := true } := by
  have length : 0 < data.length := List.length_pos_iff.mpr filled
  unfold Conn.send Conn.take
  rw [if_neg pfd]
  dsimp only
  rw [if_pos all, if_pos (by omega), List.take_of_length_le all]

theorem send_none (posix : c.kind = .posix) (pfd : c.pfd ≠ none) (filled : data ≠ []) :
    c.send data false (.wrote 0) = { c with output := c.output.append data, wantWrite := true } := by
  have length : 0 < data.length := List.length_pos_iff.mpr filled
  unfold Conn.send Conn.take
  rw [if_neg pfd]
  dsimp only
  rw [if_neg (by omega), if_neg (by omega)]
  split
  · rename_i mtcp
    cases posix.symm.trans mtcp
  · rfl

theorem step_send_nil (c : Conn) (count : Nat) : step c (send [] count).event = c := by
  have sends : ¬ c.sends [] := by simp [Conn.sends]
  rw [event, step, Action.run, if_neg sends]

theorem step_send (intact : Intact c) (filled : data ≠ []) (count : Nat) : step c (send data count).event =
      { c with passed := c.passed ++ data }.send data false (.wrote count) := by
  have sends : c.sends data := by simp [Conn.sends, intact.connected, filled]
  rw [event, step, Action.run, if_pos sends]
  rfl

theorem step_writable (intact : Intact c) (wanted : c.wantWrite) (all : c.output.bytes.length ≤ count) :
    step c (writable count).event =
      { c with
        wantWrite := false
        written := c.written ++ c.output.bytes
        wantRead := c.wantRead || !c.output.bytes.isEmpty } := by
  have idle : c.state ≠ .connecting := by rw [intact.connected]; nofun
  rw [event, step, if_pos (by rw [intact.registered, wanted]; rfl), Conn.handleWrite, if_neg idle]
  by_cases empty : c.output.bytes = []
  · have sends : ¬ { c with wantWrite := false }.sends c.output.bytes := by simp [Conn.sends, empty]
    rw [if_neg sends, empty]
    simp
  · have sends : { c with wantWrite := false }.sends c.output.bytes := by
      simp [Conn.sends, intact.connected, empty]
    rw [if_pos sends]
    dsimp only
    rw [send_all (c := { c with wantWrite := false }) intact.pfd empty all]
    simp [empty]

theorem step_writable_unwanted (unwanted : c.wantWrite = false) (count : Nat) :
    step c (writable count).event = c := by
  rw [event, step, if_neg (by simp [unwanted])]

theorem pending_of_wanted (idle : c.pending = false) (wanted : c.wantWrite) : c.output.bytes = [] := by
  simpa [Conn.pending, wanted] using idle

section

variable (intact : Intact c)
include intact

theorem Intact.sendAll (idle : c.pending = false) :
    Intact { c with passed := c.passed ++ data, written := c.written ++ data, wantRead := true } := by
  refine { intact with kept := ?_ }
  have kept := intact.kept
  dsimp only
  cases wanted : c.wantWrite with
  | false => simpa [wanted] using kept
  | true => simpa [wanted, pending_of_wanted idle wanted] using kept

theorem Intact.sendNone (behind : c.wantWrite ∨ c.output.bytes = []) : Intact { c with
      passed := c.passed ++ data, output := c.output.append data, wantWrite := true } := by
  refine { intact with kept := ?_ }
  have kept := intact.kept
  dsimp only
  rw [Buffer.append_bytes, if_pos rfl, kept]
  rcases behind with wanted | empty
  · simp [wanted]
  · simp [empty]

theorem send_intact (lossless : (send data count).Lossless c) :
    Intact (step c (send data count).event) := by
  by_cases blank : data = []
  · rw [blank, step_send_nil]
    exact intact
  rw [step_send intact blank]
  have accepted := lossless.resolve_left blank
  split at accepted
  · rename_i pending
    have wanted : c.wantWrite := by
      simp only [Conn.pending, Bool.and_eq_true] at pending
      exact pending.1
    rw [accepted, send_none (c := { c with passed := c.passed ++ data }) intact.posix intact.pfd blank]
    exact intact.sendNone (.inl wanted)
  · rename_i idle
    rcases accepted with all | ⟨zero, empty⟩
    · rw [send_all (c := { c with passed := c.passed ++ data }) intact.pfd blank all]
      exact intact.sendAll (by simpa using idle)
    · rw [zero, send_none (c := { c with passed := c.passed ++ data }) intact.posix intact.pfd blank]
      exact intact.sendNone (.inr empty)

theorem writable_intact (lossless : (writable count).Lossless c) :
    Intact (step c (writable count).event) := by
  cases wanted : c.wantWrite with
  | false =>
    rw [step_writable_unwanted wanted]
    exact intact
  | true =>
    rw [step_writable intact wanted (lossless wanted)]
    refine { intact with kept := ?_ }
    have kept := intact.kept
    rw [if_pos wanted] at kept
    simpa using kept

theorem step_intact {output : Output} (lossless : output.Lossless c) : Intact (step c output.event) := by
  cases output with
  | send data count => exact send_intact intact lossless
  | writable count => exact writable_intact intact lossless

theorem run_intact {outputs : List Output} (lossless : LosslessRun c outputs) :
    Intact (runOutput c outputs) := by
  induction outputs generalizing c with
  | nil => exact intact
  | cons output rest ih => exact ih (step_intact intact lossless.1) lossless.2

theorem Intact.isPrefix : c.written <+: c.passed := by
  rw [intact.kept]
  exact List.prefix_append ..

theorem Intact.written (idle : c.pending = false) : c.written = c.passed := by
  have kept := intact.kept
  cases wanted : c.wantWrite with
  | false => simpa [wanted] using kept.symm
  | true => simpa [wanted, pending_of_wanted idle wanted] using kept.symm

end

/-- After lossless writes the socket has a prefix of what was passed, and the next writable event
writes what is pending, once. -/
theorem written_prefix_passed {c : Conn} (fresh : Fresh c) {outputs : List Output}
    (lossless : LosslessRun c outputs) :
    (runOutput c outputs).written <+: (runOutput c outputs).passed ∧
      ((runOutput c outputs).pending = false →
        (runOutput c outputs).written = (runOutput c outputs).passed) ∧
      ((runOutput c outputs).pending → (runOutput c outputs).registered ∧
        (runOutput c outputs).wantWrite ∧
        ∀ count, (runOutput c outputs).output.bytes.length ≤ count →
          (runOutput c (outputs ++ [.writable count])).written = (runOutput c outputs).passed) := by
  have intact := run_intact fresh.intact lossless
  refine ⟨intact.isPrefix, intact.written, fun pending => ?_⟩
  have wanted : (runOutput c outputs).wantWrite := by
    simp only [Conn.pending, Bool.and_eq_true] at pending
    exact pending.1
  refine ⟨intact.registered, wanted, fun count all => ?_⟩
  have last : runOutput c (outputs ++ [.writable count]) =
      step (runOutput c outputs) (Output.writable count).event := by
    simp [runOutput, run]
  rw [last, step_writable intact wanted all, intact.kept, if_pos wanted]

def established : Conn :=
  step (.create .posix) (.writable (.success .done) (.wrote 0) .done)

theorem full_socket_then_writable :
    (runOutput established [.send [1, 2] 0, .send [3] 0, .writable 3]).written = [1, 2, 3] := by
  have fresh : Fresh established := ⟨rfl, rfl, rfl, rfl, rfl, rfl⟩
  have lossless : LosslessRun established [.send [1, 2] 0, .send [3] 0] :=
    ⟨.inr (by decide), .inr (by decide), trivial⟩
  have all := written_prefix_passed fresh lossless
  exact (all.2.2 (by decide)).2.2 3 (by decide)

/-- A short write loses the rest of its packet, a packet overtakes a pending one, and flushed bytes
are flushed again. -/
theorem written_not_prefix :
    ¬ (runOutput established [.send [1, 2] 1, .send [3] 1]).written <+: [1, 2, 3] ∧
      ¬ (runOutput established [.send [1] 0, .send [2] 1]).written <+: [1, 2] ∧
      ¬ (runOutput established [.send [1] 0, .writable 1, .send [2] 0, .writable 2]).written <+: [1, 2] ∧
      (runOutput established [.send [1, 2] 1, .send [3] 1]).passed = [1, 2, 3] ∧
      (runOutput established [.send [1] 0, .send [2] 1]).passed = [1, 2] ∧
      (runOutput established [.send [1] 0, .writable 1, .send [2] 0, .writable 2]).passed = [1, 2] := by
  decide

end Mcc.Connection
