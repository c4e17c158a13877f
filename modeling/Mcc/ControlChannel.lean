import Mathlib

/-!
The control connection between a worker and the master. Neither end marks the end of a message in
the byte stream: the worker takes what one read returns for a command, and the master takes what it
has read when the socket has nothing more for a report.
-/

namespace Mcc.ControlChannel

inductive Endpoint where
  | master
  | worker
  deriving Repr, DecidableEq

abbrev Chunk := { bytes : List UInt8 // bytes ≠ [] }

inductive End where
  | again
  | eof
  | error
  deriving Repr, DecidableEq

structure Call where
  chunks : List Chunk
  ended : End
  deriving DecidableEq

structure Receiver where
  watching : Bool
  input : List UInt8
  handled : List (List UInt8)
  deriving Repr, DecidableEq

open Receiver

namespace Receiver

def start : Receiver where
  watching := true
  input := []
  handled := []

def handle (r : Receiver) : Receiver :=
  { r with input := [], handled := r.handled ++ [r.input] }

def recved (endpoint : Endpoint) (r : Receiver) (chunk : Chunk) : Receiver :=
  let r := { r with input := r.input ++ chunk.val }
  match endpoint with
  | .worker => r.handle
  | .master => r

def ends (endpoint : Endpoint) (r : Receiver) : End → Receiver
  | .again =>
    match endpoint with
    | .master => if r.input.length ≠ 0 then r.handle else r
    | .worker => r
  | .eof => { r with watching := false }
  | .error => { r with watching := false }

def handleRead (endpoint : Endpoint) (r : Receiver) (call : Call) : Receiver :=
  if r.watching then (call.chunks.foldl (Receiver.recved endpoint) r).ends endpoint call.ended else r

def run (endpoint : Endpoint) (r : Receiver) (calls : List Call) : Receiver :=
  calls.foldl (Receiver.handleRead endpoint) r

end Receiver

def Call.data (call : Call) : List UInt8 := (call.chunks.map Subtype.val).flatten

def delivered : List Call → List UInt8
  | [] => []
  | call :: rest => call.data ++ if call.ended = .again then delivered rest else []

def Call.stops (endpoint : Endpoint) (call : Call) : List Nat :=
  match endpoint with
  | .worker => call.chunks.map fun chunk => chunk.val.length
  | .master => if call.ended = .again ∧ call.data.length ≠ 0 then [call.data.length] else []

/-- The lengths of the pieces that the arrival of the bytes cuts the stream into. -/
def stops (endpoint : Endpoint) : List Call → List Nat
  | [] => []
  | call :: rest => call.stops endpoint ++ if call.ended = .again then stops endpoint rest else []

theorem foldl_recved_worker (r : Receiver) (chunks : List Chunk) (empty : r.input = []) :
    chunks.foldl (recved .worker) r = { r with handled := r.handled ++ chunks.map Subtype.val } := by
  induction chunks generalizing r with
  | nil => simp
  | cons chunk rest ih =>
    rw [List.foldl_cons, ih _ rfl]
    simp [recved, handle, empty]

theorem foldl_recved_master (r : Receiver) (chunks : List Chunk) :
    chunks.foldl (recved .master) r =
      { r with input := r.input ++ (chunks.map Subtype.val).flatten } := by
  induction chunks generalizing r with
  | nil => simp
  | cons chunk rest ih =>
    rw [List.foldl_cons, ih]
    simp [recved]

structure Adds (endpoint : Endpoint) (r next : Receiver) (call : Call) : Prop where
  bytes : ∃ pieces, next.handled = r.handled ++ pieces ∧
    pieces.flatten ++ next.input = call.data ∧ pieces.map List.length = call.stops endpoint
  watching : next.watching = (call.ended == .again)
  empty : call.ended = .again → next.input = []

section

variable {r : Receiver} (watching : r.watching = true) (empty : r.input = []) (call : Call)
include watching empty

theorem handleRead_worker : Adds .worker r (r.handleRead .worker call) call := by
  have result : r.handleRead .worker call =
      ends .worker { r with handled := r.handled ++ call.chunks.map Subtype.val } call.ended := by
    simp only [handleRead, watching, if_true, foldl_recved_worker r call.chunks empty]
  rw [result]
  refine ⟨⟨call.chunks.map Subtype.val, ?_, ?_, ?_⟩, ?_, ?_⟩
  · cases call.ended <;> rfl
  · cases call.ended <;> simp [ends, empty, Call.data]
  · simp [Call.stops]
  · cases call.ended <;> simp [ends, watching]
  · intro again
    simp [again, ends, empty]

theorem handleRead_master : Adds .master r (r.handleRead .master call) call := by
  have result : r.handleRead .master call = ends .master { r with input := call.data } call.ended := by
    simp only [handleRead, watching, if_true, foldl_recved_master, empty, List.nil_append, Call.data]
  rw [result]
  cases ended : call.ended with
  | again =>
    by_cases zero : call.data.length = 0
    · refine ⟨⟨[], ?_, ?_, ?_⟩, ?_, ?_⟩ <;>
        simp_all [ends, Call.stops]
    · refine ⟨⟨[call.data], ?_, ?_, ?_⟩, ?_, ?_⟩ <;>
        simp_all [ends, Call.stops, handle]
  | eof | error => refine ⟨⟨[], ?_, ?_, ?_⟩, ?_, ?_⟩ <;> simp [ends, Call.stops, ended]

theorem handleRead_adds (endpoint : Endpoint) : Adds endpoint r (r.handleRead endpoint call) call := by
  cases endpoint with
  | master => exact handleRead_master watching empty call
  | worker => exact handleRead_worker watching empty call

end

theorem run_closed (endpoint : Endpoint) {r : Receiver} (closed : r.watching = false)
    (calls : List Call) : r.run endpoint calls = r := by
  induction calls with
  | nil => rfl
  | cons call rest ih =>
    have step : r.handleRead endpoint call = r := by simp [handleRead, closed]
    rw [Receiver.run, List.foldl_cons, step]
    exact ih

theorem run_pieces (endpoint : Endpoint) (r : Receiver) (calls : List Call)
    (watching : r.watching = true) (empty : r.input = []) :
    ∃ pieces, (r.run endpoint calls).handled = r.handled ++ pieces ∧
      pieces.flatten ++ (r.run endpoint calls).input = delivered calls ∧
        pieces.map List.length = stops endpoint calls := by
  induction calls generalizing r with
  | nil => exact ⟨[], by simp [Receiver.run], empty, rfl⟩
  | cons call rest ih =>
    obtain ⟨⟨first, handled, data, lengths⟩, next, drained⟩ :=
      handleRead_adds watching empty call endpoint
    change ∃ pieces, ((r.handleRead endpoint call).run endpoint rest).handled = _ ∧
      _ ++ ((r.handleRead endpoint call).run endpoint rest).input = _ ∧ _
    by_cases again : call.ended = .again
    · rw [again] at next
      obtain ⟨more, handledMore, dataMore, lengthsMore⟩ := ih _ next (drained again)
      refine ⟨first ++ more, ?_, ?_, ?_⟩
      · rw [handledMore, handled, List.append_assoc]
      · rw [drained again, List.append_nil] at data
        simp only [delivered, again, if_true]
        rw [List.flatten_append, List.append_assoc, dataMore, data]
      · simp only [stops, again, if_true]
        rw [List.map_append, lengths, lengthsMore]
    · have closed : (r.handleRead endpoint call).watching = false := by
        rw [next]
        simpa using again
      rw [run_closed endpoint closed rest]
      exact ⟨first, handled, by simpa [delivered, again] using data,
        by simpa [stops, again] using lengths⟩

/-- Every byte read is handled once and in order, in pieces cut by the arrival, or left in `input`. -/
theorem bytes_handled_in_order (endpoint : Endpoint) (calls : List Call) :
    let r := Receiver.start.run endpoint calls
    r.handled.flatten ++ r.input = delivered calls ∧ r.handled.map List.length = stops endpoint calls := by
  obtain ⟨pieces, handled, data, lengths⟩ := run_pieces endpoint .start calls rfl rfl
  obtain rfl : _ = pieces := handled
  exact ⟨data, lengths⟩

theorem pieces_eq {pieces messages : List (List UInt8)} {left : List UInt8}
    (data : pieces.flatten ++ left = messages.flatten)
    (lengths : pieces.map List.length = messages.map List.length) : pieces = messages := by
  have total : pieces.flatten.length = messages.flatten.length := by
    rw [List.length_flatten, List.length_flatten, lengths]
  have empty : left = [] := by
    have := congrArg List.length data
    rw [List.length_append] at this
    exact List.eq_nil_of_length_eq_zero (by omega)
  rw [empty, List.append_nil] at data
  exact List.eq_iff_flatten_eq.mpr ⟨data, lengths⟩

/-- The handler gets the messages exactly when the arrival cuts the stream where they end. -/
theorem messages_handled_iff {Message : Type} (serialize : Message → List UInt8)
    (parse : List UInt8 → Message) (inverse : ∀ message, parse (serialize message) = message)
    (endpoint : Endpoint) (messages : List Message) (calls : List Call)
    (stream : delivered calls = messages.flatMap serialize) :
    ((Receiver.start.run endpoint calls).handled = messages.map serialize ↔
        stops endpoint calls = messages.map fun message => (serialize message).length) ∧
      (stops endpoint calls = (messages.map fun message => (serialize message).length) →
        (Receiver.start.run endpoint calls).handled.map parse = messages) := by
  obtain ⟨pieces, handled, data, lengths⟩ := run_pieces endpoint .start calls rfl rfl
  have handled : (Receiver.start.run endpoint calls).handled = pieces := handled
  rw [stream, List.flatMap_def] at data
  have correct : pieces = messages.map serialize ↔
      stops endpoint calls = messages.map fun message => (serialize message).length := by
    constructor
    · intro same
      rw [← lengths, same, List.map_map]
      rfl
    · intro same
      refine pieces_eq data ?_
      rw [lengths, same, List.map_map]
      rfl
  rw [handled]
  refine ⟨correct, fun same => ?_⟩
  rw [correct.mpr same, List.map_map]
  simp [Function.comp_def, inverse]

theorem messages_apart :
    (Receiver.start.run .master [⟨[⟨[8], by decide⟩, ⟨[1], by decide⟩], .again⟩,
      ⟨[⟨[8, 2], by decide⟩], .again⟩]).handled.map id = [[8, 1], [8, 2]] :=
  (messages_handled_iff id id (fun _ => rfl) .master [[8, 1], [8, 2]] _ rfl).2 rfl

theorem messages_merged_or_torn : delivered [⟨[⟨[8, 1, 8, 2], by decide⟩], .again⟩] = [8, 1] ++ [8, 2] ∧
    (Receiver.start.run .master [⟨[⟨[8, 1, 8, 2], by decide⟩], .again⟩]).handled ≠ [[8, 1], [8, 2]] ∧
    delivered [⟨[⟨[8], by decide⟩, ⟨[1], by decide⟩], .again⟩] = [8, 1] ∧
    (Receiver.start.run .worker [⟨[⟨[8], by decide⟩, ⟨[1], by decide⟩], .again⟩]).handled ≠ [[8, 1]] := by
  decide

end Mcc.ControlChannel
