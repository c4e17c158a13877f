import Mcc.SendBuffer
import Mcc.StreamQueue

/-!
The send buffers of a core. The application takes one for a stream, from the queue of free buffers
(`tcp_sb_queue.c`) or a new one, and the stack puts it into the queue when it destroys the stream.
-/

namespace Mcc.SendBufferPool

open RingQueue
open StreamQueue (nextIndex nextIndex_eq)

structure SBQueue (α : Type) (capacity : Nat) where
  q : Vector α (capacity + 1)
  head : Fin (capacity + 1)
  tail : Fin (capacity + 1)

section Queue

variable {α : Type} {capacity : Nat}

def createSBQueue (null : α) (capacity : Nat) : SBQueue α capacity :=
  ⟨.replicate _ null, ⟨0, Nat.succ_pos _⟩, ⟨0, Nat.succ_pos _⟩⟩

namespace SBQueue

variable (sq : SBQueue α capacity)

def sbEnqueue (buf : α) : Int × SBQueue α capacity :=
  if nextIndex sq.tail ≠ sq.head then
    (0, { sq with q := sq.q.set sq.tail.val buf sq.tail.isLt, tail := nextIndex sq.tail })
  else (-1, sq)

def sbDequeue : Option α × SBQueue α capacity :=
  if sq.head ≠ sq.tail then (some (sq.q.get sq.head), { sq with head := nextIndex sq.head })
  else (none, sq)

def items : List α := contents sq.q sq.head sq.tail

theorem sbEnqueue_spec (buf : α) (room : sq.items.length < capacity) :
    (sq.sbEnqueue buf).1 = 0 ∧ (sq.sbEnqueue buf).2.items = sq.items ++ [buf] := by
  have apart : next sq.tail ≠ sq.head := by
    intro full
    have size := (next_eq_start sq.q sq.head sq.tail).mp full
    exact absurd room (by rw [items]; omega)
  rw [sbEnqueue, nextIndex_eq, if_pos apart]
  exact ⟨rfl, contents_push _ _ _ _ apart⟩

theorem sbDequeue_spec : sq.sbDequeue.1 = sq.items.head? ∧ sq.sbDequeue.2.items = sq.items.tail := by
  unfold sbDequeue items
  split
  · rename_i pending
    rw [contents_pop _ _ _ (Ne.symm pending), ← nextIndex_eq]
    exact ⟨rfl, rfl⟩
  · rename_i same
    rw [(contents_eq_nil _ _ _).mpr (not_not.mp same).symm]
    exact ⟨rfl, rfl⟩

end SBQueue

end Queue

/-- Buffers are numbered as they are created. `chunks` is what is left in `mp`, and `owned` are the
buffers of the streams. -/
structure Pool (cnum : Nat) where
  sbm : SBManager
  chunks : Nat
  curNum : Nat
  freeq : SBQueue (Nat × TcpSendBuffer) cnum
  owned : List (Nat × TcpSendBuffer)

inductive Call where
  | sbInit (granted : Bool) (chunk : List UInt8) (initSeq : UInt32)
  | sbFree (index : Nat)
  | change (contents : Nat → TcpSendBuffer)

variable {cnum : Nat}

def create (sbm : SBManager) (null : Nat × TcpSendBuffer) : Pool cnum where
  sbm := sbm
  chunks := cnum
  curNum := 0
  freeq := createSBQueue null cnum
  owned := []

def step (p : Pool cnum) : Call → Pool cnum
  | .sbInit granted chunk initSeq =>
    match p.freeq.sbDequeue with
    | (some (number, buf), freeq) =>
      { p with freeq, owned := (number, sbInit p.sbm buf.data initSeq) :: p.owned }
    | (none, freeq) =>
      if granted ∧ 0 < p.chunks then { p with
        freeq
        chunks := p.chunks - 1
        curNum := p.curNum + 1
        owned := (p.curNum, sbInit p.sbm chunk initSeq) :: p.owned }
      else { p with freeq }
  | .sbFree index =>
    match p.owned[index]? with
    | none => p
    | some buf => { p with freeq := (p.freeq.sbEnqueue buf).2, owned := p.owned.eraseIdx index }
  | .change contents => { p with owned := p.owned.map fun (number, _) => (number, contents number) }

def Pool.numbers (p : Pool cnum) : List Nat := (p.owned ++ p.freeq.items).map Prod.fst

/-- Every buffer that was created belongs to one stream or is free, and what was not created is left
in `mp`. -/
structure Conserved (p : Pool cnum) : Prop where
  created : p.curNum + p.chunks = cnum
  shared : p.numbers.Perm (List.range p.curNum)

/-- `SBInit` gives out a buffer, an empty one, as long as there is a free one or memory for a new
one. -/
def Pool.Supplies (p : Pool cnum) (granted : Bool) (chunk : List UInt8) (initSeq : UInt32) : Prop :=
  if p.freeq.items ≠ [] ∨ granted ∧ 0 < p.chunks then
    ∃ number buf, (step p (.sbInit granted chunk initSeq)).owned = (number, buf) :: p.owned ∧
      buf.len = 0 ∧ buf.headSeq = initSeq ∧ buf.initSeq = initSeq
  else (step p (.sbInit granted chunk initSeq)).owned = p.owned

variable {p : Pool cnum}

theorem Conserved.room (conserved : Conserved p) {buf} (member : buf ∈ p.owned) :
    p.freeq.items.length < cnum := by
  have total := conserved.shared.length_eq
  have created := conserved.created
  have positive := List.length_pos_of_mem member
  rw [Pool.numbers, List.length_map, List.length_append, List.length_range] at total
  omega

theorem step_conserved (conserved : Conserved p) (call : Call) : Conserved (step p call) := by
  have created := conserved.created
  have shared := conserved.shared
  unfold Pool.numbers at shared
  cases call with
  | sbInit granted chunk initSeq =>
    obtain ⟨front, rest⟩ := p.freeq.sbDequeue_spec
    rw [step]
    split <;> rename_i dequeued <;> rw [dequeued] at front rest
    · obtain ⟨later, items⟩ := List.head?_eq_some_iff.mp front.symm
      refine ⟨created, .trans ?_ shared⟩
      rw [Pool.numbers, rest, items, List.map_append, List.map_append]
      exact List.perm_middle.symm
    · have empty : p.freeq.items = [] := List.head?_eq_none_iff.mp front.symm
      dsimp only at rest
      rw [empty, List.tail_nil] at rest
      rw [empty] at shared
      split
      · rename_i able
        refine ⟨by dsimp only; omega, ?_⟩
        rw [Pool.numbers, rest, List.range_succ]
        exact (shared.cons _).trans (List.perm_append_singleton _ _).symm
      · refine ⟨created, ?_⟩
        rwa [Pool.numbers, rest]
  | sbFree index =>
    rw [step]
    split
    · exact conserved
    · rename_i buf has
      obtain ⟨inside, rfl⟩ := List.getElem?_eq_some_iff.mp has
      have pushed := (p.freeq.sbEnqueue_spec p.owned[index] (conserved.room (List.getElem_mem inside))).2
      refine ⟨created, .trans ?_ shared⟩
      rw [Pool.numbers, pushed, ← List.append_assoc]
      refine List.Perm.map _ ((List.perm_append_singleton _ _).trans ?_)
      exact (List.getElem_cons_eraseIdx_perm inside).append_right _
  | change contents =>
    refine ⟨created, ?_⟩
    simpa [step, Pool.numbers, Function.comp_def] using shared

theorem run_conserved (conserved : Conserved p) (calls : List Call) : Conserved (calls.foldl step p) := by
  induction calls generalizing p with
  | nil => exact conserved
  | cons call calls ih => exact ih (step_conserved conserved call)

theorem supplies (p : Pool cnum) (granted : Bool) (chunk : List UInt8) (initSeq : UInt32) :
    p.Supplies granted chunk initSeq := by
  have front := p.freeq.sbDequeue_spec.1
  rcases dequeued : p.freeq.sbDequeue with ⟨_ | ⟨number, buf⟩, freeq⟩
  all_goals
    rw [dequeued] at front
    simp only [Pool.Supplies, step, dequeued]
  · rw [List.head?_eq_none_iff.mp front.symm]
    split
    · rename_i able
      rw [if_pos (able.resolve_left (· rfl))]
      exact ⟨_, _, rfl, rfl, rfl, rfl⟩
    · rename_i unable
      rw [if_neg fun able => unable (.inr able)]
  · rw [if_pos (.inl (List.ne_nil_of_mem (List.mem_of_mem_head? front.symm)))]
    exact ⟨_, _, rfl, rfl, rfl, rfl⟩

/-- At most `cnum` buffers are created, each is in one place, `SBEnqueue` has room for each that is
owned, and each starts empty. -/
theorem send_buffers_recycled (sbm : SBManager) (null : Nat × TcpSendBuffer) (calls : List Call) :
    let p : Pool cnum := calls.foldl step (create sbm null)
    Conserved p ∧ p.curNum ≤ cnum ∧ p.numbers.Nodup ∧
      (∀ buf ∈ p.owned, (p.freeq.sbEnqueue buf).1 = 0) ∧
      ∀ granted chunk initSeq, p.Supplies granted chunk initSeq := by
  intro p
  have start : Conserved (create sbm null : Pool cnum) := by
    have empty : (createSBQueue null cnum).items = [] := (contents_eq_nil _ _ _).mpr rfl
    exact ⟨Nat.zero_add _, by simp [Pool.numbers, create, empty]⟩
  have conserved : Conserved p := run_conserved start calls
  refine ⟨conserved, Nat.le.intro conserved.created,
    conserved.shared.nodup_iff.mpr List.nodup_range, fun buf member => ?_, supplies p⟩
  exact (p.freeq.sbEnqueue_spec buf (conserved.room member)).1

end Mcc.SendBufferPool
