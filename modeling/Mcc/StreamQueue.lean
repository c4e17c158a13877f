import Mcc.RingQueue

/-!
The queues of streams, `tcp_stream_queue.c`. In the one between an application and the stack the
producer writes a slot before it moves the tail, the consumer reads one before it moves the head, and
each may go on with an index of the other that is no longer the current one. The internal one is used
by the stack alone.
-/

namespace Mcc.StreamQueue

open RingQueue

variable {α : Type} {capacity : Nat}

def nextIndex (i : Fin (capacity + 1)) : Fin (capacity + 1) := if i.val ≠ capacity then i + 1 else 0

inductive Producer (α : Type) (capacity : Nat) where
  | idle
  | readHead (stream : α) (h : Fin (capacity + 1)) (held : Nat)
  | write (stream : α) (t : Fin (capacity + 1))
  | moveTail (stream : α) (t : Fin (capacity + 1))

inductive Consumer (α : Type) (capacity : Nat) where
  | idle
  | readHead (h : Fin (capacity + 1))
  | read (h : Fin (capacity + 1))
  | moveHead (stream : α) (h : Fin (capacity + 1))

/-- The queue, the streams passed to `StreamEnqueue`, the result of each of its calls that is over, the
number of calls of `StreamDequeue` and what they returned. A call that fails tells how many streams the
queue held when it read the head or the tail. -/
structure State (α : Type) (capacity : Nat) where
  q : Vector α (capacity + 1)
  head : Fin (capacity + 1)
  tail : Fin (capacity + 1)
  producer : Producer α capacity
  consumer : Consumer α capacity
  offered : List α
  results : List (α × Option Nat)
  asked : Nat
  returned : List (Except Nat α)

def State.holds (s : State α capacity) : List α := contents s.q s.head s.tail

def State.enqueued (s : State α capacity) : List α :=
  (s.results.filter fun result => result.2.isNone).map Prod.fst

def State.dequeued (s : State α capacity) : List α := s.returned.filterMap Except.toOption

def create (null : α) (capacity : Nat) : State α capacity :=
  ⟨.replicate _ null, 0, 0, .idle, .idle, [], [], 0, []⟩

def produce (s : State α capacity) : State α capacity :=
  match s.producer with
  | .idle => s
  | .readHead stream h held =>
    if nextIndex s.tail ≠ h then { s with producer := .write stream s.tail }
    else { s with producer := .idle, results := s.results ++ [(stream, some held)] }
  | .write stream t =>
    { s with q := s.q.set t.val stream t.isLt, producer := .moveTail stream t }
  | .moveTail stream t =>
    { s with tail := nextIndex t, producer := .idle, results := s.results ++ [(stream, none)] }

def consume (s : State α capacity) : State α capacity :=
  match s.consumer with
  | .idle => s
  | .readHead h =>
    if h ≠ s.tail then { s with consumer := .read h }
    else { s with consumer := .idle, returned := s.returned ++ [.error s.holds.length] }
  | .read h => { s with consumer := .moveHead (s.q.get h) h }
  | .moveHead stream h =>
    { s with head := nextIndex h, consumer := .idle, returned := s.returned ++ [.ok stream] }

inductive Step (α : Type) where
  | enqueue (stream : α)
  | produce
  | dequeue
  | consume

/-- Both calls start with the read of the head. -/
def step (s : State α capacity) : Step α → State α capacity
  | .enqueue stream =>
    match s.producer with
    | .idle => { s with
        producer := .readHead stream s.head s.holds.length, offered := s.offered ++ [stream] }
    | _ => s
  | .produce => produce s
  | .dequeue =>
    match s.consumer with
    | .idle => { s with consumer := .readHead s.head, asked := s.asked + 1 }
    | _ => s
  | .consume => consume s

def Producer.pending : Producer α capacity → List α
  | .idle => []
  | .readHead stream _ _ | .write stream _ | .moveTail stream _ => [stream]

def Producer.left : Producer α capacity → Nat
  | .idle => 0
  | .readHead .. => 3
  | .write .. => 2
  | .moveTail .. => 1

def Consumer.left : Consumer α capacity → Nat
  | .idle => 0
  | .readHead _ => 3
  | .read _ => 2
  | .moveHead .. => 1

/-- Every stream offered is stored or refused, but for that of the call being made; those stored leave
in their order, none is lost or read before it is there; and a call fails only when the queue was full
or empty. -/
structure Ledger (s : State α capacity) : Prop where
  calls : s.offered = s.results.map Prod.fst ++ s.producer.pending
  asked : s.asked = s.returned.length + min 1 s.consumer.left
  order : s.enqueued = s.dequeued ++ s.holds
  refused : ∀ stream held, (stream, some held) ∈ s.results → held = capacity
  missed : ∀ held, .error held ∈ s.returned → held = 0

/-- Each step of a side takes its call, which has at most three, nearer to its end. -/
structure Fifo (s : State α capacity) : Prop extends Ledger s where
  bounded : s.holds.length ≤ capacity
  stores : (produce s).producer.left ≤ s.producer.left - 1 ∧ (consume s).producer = s.producer
  returns : (consume s).consumer.left ≤ s.consumer.left - 1 ∧ (produce s).consumer = s.consumer

def Producer.Sound (s : State α capacity) : Producer α capacity → Prop
  | .idle => True
  | .readHead _ h held => (nextIndex s.tail = h → held = capacity) ∧
    (nextIndex s.tail ≠ h → nextIndex s.tail ≠ s.head)
  | .write _ t => t = s.tail ∧ nextIndex t ≠ s.head
  | .moveTail stream t => t = s.tail ∧ nextIndex t ≠ s.head ∧ s.q.get t = stream

def Consumer.Sound (s : State α capacity) : Consumer α capacity → Prop
  | .idle => True
  | .readHead h => h = s.head
  | .read h => h = s.head ∧ h ≠ s.tail
  | .moveHead stream h => h = s.head ∧ h ≠ s.tail ∧ s.q.get h = stream

structure Sound (s : State α capacity) : Prop extends Ledger s where
  producer : s.producer.Sound s
  consumer : s.consumer.Sound s

theorem nextIndex_eq (i : Fin (capacity + 1)) : nextIndex i = next i := by
  have bound := i.isLt
  rw [Fin.ext_iff, val_next, nextIndex]
  by_cases last : i.val = capacity
  · simp [last]
  · rw [if_pos last, if_neg (by omega), Fin.val_add_one_of_lt (by simp [Fin.lt_def]; omega)]

theorem nextIndex_injective : Function.Injective (@nextIndex capacity) := by
  intro i j same
  rw [nextIndex_eq, nextIndex_eq, Fin.ext_iff, val_next, val_next] at same
  rw [Fin.ext_iff]
  split at same <;> split at same <;> omega

section

variable {s : State α capacity} (sound : Sound s)
include sound

theorem enqueue_sound (stream : α) : Sound (step s (.enqueue stream)) := by
  rw [step]
  split
  · rename_i idle
    have calls := sound.calls
    rw [idle, Producer.pending, List.append_nil] at calls
    refine { sound with calls := congrArg (· ++ [stream]) calls, producer := ⟨fun full => ?_, id⟩ }
    exact Nat.succ.inj ((next_eq_start s.q s.head s.tail).mp (nextIndex_eq s.tail ▸ full))
  · exact sound

theorem dequeue_sound : Sound (step s .dequeue) := by
  rw [step]
  split
  · rename_i idle
    have asked := sound.asked
    rw [idle] at asked
    exact { sound with asked := congrArg (· + 1) asked, consumer := rfl }
  · exact sound

theorem produce_sound : Sound (produce s) := by
  have calls := sound.calls
  have producer := sound.producer
  have consumer := sound.consumer
  unfold produce
  split <;> rename_i place <;> rw [place] at producer calls
  · exact sound
  · split
    · rename_i room
      exact { sound with calls := calls, producer := ⟨rfl, producer.2 room⟩ }
    · rename_i stream h held full
      refine { sound with calls := ?_, order := ?_, producer := trivial, refused := ?_ }
      · simpa [Producer.pending] using calls
      · have order := sound.order
        simp only [State.enqueued, State.dequeued, State.holds] at order ⊢
        simpa using order
      · intro other count member
        rcases List.mem_append.mp member with old | new
        · exact sound.refused other count old
        · cases List.mem_singleton.mp new
          exact producer.1 (not_not.mp full)
  · obtain ⟨rfl, room⟩ := producer
    refine { sound with
      calls := calls, order := ?_, consumer := ?_
      producer := ⟨rfl, room, Vector.getElem_set_self s.tail.isLt⟩ }
    · rw [State.holds, contents_set]
      exact sound.order
    · cases reader : s.consumer <;> rw [reader] at consumer
      case moveHead =>
        obtain ⟨rfl, pending, rfl⟩ := consumer
        have apart : s.tail.val ≠ s.head.val := fun same => pending (Fin.ext same.symm)
        exact ⟨rfl, pending, Vector.getElem_set_ne s.tail.isLt s.head.isLt apart⟩
      all_goals exact consumer
  · obtain ⟨rfl, room, rfl⟩ := producer
    refine { sound with
      calls := ?_, order := ?_, refused := ?_, producer := trivial, consumer := ?_ }
    · simpa [Producer.pending] using calls
    · have grown : contents s.q s.head (nextIndex s.tail) = s.holds ++ [s.q.get s.tail] := by
        rw [nextIndex_eq, contents_next _ _ _ (nextIndex_eq s.tail ▸ room)]
        rfl
      have order := sound.order
      simp only [State.enqueued, State.dequeued, State.holds] at order grown ⊢
      simp [grown, order]
    · intro other count member
      rcases List.mem_append.mp member with old | new
      · exact sound.refused other count old
      · cases List.mem_singleton.mp new
    · cases reader : s.consumer <;> rw [reader] at consumer
      case read => exact ⟨consumer.1, consumer.1 ▸ room.symm⟩
      case moveHead => exact ⟨consumer.1, consumer.1 ▸ room.symm, consumer.2.2⟩
      all_goals exact consumer

theorem consume_sound : Sound (consume s) := by
  have asked := sound.asked
  have producer := sound.producer
  have consumer := sound.consumer
  unfold consume
  split <;> rename_i place <;> rw [place] at consumer asked
  · exact sound
  · obtain rfl := consumer
    split
    · rename_i pending
      exact { sound with asked := asked, consumer := ⟨rfl, pending⟩ }
    · rename_i same
      refine { sound with asked := ?_, order := ?_, consumer := trivial, missed := ?_ }
      · simpa [Consumer.left] using asked
      · have order := sound.order
        simp only [State.enqueued, State.dequeued, State.holds] at order ⊢
        simpa [List.filterMap_cons, Except.toOption] using order
      · intro count member
        rcases List.mem_append.mp member with old | new
        · exact sound.missed count old
        · cases List.mem_singleton.mp new
          exact congrArg List.length
            ((contents_eq_nil s.q s.head s.tail).mpr (not_not.mp same).symm)
  · exact { sound with asked := asked, consumer := ⟨consumer.1, consumer.2, rfl⟩ }
  · obtain ⟨rfl, pending, rfl⟩ := consumer
    have room : nextIndex s.tail ≠ nextIndex s.head :=
      fun same => pending (nextIndex_injective same).symm
    refine { sound with
      asked := ?_, order := ?_, missed := ?_, consumer := trivial, producer := ?_ }
    · simpa [Consumer.left] using asked
    · have order := sound.order
      simp only [State.enqueued, State.dequeued, State.holds] at order ⊢
      rw [order, contents_pop _ _ _ pending.symm, ← nextIndex_eq]
      simp [Except.toOption]
    · intro count member
      rcases List.mem_append.mp member with old | new
      · exact sound.missed count old
      · cases List.mem_singleton.mp new
    · cases writer : s.producer <;> rw [writer] at producer
      case idle => trivial
      case readHead => exact ⟨producer.1, fun _ => room⟩
      case write => exact ⟨producer.1, producer.1 ▸ room⟩
      case moveTail => exact ⟨producer.1, producer.1 ▸ room, producer.2.2⟩

theorem run_sound (steps : List (Step α)) : Sound (steps.foldl step s) := by
  induction steps generalizing s with
  | nil => exact sound
  | cons label rest ih =>
    cases label with
    | enqueue stream => exact ih (enqueue_sound sound stream)
    | produce => exact ih (produce_sound sound)
    | dequeue => exact ih (dequeue_sound sound)
    | consume => exact ih (consume_sound sound)

end

section

variable (s : State α capacity)

theorem produce_left : (produce s).producer.left ≤ s.producer.left - 1 := by
  unfold produce
  split <;> rename_i place <;> rw [place]
  case h_2 => split <;> simp [Producer.left]
  all_goals simp [Producer.left]

theorem consume_left : (consume s).consumer.left ≤ s.consumer.left - 1 := by
  unfold consume
  split <;> rename_i place <;> rw [place]
  case h_2 => split <;> simp [Consumer.left]
  all_goals simp [Consumer.left]

theorem produce_consumer : (produce s).consumer = s.consumer := by
  unfold produce
  split
  case h_2 => split <;> rfl
  all_goals rfl

theorem consume_producer : (consume s).producer = s.producer := by
  unfold consume
  split
  case h_2 => split <;> rfl
  all_goals rfl

end

structure InternalQueue (α : Type) (size : Nat) where
  array : Vector α size
  first : Nat
  last : Nat
  count : Nat

inductive Call (α : Type) where
  | enqueue (stream : α)
  | dequeue

/-- What a call returns: 0 or -1, a stream or NULL. -/
inductive Result (α : Type) where
  | stored
  | refused
  | stream (stream : α)
  | null

def createInternalStreamQueue (null : α) (size : Nat) : InternalQueue α size :=
  ⟨.replicate size null, 0, 0, 0⟩

namespace InternalQueue

variable {size : Nat}

def streamInternalEnqueue (sq : InternalQueue α size) (stream : α) : Result α × InternalQueue α size :=
  if sq.count ≥ size then (.refused, sq)
  else
    (.stored, { sq with
      array := sq.array.setIfInBounds sq.last stream
      last := if sq.last + 1 ≥ size then 0 else sq.last + 1
      count := sq.count + 1 })

def streamInternalDequeue (sq : InternalQueue α size) : Result α × InternalQueue α size :=
  if sq.count = 0 then (.null, sq)
  else
    (match sq.array[sq.first]? with
      | some stream => .stream stream
      | none => .null,
    { sq with
      first := if sq.first + 1 ≥ size then 0 else sq.first + 1
      count := sq.count - 1 })

def call (sq : InternalQueue α size) : Call α → Result α × InternalQueue α size
  | .enqueue stream => sq.streamInternalEnqueue stream
  | .dequeue => sq.streamInternalDequeue

def results (sq : InternalQueue α size) : List (Call α) → List (Result α)
  | [] => []
  | made :: rest => (sq.call made).1 :: (sq.call made).2.results rest

end InternalQueue

/-- A queue of at most `size` streams, as it should be. -/
def fifo (size : Nat) (items : List α) : Call α → Result α × List α
  | .enqueue stream =>
    if items.length < size then (.stored, items ++ [stream]) else (.refused, items)
  | .dequeue =>
    match items with
    | [] => (.null, [])
    | stream :: rest => (.stream stream, rest)

def fifoResults (size : Nat) (items : List α) : List (Call α) → List (Result α)
  | [] => []
  | made :: rest => (fifo size items made).1 :: fifoResults size (fifo size items made).2 rest

structure InternalQueue.Holds {size : Nat} (sq : InternalQueue α size) (items : List α) : Prop where
  first : sq.first = 0 ∨ sq.first < size
  last : sq.last = (sq.first + items.length) % size
  count : sq.count = items.length
  bounded : items.length ≤ size
  kept : ∀ index < items.length, sq.array[(sq.first + index) % size]? = items[index]?

namespace InternalQueue.Holds

variable {size : Nat} {sq : InternalQueue α size} {items : List α}

theorem wrapped {index : Nat} (inside : index < size) :
    (if index + 1 ≥ size then 0 else index + 1) = (index + 1) % size := by
  split
  · obtain rfl : size = index + 1 := by omega
    exact (Nat.mod_self _).symm
  · exact (Nat.mod_eq_of_lt (by omega)).symm

theorem enqueue (holds : sq.Holds items) (stream : α) :
    (sq.streamInternalEnqueue stream).1 = (fifo size items (.enqueue stream)).1 ∧
      (sq.streamInternalEnqueue stream).2.Holds (fifo size items (.enqueue stream)).2 := by
  have count := holds.count
  simp only [streamInternalEnqueue, fifo]
  by_cases room : items.length < size
  · rw [if_neg (by omega), if_pos room]
    have inside : sq.last < size := holds.last ▸ Nat.mod_lt _ (by omega)
    refine ⟨rfl, holds.first, ?_, ?_, ?_, fun index below => ?_⟩
    · dsimp only
      rw [wrapped inside, holds.last, Nat.mod_add_mod, List.length_append, List.length_singleton,
        Nat.add_assoc]
    · simp [count]
    · simpa using room
    · simp only [List.length_append, List.length_singleton] at below
      rcases Nat.lt_or_eq_of_le (Nat.le_of_lt_succ below) with old | rfl
      · have apart : sq.last ≠ (sq.first + index) % size := by
          rw [holds.last]
          intro same
          have cancelled := Nat.ModEq.add_left_cancel' sq.first same
          exact absurd (cancelled.eq_of_lt_of_lt room (by omega)) (by omega)
        rw [Vector.getElem?_setIfInBounds_ne apart, List.getElem?_append_left old]
        exact holds.kept index old
      · rw [← holds.last, Vector.getElem?_setIfInBounds_self_of_lt inside]
        simp
  · rw [if_pos (by omega), if_neg room]
    exact ⟨rfl, holds⟩

theorem dequeue (holds : sq.Holds items) :
    sq.streamInternalDequeue.1 = (fifo size items .dequeue).1 ∧
      sq.streamInternalDequeue.2.Holds (fifo size items .dequeue).2 := by
  have count := holds.count
  simp only [streamInternalDequeue, fifo]
  cases items with
  | nil =>
    rw [List.length_nil] at count
    rw [if_pos count]
    exact ⟨rfl, holds⟩
  | cons stream rest =>
    have bounded := holds.bounded
    rw [List.length_cons] at bounded count
    have inside : sq.first < size := holds.first.elim (by omega) id
    have front := holds.kept 0 (by simp)
    rw [Nat.add_zero, Nat.mod_eq_of_lt inside, List.getElem?_cons_zero] at front
    rw [if_neg (by omega), front]
    have turned : ∀ index, ((sq.first + 1) % size + index) % size = (sq.first + (index + 1)) % size := by
      intro index
      rw [Nat.mod_add_mod, Nat.add_assoc, Nat.add_comm 1]
    refine ⟨rfl, ?_, ?_, ?_, ?_, fun index below => ?_⟩
    all_goals dsimp only
    · rw [wrapped inside]
      exact .inr (Nat.mod_lt _ (by omega))
    · rw [wrapped inside, turned, holds.last, List.length_cons]
    · omega
    · omega
    · rw [wrapped inside, turned, holds.kept (index + 1) (by simpa using below)]
      rfl

theorem results (holds : sq.Holds items) (calls : List (Call α)) :
    sq.results calls = fifoResults size items calls := by
  induction calls generalizing sq items with
  | nil => rfl
  | cons made rest ih =>
    have answered : (sq.call made).1 = (fifo size items made).1 ∧
        (sq.call made).2.Holds (fifo size items made).2 := by
      cases made with
      | enqueue stream => exact holds.enqueue stream
      | dequeue => exact holds.dequeue
    rw [InternalQueue.results, fifoResults, answered.1, ih answered.2]

end InternalQueue.Holds

end Mcc.StreamQueue
