import Mathlib

/-!
A first-in first-out queue with a fixed number of slots. A push takes as many of the offered items
as fit and gives back the others.
-/

structure BoundedFifo (α : Type*) (capacity : Nat) where
  items : List α
  bounded : items.length ≤ capacity

namespace BoundedFifo

variable {α : Type*} {capacity : Nat}

def empty : BoundedFifo α capacity := ⟨[], Nat.zero_le _⟩

def free (fifo : BoundedFifo α capacity) : Nat := capacity - fifo.items.length

def push (fifo : BoundedFifo α capacity) (offered : List α) : BoundedFifo α capacity × List α :=
  (⟨fifo.items ++ offered.take fifo.free, by
      have bound := fifo.bounded
      simp only [List.length_append, List.length_take, free]
      omega⟩,
    offered.drop fifo.free)

def pop (fifo : BoundedFifo α capacity) : Option (α × BoundedFifo α capacity) :=
  match isItems : fifo.items with
  | [] => none
  | first :: rest => some (first, ⟨rest, by
      have bound := fifo.bounded
      rw [isItems, List.length_cons] at bound
      exact Nat.le_of_succ_le bound⟩)

def popMany (fifo : BoundedFifo α capacity) (limit : Nat) : List α × BoundedFifo α capacity :=
  (fifo.items.take limit, ⟨fifo.items.drop limit, by
    have bound := fifo.bounded
    rw [List.length_drop]
    omega⟩)

section

variable (fifo : BoundedFifo α capacity)

theorem push_contents (offered : List α) :
    (fifo.push offered).1.items ++ (fifo.push offered).2 = fifo.items ++ offered := by
  simp [push]

theorem push_rest (offered : List α) :
    (fifo.push offered).2.length = offered.length - (capacity - fifo.items.length) := by
  simp [push, free]

theorem pop_some {fifo rest : BoundedFifo α capacity} {first : α}
    (popped : fifo.pop = some (first, rest)) : fifo.items = first :: rest.items := by
  unfold pop at popped
  split at popped
  · cases popped
  · rename_i isItems
    cases popped
    exact isItems

theorem pop_none {fifo : BoundedFifo α capacity} (popped : fifo.pop = none) : fifo.items = [] := by
  unfold pop at popped
  split at popped
  · assumption
  · cases popped

end

end BoundedFifo
