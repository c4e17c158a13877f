import Mathlib

/-!
A bounded first-in first-out queue kept in a ring of slots. One slot always stays free, so that
equal indices mean an empty queue.
-/

namespace RingQueue

variable {α : Type*} {size : Nat}

def next (index : Fin size) : Fin size := ⟨(index.val + 1) % size, Nat.mod_lt _ index.pos⟩

def distance (start stop : Fin size) : Nat := (stop.val + size - start.val) % size

def slot (start : Fin size) (index : Nat) : Fin size :=
  ⟨(start.val + index) % size, Nat.mod_lt _ start.pos⟩

def contents (slots : Vector α size) (start stop : Fin size) : List α :=
  (List.range (distance start stop)).map fun index => slots[slot start index]

theorem val_next (index : Fin size) :
    (next index).val = if index.val + 1 = size then 0 else index.val + 1 := by
  have bound := index.isLt
  simp only [next]
  split
  · rename_i last
    rw [last, Nat.mod_self]
  · exact Nat.mod_eq_of_lt (by omega)

theorem distance_eq (start stop : Fin size) :
    distance start stop =
      if start.val ≤ stop.val then stop.val - start.val else stop.val + size - start.val := by
  have startBound := start.isLt
  have stopBound := stop.isLt
  simp only [distance]
  split
  · rw [Nat.mod_eq_sub_mod (by omega), Nat.mod_eq_of_lt (by omega)]
    omega
  · exact Nat.mod_eq_of_lt (by omega)

theorem val_slot (start : Fin size) {index : Nat} (bound : index < size) :
    (slot start index).val =
      if start.val + index < size then start.val + index else start.val + index - size := by
  have startBound := start.isLt
  simp only [slot]
  split
  · exact Nat.mod_eq_of_lt (by omega)
  · rw [Nat.mod_eq_sub_mod (by omega), Nat.mod_eq_of_lt (by omega)]

theorem distance_lt (start stop : Fin size) : distance start stop < size :=
  Nat.mod_lt _ start.pos

section

variable (slots : Vector α size)

section

variable (start stop : Fin size)

theorem length_contents : (contents slots start stop).length = distance start stop := by
  simp [contents]

theorem length_contents_lt : (contents slots start stop).length < size := by
  rw [length_contents]
  exact distance_lt start stop

theorem contents_eq_nil : contents slots start stop = [] ↔ stop = start := by
  have startBound := start.isLt
  have stopBound := stop.isLt
  rw [← List.length_eq_zero_iff, length_contents, distance_eq, Fin.ext_iff]
  split <;> omega

theorem next_eq_start : next stop = start ↔ (contents slots start stop).length + 1 = size := by
  have startBound := start.isLt
  have stopBound := stop.isLt
  rw [length_contents, distance_eq, Fin.ext_iff, val_next]
  split <;> split <;> omega

theorem contents_set (value : α) :
    contents (slots.set stop.val value stop.isLt) start stop = contents slots start stop := by
  have startBound := start.isLt
  have stopBound := stop.isLt
  apply List.map_congr_left
  intro index member
  have bound := List.mem_range.mp member
  have within := distance_lt start stop
  have other : stop.val ≠ (slot start index).val := by
    rw [val_slot start (by omega)]
    rw [distance_eq] at bound
    split at bound <;> split <;> omega
  simp [other]

theorem contents_next (room : next stop ≠ start) :
    contents slots start (next stop) = contents slots start stop ++ [slots.get stop] := by
  have startBound := start.isLt
  have stopBound := stop.isLt
  have stopValue := val_next stop
  have apart : ¬((next stop).val = start.val) := fun same => room (Fin.ext same)
  have grown : distance start (next stop) = distance start stop + 1 := by
    rw [distance_eq, distance_eq]
    split at stopValue <;> split <;> split <;> omega
  have within := distance_lt start stop
  have last : slot start (distance start stop) = stop := by
    rw [Fin.ext_iff, val_slot start within, distance_eq]
    split <;> split <;> omega
  simp [contents, grown, List.range_succ, last, Vector.get_eq_getElem]

theorem contents_push (value : α) (room : next stop ≠ start) :
    contents (slots.set stop.val value stop.isLt) start (next stop) =
      contents slots start stop ++ [value] := by
  rw [contents_next _ _ _ room, contents_set, Vector.get_eq_getElem, Vector.getElem_set_self]

theorem contents_pop (pending : stop ≠ start) :
    contents slots start stop = slots.get start :: contents slots (next start) stop := by
  have startBound := start.isLt
  have stopBound := stop.isLt
  have startValue := val_next start
  have apart : ¬(stop.val = start.val) := fun same => pending (Fin.ext same)
  have shrunk : distance start stop = distance (next start) stop + 1 := by
    rw [distance_eq, distance_eq]
    split at startValue <;> split <;> split <;> omega
  have first : slot start 0 = start := by
    rw [Fin.ext_iff, val_slot start start.pos]
    simp [startBound]
  simp only [contents, shrunk, List.range_succ_eq_map, List.map_cons, List.map_map, first]
  congr 1
  apply List.map_congr_left
  intro index member
  have bound := List.mem_range.mp member
  have within := distance_lt start stop
  have same : slot start (index + 1) = slot (next start) index := by
    rw [Fin.ext_iff, val_slot start (by omega), val_slot (next start) (by omega), startValue]
    split <;> split <;> split <;> omega
  simp [same]

end

end

end RingQueue
