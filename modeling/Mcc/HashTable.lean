import Mcc.TailQueue

/-!
Hash tables with a list of items in each bin. An item is hung into the bin of its key, but the key
stays with the item and is read there again whenever the bin is searched.
-/

namespace HashTable

variable {α κ ε : Type}

def insert (hash : κ → Nat) (table : Nat → List α) (item : α) (key : κ) : Nat → List α :=
  Function.update table (hash key) (table (hash key) ++ [item])

def remove [DecidableEq α] (hash : κ → Nat) (table : Nat → List α) (item : α) (key : κ) :
    Nat → List α :=
  Function.update table (hash key) ((table (hash key)).erase item)

def search [DecidableEq κ] (hash : κ → Nat) (keyOf : α → Except ε κ) (table : Nat → List α)
    (key : κ) : Except ε (Option α) :=
  (table (hash key)).findM? fun item => (keyOf item).map fun found => decide (found = key)

structure Indexes (hash : κ → Nat) (keyOf : α → Except ε κ) (table : Nat → List α) : Prop where
  mem_iff : ∀ bin item, item ∈ table bin ↔ ∃ key, keyOf item = .ok key ∧ hash key = bin
  nodup : ∀ bin, (table bin).Nodup

variable {hash : κ → Nat} {keyOf : α → Except ε κ} {table : Nat → List α} {item : α} {key : κ}

theorem indexes_empty (keyless : ∀ item key, keyOf item ≠ .ok key) : Indexes hash keyOf fun _ => [] where
  mem_iff _ item := ⟨nofun, fun ⟨key, has, _⟩ => absurd has (keyless item key)⟩
  nodup _ := List.nodup_nil

theorem Indexes.insert [DecidableEq α] {after : α → Except ε κ} (indexes : Indexes hash keyOf table)
    (isNew : ∀ key, keyOf item ≠ .ok key) (has : after item = .ok key)
    (others : ∀ other, other ≠ item → after other = keyOf other) :
    Indexes hash after (insert hash table item key) := by
  have absent : ∀ bin, item ∉ table bin := by
    intro bin member
    obtain ⟨key, hasKey, -⟩ := (indexes.mem_iff bin item).mp member
    exact isNew key hasKey
  constructor
  · intro bin other
    rw [HashTable.insert, Function.update_apply]
    by_cases same : other = item
    · subst same
      rw [has]
      constructor
      · intro member
        split at member
        · next here => exact ⟨key, rfl, here.symm⟩
        · exact absurd member (absent bin)
      · rintro ⟨_, hasKey, rfl⟩
        cases hasKey
        simp
    · rw [others other same, ← indexes.mem_iff bin other]
      split
      · next here => simp [here, same]
      · rfl
  · intro bin
    rw [HashTable.insert, Function.update_apply]
    split
    · exact List.nodup_append.mpr ⟨indexes.nodup _, List.nodup_singleton _, fun other member last isLast =>
        fun same => absent _ (List.mem_singleton.mp isLast ▸ same ▸ member)⟩
    · exact indexes.nodup bin

theorem Indexes.remove [DecidableEq α] {after : α → Except ε κ} (indexes : Indexes hash keyOf table)
    (has : keyOf item = .ok key) (gone : ∀ key, after item ≠ .ok key)
    (others : ∀ other, other ≠ item → after other = keyOf other) :
    Indexes hash after (remove hash table item key) := by
  constructor
  · intro bin other
    rw [HashTable.remove, Function.update_apply]
    by_cases same : other = item
    · subst same
      constructor
      · intro member
        split at member
        · exact absurd rfl ((List.Nodup.mem_erase_iff (indexes.nodup _)).mp member).1
        · next elsewhere =>
          obtain ⟨found, hasKey, isBin⟩ := (indexes.mem_iff bin other).mp member
          cases has.symm.trans hasKey
          exact absurd isBin.symm elsewhere
      · rintro ⟨found, hasKey, -⟩
        exact absurd hasKey (gone found)
    · rw [others other same, ← indexes.mem_iff bin other]
      split
      · next here => rw [here, List.Nodup.mem_erase_iff (indexes.nodup _), and_iff_right same]
      · rfl
  · intro bin
    rw [HashTable.remove, Function.update_apply]
    split
    · exact (indexes.nodup _).erase item
    · exact indexes.nodup bin

variable [DecidableEq κ]

theorem Indexes.search (indexes : Indexes hash keyOf table) (key : κ) :
    (∃ item, search hash keyOf table key = .ok (some item) ∧ keyOf item = .ok key) ∨
      search hash keyOf table key = .ok none ∧ ∀ item, keyOf item ≠ .ok key := by
  have read : ∀ item ∈ table (hash key), ∃ found, keyOf item = .ok found := fun item member =>
    let ⟨found, has, _⟩ := (indexes.mem_iff _ item).mp member
    ⟨found, has⟩
  unfold HashTable.search
  rcases TailQueue.findM?_cases (table (hash key))
      fun item => (keyOf item).map fun found => decide (found = key) with
    ⟨item, before, after, done, wanted, isBin⟩ | ⟨done, others⟩ | ⟨error, -, item, member, failed⟩
  · obtain ⟨found, has⟩ := read item (isBin ▸ by simp)
    rw [has] at wanted
    have same : found = key := of_decide_eq_true (Except.ok.inj wanted)
    exact .inl ⟨item, done, same ▸ has⟩
  · refine .inr ⟨done, fun item has => ?_⟩
    have differs := others item ((indexes.mem_iff _ item).mpr ⟨key, has, rfl⟩)
    rw [has] at differs
    exact of_decide_eq_false (Except.ok.inj differs) rfl
  · obtain ⟨found, has⟩ := read item member
    rw [has] at failed
    cases failed

theorem Indexes.search_iff (indexes : Indexes hash keyOf table)
    (unique : ∀ item other, keyOf item = .ok key → keyOf other = .ok key → item = other) :
    HashTable.search hash keyOf table key = .ok (some item) ↔ keyOf item = .ok key := by
  rcases indexes.search key with ⟨found, done, has⟩ | ⟨done, absent⟩
  · rw [done]
    refine ⟨fun same => ?_, fun hasKey => ?_⟩
    · cases same
      exact has
    · rw [unique item found hasKey has]
  · rw [done]
    exact ⟨nofun, fun has => absurd has (absent item)⟩

end HashTable
