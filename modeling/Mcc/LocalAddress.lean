import Mathlib

/-!
The local addresses of the POSIX connector: pairs are taken from the pool until one can be bound, and
the pool reads past its addresses once they are used up.
-/

namespace Mcc.PosixConnector

def portStart : Nat := 1025
def portEnd : Nat := 65530

structure AddrPool where
  ips : Nat
  ipIndex : Nat
  portIndex : Nat
  given : List (Nat × Nat)

/-- `none` where the index into `ips` is out of range: `engine().stop()` does not leave the call. -/
def AddrPool.get (pool : AddrPool) : Option AddrPool :=
  let (ipIndex, portIndex) :=
    if portEnd ≤ pool.portIndex then (pool.ipIndex + 1, portStart)
    else (pool.ipIndex, (pool.portIndex + 1) % 2 ^ 16)
  if ipIndex < pool.ips then
    some { pool with ipIndex, portIndex, given := (ipIndex, pool.portIndex) :: pool.given }
  else none

/-- `connect` and `reconnect`, where `binds` tells which attempts to bind a pair succeed. -/
def connect (binds : Nat → Bool) : Nat → AddrPool → Option AddrPool
  | 0, _ => none
  | fuel + 1, pool => pool.get.bind fun next =>
    if binds pool.given.length then some next else connect binds fuel next

def connects (binds : Nat → Bool) (fuel ips : Nat) : Nat → Option AddrPool
  | 0 => some ⟨ips, 0, portStart, []⟩
  | calls + 1 => (connects binds fuel ips calls).bind (connect binds fuel)

def pairAt (k : Nat) : Nat × Nat := ((k + 1) / 64506, portStart + k % 64506)

def poolAt (ips k : Nat) : AddrPool :=
  ⟨ips, k / 64506, portStart + k % 64506, ((List.range k).map pairAt).reverse⟩

def limit (ips : Nat) : Nat := 64506 * ips - 1

variable {binds : Nat → Bool} {fuel ips k calls : Nat} {next : AddrPool}

theorem pairAt_injective : Function.Injective pairAt := by
  intro i k same
  obtain ⟨sameIp, samePort⟩ := Prod.mk.inj same
  omega

@[simp]
theorem length_given : (poolAt ips k).given.length = k := by
  simp [poolAt]

theorem get_poolAt : (poolAt ips k).get = if k < limit ips then some (poolAt ips (k + 1)) else none := by
  have moves : (if portEnd ≤ portStart + k % 64506 then (k / 64506 + 1, portStart)
      else (k / 64506, (portStart + k % 64506 + 1) % 2 ^ 16)) =
        ((k + 1) / 64506, portStart + (k + 1) % 64506) := by
    unfold portEnd portStart
    split <;> refine Prod.ext ?_ ?_ <;> dsimp only <;> omega
  have valid : (k + 1) / 64506 < ips ↔ k < limit ips := by
    unfold limit
    omega
  have given : ((List.range (k + 1)).map pairAt).reverse =
      pairAt k :: ((List.range k).map pairAt).reverse := by
    rw [List.range_succ, List.map_append, List.reverse_append]
    rfl
  unfold AddrPool.get poolAt
  rw [moves, given]
  simp only [valid, pairAt]

theorem connect_sound (done : connect binds fuel (poolAt ips k) = some next) :
    ∃ j ≤ limit ips, next = poolAt ips j ∧ Nat.count (binds ·) j = Nat.count (binds ·) k + 1 := by
  induction fuel generalizing k with
  | zero => cases done
  | succ fuel ih =>
    rw [connect, get_poolAt, length_given] at done
    have more := Nat.count_succ (binds ·) k
    split at done
    · rename_i room
      rw [Option.bind_some] at done
      split at done
      · rename_i binding
        cases done
        exact ⟨k + 1, room, rfl, by rw [more, if_pos binding]⟩
      · rename_i failing
        obtain ⟨j, within, isNext, count⟩ := ih done
        exact ⟨j, within, isNext, by rw [count, more, if_neg failing]⟩
    · cases done

theorem connect_complete (enough : limit ips ≤ k + fuel)
    (free : Nat.count (binds ·) k < Nat.count (binds ·) (limit ips)) :
    ∃ next, connect binds fuel (poolAt ips k) = some next := by
  induction fuel generalizing k with
  | zero => exact absurd ((Nat.count_monotone (binds ·)).reflect_lt free) (Nat.not_lt.mpr enough)
  | succ fuel ih =>
    rw [connect, get_poolAt, length_given, if_pos ((Nat.count_monotone _).reflect_lt free),
      Option.bind_some]
    split
    · exact ⟨_, rfl⟩
    · rename_i failing
      exact ih (by omega) (by rwa [Nat.count_succ, if_neg failing])

theorem connects_sound (done : connects binds fuel ips calls = some next) :
    ∃ k ≤ limit ips, next = poolAt ips k ∧ Nat.count (binds ·) k = calls := by
  induction calls generalizing next with
  | zero =>
    cases done
    exact ⟨0, Nat.zero_le _, rfl, rfl⟩
  | succ calls ih =>
    obtain ⟨pool, earlier, last⟩ := Option.bind_eq_some_iff.mp done
    obtain ⟨k, -, rfl, count⟩ := ih earlier
    rw [← count]
    exact connect_sound last

theorem addresses_iff (binds : Nat → Bool) (ips calls : Nat) :
    (∃ fuel pool, connects binds fuel ips calls = some pool ∧ pool.given.Nodup ∧
      ∀ pair ∈ pool.given, portStart ≤ pair.2 ∧ pair.2 ≤ portEnd) ↔
    calls ≤ Nat.count (binds ·) (64506 * ips - 1) := by
  constructor
  · rintro ⟨fuel, pool, done, -⟩
    obtain ⟨k, within, -, rfl⟩ := connects_sound done
    exact Nat.count_monotone _ within
  · intro enough
    obtain ⟨pool, done⟩ : ∃ pool, connects binds (limit ips) ips calls = some pool := by
      induction calls with
      | zero => exact ⟨_, rfl⟩
      | succ calls ih =>
        obtain ⟨pool, earlier⟩ := ih (Nat.le_of_succ_le enough)
        obtain ⟨k, -, rfl, count⟩ := connects_sound earlier
        rw [connects, earlier]
        exact connect_complete (Nat.le_add_left _ _) (count ▸ enough)
    obtain ⟨k, -, rfl, -⟩ := connects_sound done
    refine ⟨_, _, done, List.nodup_reverse.mpr (List.nodup_range.map pairAt_injective), ?_⟩
    intro pair given
    obtain ⟨i, -, rfl⟩ := List.mem_map.mp (List.mem_reverse.mp given)
    dsimp only [pairAt, portStart, portEnd]
    omega

theorem addresses_missing : ¬∃ fuel pool, connects (fun _ => true) fuel 0 1 = some pool := by
  rintro ⟨_ | fuel, pool, done⟩ <;> cases done

end Mcc.PosixConnector
