import Mcc.Rss
import Mcc.TailQueue

/-!
The pools of source addresses (`addr_pool.c`). A pool is an array of entries, each on the free list
or on the used list, and a map from addresses and ports to entries.
-/

namespace Mcc

open TailQueue

def ntohl (value : UInt32) : UInt32 :=
  let bytes := value.toNat
  UInt32.ofNat (bytes % 256 * 2 ^ 24 + bytes / 2 ^ 8 % 256 * 2 ^ 16 + bytes / 2 ^ 16 % 256 * 2 ^ 8 +
    bytes / 2 ^ 24)

def htonl (value : UInt32) : UInt32 := ntohl value

def ntohs (value : UInt16) : UInt16 :=
  UInt16.ofNat (value.toNat % 256 * 2 ^ 8 + value.toNat / 2 ^ 8)

def htons (value : UInt16) : UInt16 := ntohs value

structure SockAddr where
  sAddr : UInt32
  sinPort : UInt16
  deriving Repr, DecidableEq

def inaddrAny : UInt32 := 0

def inportAny : UInt16 := 0

inductive AddrList where
  | freeList
  | usedList
  deriving Repr, DecidableEq

structure AddrPool where
  pool : List SockAddr
  mapper : Option (Nat → Nat → Option Nat)
  addrBase : UInt32
  numAddr : Int32
  numEntry : Int
  numFree : Int
  numUsed : Int
  links : Links AddrList Nat

def minPort : Nat := 1025

def maxPort : Nat := 65536

structure PoolMemory where
  pool : List SockAddr
  mapper : Nat → Nat → Option Nat
  links : Links AddrList Nat

open PoolMemory

def PoolMemory.empty : PoolMemory where
  pool := []
  mapper _ _ := none
  links := Links.empty (.first .freeList)

def PoolMemory.addEntry (memory : PoolMemory) (capacity : Int) (numAddr : Int32) (i j : Nat)
    (addr : SockAddr) : Except Fault PoolMemory :=
  let cnt := memory.pool.length
  if cnt < capacity ∧ i < numAddr.toInt ∧ j < maxPort then
    .ok { pool := memory.pool ++ [addr]
          mapper := Function.update memory.mapper i
            (Function.update (memory.mapper i) j (some cnt))
          links := memory.links.insertTail .freeList cnt }
  else .error .outOfBounds

def PoolMemory.finish (memory : PoolMemory) (addrBase : UInt32) (numAddr : Int32) : AddrPool where
  pool := memory.pool
  mapper := some memory.mapper
  addrBase := addrBase
  numAddr := numAddr
  numEntry := memory.pool.length
  numFree := memory.pool.length
  numUsed := 0
  links := memory.links

section CreateAddressPool

/-- `calloc` of the pool and of its map, which fails for sizes that come from negative counts. -/
def callocSucceeds (granted : Bool) (numEntry numAddr : Int32) : Bool :=
  granted ∧ 0 ≤ numEntry.toInt ∧ 0 ≤ numAddr.toInt

variable (numEntry numAddr : Int32) (addrBase : UInt32)

def createPorts (i : Nat) : Nat → PoolMemory → Except Fault PoolMemory
  | 0, memory => .ok memory
  | remaining + 1, memory => do
      let j := maxPort - (remaining + 1)
      let addr := ⟨htonl (addrBase + UInt32.ofNat i), htons (UInt16.ofNat j)⟩
      let memory ← memory.addEntry numEntry.toInt numAddr i j addr
      if numEntry.toInt ≤ memory.pool.length then .ok memory
      else createPorts i remaining memory

def createAddresses : Nat → PoolMemory → Except Fault PoolMemory
  | 0, memory => .ok memory
  | remaining + 1, memory => do
      let i := numAddr.toInt.toNat - (remaining + 1)
      let memory ← createPorts numEntry numAddr addrBase i (maxPort - minPort) memory
      createAddresses remaining memory

def createAddressPool (granted : Bool) (addrBase : UInt32) (numAddr : Int32) :
    Except Fault (Option AddrPool) :=
  let numEntry := numAddr * Int32.ofNat (maxPort - minPort)
  if callocSucceeds granted numEntry numAddr then do
    let memory ← createAddresses numEntry numAddr (ntohl addrBase) numAddr.toInt.toNat .empty
    .ok (some (memory.finish (ntohl addrBase) numAddr))
  else .ok none

end CreateAddressPool

section CreateAddressPoolPerCore

structure PerCore where
  core : Int32
  numQueues : Int32
  saddrBase : UInt32
  numAddr : Int32
  daddr : UInt32
  dport : UInt16
  endianCheck : Bool
  maxConcurrency : Int32

variable (wanted : PerCore) (numEntry : Int32)

def perCorePorts (i : Nat) : Nat → PoolMemory → Except Fault (PoolMemory × Bool)
  | 0, memory => .ok (memory, false)
  | remaining + 1, memory =>
    if numEntry.toInt ≤ memory.pool.length then .ok (memory, false)
    else do
      let j := maxPort - (remaining + 1)
      let saddrH := ntohl wanted.saddrBase + UInt32.ofNat i
      let sportH := UInt16.ofNat j
      let rssCore ← getRSSCPUCore (ntohl wanted.daddr) saddrH (ntohs wanted.dport) sportH
        wanted.numQueues wanted.endianCheck
      if rssCore ≠ wanted.core then perCorePorts i remaining memory
      else do
        let memory ← memory.addEntry numEntry.toInt wanted.numAddr i j
          ⟨htonl saddrH, htons sportH⟩
        if (wanted.maxConcurrency + 20000).toInt < memory.pool.length then .ok (memory, true)
        else perCorePorts i remaining memory

def perCoreAddresses : Nat → PoolMemory → Except Fault PoolMemory
  | 0, memory => .ok memory
  | remaining + 1, memory => do
      let i := wanted.numAddr.toInt.toNat - (remaining + 1)
      let (memory, flag) ← perCorePorts wanted numEntry i (maxPort - minPort) memory
      if flag then .ok memory else perCoreAddresses remaining memory

def createAddressPoolPerCore (granted : Bool) (wanted : PerCore) :
    Except Fault (Option AddrPool) :=
  if wanted.numQueues = 0 then .error .divisionByZero
  else
    let numEntry := wanted.numAddr * Int32.ofNat (maxPort - minPort) / wanted.numQueues
    if callocSucceeds granted numEntry wanted.numAddr then do
      let memory ← perCoreAddresses wanted numEntry wanted.numAddr.toInt.toNat .empty
      .ok (some (memory.finish (ntohl wanted.saddrBase) wanted.numAddr))
    else .ok none

end CreateAddressPoolPerCore

section ByteOrder

theorem ntohl_bytes {value a b c d} (bytes : a < 256 ∧ b < 256 ∧ c < 256 ∧ d < 256)
    (same : value.toNat = a + b * 2 ^ 8 + c * 2 ^ 16 + d * 2 ^ 24) :
    (ntohl value).toNat = d + c * 2 ^ 8 + b * 2 ^ 16 + a * 2 ^ 24 := by
  have first : value.toNat % 256 = a := by omega
  have second : value.toNat / 2 ^ 8 % 256 = b := by omega
  have third : value.toNat / 2 ^ 16 % 256 = c := by omega
  have fourth : value.toNat / 2 ^ 24 = d := by omega
  simp only [ntohl, first, second, third, fourth, UInt32.toNat_ofNat']
  omega

@[simp] theorem ntohl_htonl (value : UInt32) : ntohl (htonl value) = value := by
  have inside := value.toNat_lt
  obtain ⟨a, b, c, d, bytes, same⟩ : ∃ a b c d, (a < 256 ∧ b < 256 ∧ c < 256 ∧ d < 256) ∧
      value.toNat = a + b * 2 ^ 8 + c * 2 ^ 16 + d * 2 ^ 24 :=
    ⟨value.toNat % 256, value.toNat / 2 ^ 8 % 256, value.toNat / 2 ^ 16 % 256, value.toNat / 2 ^ 24,
      by omega, by omega⟩
  refine UInt32.toNat_inj.mp ((ntohl_bytes ?_ (ntohl_bytes bytes same)).trans same.symm)
  exact ⟨bytes.2.2.2, bytes.2.2.1, bytes.2.1, bytes.1⟩

@[simp] theorem htonl_ntohl (value : UInt32) : htonl (ntohl value) = value := ntohl_htonl value

theorem ntohs_bytes {value a b} (bytes : a < 256 ∧ b < 256)
    (same : value.toNat = a + b * 2 ^ 8) : (ntohs value).toNat = b + a * 2 ^ 8 := by
  have first : value.toNat % 256 = a := by omega
  have second : value.toNat / 2 ^ 8 = b := by omega
  simp only [ntohs, first, second, UInt16.toNat_ofNat']
  omega

@[simp] theorem ntohs_htons (value : UInt16) : ntohs (htons value) = value := by
  have inside := value.toNat_lt
  obtain ⟨a, b, bytes, same⟩ : ∃ a b, (a < 256 ∧ b < 256) ∧ value.toNat = a + b * 2 ^ 8 :=
    ⟨value.toNat % 256, value.toNat / 2 ^ 8, by omega, by omega⟩
  exact UInt16.toNat_inj.mp ((ntohs_bytes bytes.symm (ntohs_bytes bytes same)).trans same.symm)

@[simp] theorem htons_ntohs (value : UInt16) : htons (ntohs value) = value := ntohs_htons value

end ByteOrder

section Recorded

def addressAt (base : UInt32) (i j : Nat) : SockAddr :=
  ⟨htonl (base + UInt32.ofNat i), htons (UInt16.ofNat j)⟩

variable {base : UInt32} {numAddr : Int32}

variable {i : Nat}

theorem offset_eq (inside : i < numAddr.toInt) : (base + UInt32.ofNat i - base).toNat = i := by
  have bound := numAddr.toInt_lt
  have word := base.toNat_lt
  have small : i < UInt32.size := by
    change i < 2 ^ 32
    omega
  rw [UInt32.toNat_sub, UInt32.toNat_add, UInt32.toNat_ofNat_of_lt' small]
  omega

variable {j : Nat}

theorem addressAt_inj {k l : Nat} (first : i < numAddr.toInt) (second : k < numAddr.toInt)
    (port : j < maxPort) (otherPort : l < maxPort) (same : addressAt base i j = addressAt base k l) :
    i = k ∧ j = l := by
  have addr := congrArg (fun addr => (ntohl addr.sAddr - base).toNat) same
  have ports := congrArg (fun addr => (ntohs addr.sinPort).toNat) same
  simp only [addressAt, ntohl_htonl, ntohs_htons] at addr ports
  rw [offset_eq first, offset_eq second] at addr
  rw [UInt16.toNat_ofNat_of_lt' port, UInt16.toNat_ofNat_of_lt' otherPort] at ports
  exact ⟨addr, ports⟩

structure Recorded (base : UInt32) (numAddr : Int32) (pool : List SockAddr)
    (mapper : Nat → Nat → Option Nat) : Prop where
  mapped : ∀ {i j entry}, mapper i j = some entry →
    i < numAddr.toInt ∧ j < maxPort ∧ pool[entry]? = some (addressAt base i j)
  covered : ∀ {entry addr}, pool[entry]? = some addr →
    ∃ i j, mapper i j = some entry ∧ addr = addressAt base i j

variable {pool : List SockAddr} {mapper : Nat → Nat → Option Nat}

section

variable (recorded : Recorded base numAddr pool mapper)
include recorded

theorem Recorded.entry_inj {one two : Nat}
    {addr : SockAddr} (first : pool[one]? = some addr) (second : pool[two]? = some addr) : one = two := by
  obtain ⟨i, j, mapped, rfl⟩ := recorded.covered first
  obtain ⟨k, l, otherMapped, same⟩ := recorded.covered second
  have here := recorded.mapped mapped
  have there := recorded.mapped otherMapped
  obtain ⟨rfl, rfl⟩ := addressAt_inj here.1 there.1 here.2.1 there.2.1 same
  exact Option.some.inj (mapped.symm.trans otherMapped)

theorem Recorded.nodup : pool.Nodup := by
  rw [List.nodup_iff_getElem?_ne_getElem?]
  intro one two less inside same
  have held : pool[one]? = some (pool[one]) := List.getElem?_eq_getElem (Nat.lt_trans less inside)
  exact Nat.ne_of_lt less (recorded.entry_inj held (same.symm.trans held))

theorem Recorded.add (unmapped : mapper i j = none) (inside : i < numAddr.toInt) (port : j < maxPort) :
    Recorded base numAddr (pool ++ [addressAt base i j])
      (Function.update mapper i (Function.update (mapper i) j (some pool.length))) := by
  have here : (Function.update mapper i (Function.update (mapper i) j (some pool.length))) i j =
      some pool.length := by simp
  have elsewhere : ∀ k l, ¬(k = i ∧ l = j) →
      (Function.update mapper i (Function.update (mapper i) j (some pool.length))) k l = mapper k l := by
    intro k l different
    by_cases same : k = i
    · subst same
      have other : l ≠ j := fun isJ => different ⟨rfl, isJ⟩
      simp [other]
    · simp [same]
  constructor
  · intro k l entry mapped
    by_cases same : k = i ∧ l = j
    · obtain ⟨rfl, rfl⟩ := same
      cases here.symm.trans mapped
      exact ⟨inside, port, by simp⟩
    · rw [elsewhere k l same] at mapped
      obtain ⟨inside, port, held⟩ := recorded.mapped mapped
      exact ⟨inside, port, (List.getElem?_append_left (List.getElem?_eq_some_iff.mp held).1).trans held⟩
  · intro entry addr held
    rcases Nat.lt_trichotomy entry pool.length with old | rfl | beyond
    · rw [List.getElem?_append_left old] at held
      obtain ⟨k, l, mapped, isAddr⟩ := recorded.covered held
      refine ⟨k, l, (elsewhere k l ?_).trans mapped, isAddr⟩
      rintro ⟨rfl, rfl⟩
      cases unmapped.symm.trans mapped
    · refine ⟨i, j, here, ?_⟩
      simpa using held.symm
    · rw [List.getElem?_eq_none (by simp; omega)] at held
      cases held

end

end Recorded

section Created

structure PoolMemory.Sound (base : UInt32) (numAddr : Int32) (chosen : SockAddr → Prop)
    (memory : PoolMemory) : Prop where
  recorded : Recorded base numAddr memory.pool memory.mapper
  free : Holds memory.links .freeList (List.range memory.pool.length)
  used : Holds memory.links .usedList []
  chosen : ∀ addr ∈ memory.pool, chosen addr

def PoolMemory.Unmapped (i j : Nat) (memory : PoolMemory) : Prop :=
  ∀ k l, i < k ∨ k = i ∧ j ≤ l → memory.mapper k l = none

variable {base : UInt32} {numAddr : Int32} {chosen : SockAddr → Prop} {memory next : PoolMemory}

theorem PoolMemory.sound_empty : empty.Sound base numAddr chosen where
  recorded := ⟨nofun, nofun⟩
  free := holds_empty _ _
  used := holds_empty _ _
  chosen := nofun

theorem PoolMemory.unmapped_empty : empty.Unmapped 0 0 := fun _ _ _ => rfl

variable {i j : Nat}

theorem PoolMemory.Unmapped.nextAddress (unmapped : memory.Unmapped i j) :
    memory.Unmapped (i + 1) 0 := fun k l later => unmapped k l (.inl (by omega))

theorem PoolMemory.addEntry_sound {capacity} (sound : memory.Sound base numAddr chosen)
    (unmapped : memory.Unmapped i j) (isChosen : chosen (addressAt base i j))
    (done : memory.addEntry capacity numAddr i j (addressAt base i j) = .ok next) :
    next.Sound base numAddr chosen ∧ next.Unmapped i (j + 1) := by
  rw [addEntry] at done
  split at done
  case isFalse => cases done
  case isTrue inRange =>
    cases done
    refine ⟨⟨sound.recorded.add (unmapped i j (.inr ⟨rfl, Nat.le_refl j⟩)) inRange.2.1 inRange.2.2,
      ?_, ?_, ?_⟩, ?_⟩
    · rw [List.length_append, List.length_singleton, List.range_succ]
      exact sound.free.insertTail (by simp)
    · exact sound.free.insertTail_other sound.used nofun List.not_mem_nil fun _ _ => List.not_mem_nil
    · intro addr member
      rcases List.mem_append.mp member with old | new
      · exact sound.chosen addr old
      · rw [List.mem_singleton.mp new]
        exact isChosen
    · intro k l later
      have wasNone := unmapped k l (by omega)
      by_cases same : k = i
      · subst same
        have other : l ≠ j := by omega
        simpa [other] using wasNone
      · simpa [same] using wasNone

theorem PoolMemory.Unmapped.mono {k} (unmapped : memory.Unmapped i j) (le : j ≤ k) :
    memory.Unmapped i k := fun one two later =>
  unmapped one two (later.imp_right fun here => ⟨here.1, Nat.le_trans le here.2⟩)

variable {remaining : Nat}

theorem createPorts_sound {numEntry} (inside : remaining ≤ maxPort)
    (sound : memory.Sound base numAddr fun _ => True) (unmapped : memory.Unmapped i (maxPort - remaining))
    (done : createPorts numEntry numAddr base i remaining memory = .ok next) :
    next.Sound base numAddr (fun _ => True) ∧ next.Unmapped (i + 1) 0 := by
  induction remaining generalizing memory with
  | zero =>
    cases done
    exact ⟨sound, unmapped.nextAddress⟩
  | succ remaining ih =>
    obtain ⟨added, add, done⟩ := bind_ok done
    obtain ⟨addedSound, addedUnmapped⟩ := addEntry_sound sound unmapped trivial add
    have following : maxPort - (remaining + 1) + 1 = maxPort - remaining := by omega
    split at done
    · cases done
      exact ⟨addedSound, addedUnmapped.nextAddress⟩
    · exact ih (by omega) addedSound (following ▸ addedUnmapped) done

theorem createAddresses_sound {numEntry} (inside : remaining ≤ numAddr.toInt.toNat)
    (sound : memory.Sound base numAddr fun _ => True)
    (unmapped : memory.Unmapped (numAddr.toInt.toNat - remaining) 0)
    (done : createAddresses numEntry numAddr base remaining memory = .ok next) :
    next.Sound base numAddr fun _ => True := by
  induction remaining generalizing memory with
  | zero =>
    cases done
    exact sound
  | succ remaining ih =>
    obtain ⟨filled, ports, done⟩ := bind_ok done
    obtain ⟨filledSound, filledUnmapped⟩ :=
      createPorts_sound (by decide) sound (unmapped.mono (Nat.zero_le _)) ports
    have following : numAddr.toInt.toNat - (remaining + 1) + 1 = numAddr.toInt.toNat - remaining := by
      omega
    exact ih (by omega) filledSound (following ▸ filledUnmapped) done

def replyQueue (addr server : SockAddr) (numQueues : Int32) (endianCheck : Bool) : Nat :=
  receivingQueue (ntohl server.sAddr) (ntohl addr.sAddr) (ntohs server.sinPort)
    (ntohs addr.sinPort) numQueues endianCheck

def PerCore.Chosen (wanted : PerCore) (addr : SockAddr) : Prop :=
  replyQueue addr ⟨wanted.daddr, wanted.dport⟩ wanted.numQueues wanted.endianCheck = wanted.core.toInt

theorem perCorePorts_sound {wanted : PerCore} (numEntry : Int32) (queues : wanted.numQueues ≠ 0)
    (address : i < wanted.numAddr.toInt) (inside : remaining ≤ maxPort)
    (sound : memory.Sound (ntohl wanted.saddrBase) wanted.numAddr wanted.Chosen)
    (unmapped : memory.Unmapped i (maxPort - remaining)) :
    ∃ next flag, perCorePorts wanted numEntry i remaining memory = .ok (next, flag) ∧
      next.Sound (ntohl wanted.saddrBase) wanted.numAddr wanted.Chosen ∧
      next.Unmapped (i + 1) 0 := by
  induction remaining generalizing memory with
  | zero => exact ⟨memory, false, rfl, sound, unmapped.nextAddress⟩
  | succ remaining ih =>
    have following : maxPort - (remaining + 1) + 1 = maxPort - remaining := by omega
    rw [perCorePorts]
    split
    case isTrue => exact ⟨memory, false, rfl, sound, unmapped.nextAddress⟩
    case isFalse room =>
      obtain ⟨core, isCore⟩ : ∃ core, getRSSCPUCore (ntohl wanted.daddr)
          (ntohl wanted.saddrBase + UInt32.ofNat i) (ntohs wanted.dport)
          (UInt16.ofNat (maxPort - (remaining + 1))) wanted.numQueues wanted.endianCheck = .ok core := by
        rw [getRSSCPUCore, if_neg queues]
        exact ⟨_, rfl⟩
      simp only [isCore, bind, Except.bind]
      split
      case isTrue =>
        exact ih (by omega) sound (unmapped.mono (by omega))
      case isFalse same =>
        have chosen : wanted.Chosen
            (addressAt (ntohl wanted.saddrBase) i (maxPort - (remaining + 1))) := by
          have isReceiving := (getRSSCPUCore_eq_ok.mp isCore).2
          rw [Decidable.of_not_not same] at isReceiving
          simpa [PerCore.Chosen, replyQueue, addressAt] using isReceiving.symm
        have inRange : memory.pool.length < numEntry.toInt ∧ i < wanted.numAddr.toInt ∧
            maxPort - (remaining + 1) < maxPort :=
          ⟨by omega, address, Nat.sub_lt (by decide) (Nat.succ_pos _)⟩
        obtain ⟨added, add⟩ : ∃ added, memory.addEntry numEntry.toInt wanted.numAddr i
            (maxPort - (remaining + 1))
            (addressAt (ntohl wanted.saddrBase) i (maxPort - (remaining + 1))) = .ok added := by
          rw [addEntry, if_pos inRange]
          exact ⟨_, rfl⟩
        obtain ⟨addedSound, addedUnmapped⟩ := addEntry_sound sound unmapped chosen add
        rw [addressAt] at add
        simp only [add]
        split
        · exact ⟨added, true, rfl, addedSound, addedUnmapped.nextAddress⟩
        · exact ih (by omega) addedSound (following ▸ addedUnmapped)

theorem perCoreAddresses_sound {wanted : PerCore} (numEntry : Int32) (queues : wanted.numQueues ≠ 0)
    (inside : remaining ≤ wanted.numAddr.toInt.toNat)
    (sound : memory.Sound (ntohl wanted.saddrBase) wanted.numAddr wanted.Chosen)
    (unmapped : memory.Unmapped (wanted.numAddr.toInt.toNat - remaining) 0) :
    ∃ next, perCoreAddresses wanted numEntry remaining memory = .ok next ∧
      next.Sound (ntohl wanted.saddrBase) wanted.numAddr wanted.Chosen := by
  induction remaining generalizing memory with
  | zero => exact ⟨memory, rfl, sound⟩
  | succ remaining ih =>
    obtain ⟨filled, flag, ports, filledSound, filledUnmapped⟩ :=
      perCorePorts_sound numEntry queues (i := wanted.numAddr.toInt.toNat - (remaining + 1))
        (by omega) (by decide : maxPort - minPort ≤ maxPort) sound (unmapped.mono (Nat.zero_le _))
    have following : wanted.numAddr.toInt.toNat - (remaining + 1) + 1 =
        wanted.numAddr.toInt.toNat - remaining := by omega
    rw [perCoreAddresses]
    simp only [ports, bind, Except.bind]
    cases flag with
    | true => exact ⟨filled, rfl, filledSound⟩
    | false => exact ih (by omega) filledSound (following ▸ filledUnmapped)

def AddrPool.Fresh (base : UInt32) (numAddr : Int32) (chosen : SockAddr → Prop) (ap : AddrPool) :
    Prop :=
  ∃ memory : PoolMemory, memory.Sound base numAddr chosen ∧ ap = memory.finish base numAddr

theorem createAddressPool_fresh {granted addrBase ap}
    (done : createAddressPool granted addrBase numAddr = .ok (some ap)) :
    ap.Fresh (ntohl addrBase) numAddr fun _ => True := by
  rw [createAddressPool] at done
  split at done
  case isFalse => cases done
  case isTrue =>
    obtain ⟨memory, filled, done⟩ := bind_ok done
    cases done
    exact ⟨memory, createAddresses_sound (Nat.le_refl _) sound_empty
      (by simpa using unmapped_empty) filled, rfl⟩

theorem createPorts_all {numEntry : Int32} (address : i < numAddr.toInt)
    (inside : remaining ≤ maxPort) (room : (memory.pool.length + remaining : Nat) = numEntry.toInt) :
    ∃ next, createPorts numEntry numAddr base i remaining memory = .ok next ∧
      next.pool = memory.pool ++ (List.range' (maxPort - remaining) remaining).map (addressAt base i) := by
  induction remaining generalizing memory with
  | zero => exact ⟨memory, rfl, by simp⟩
  | succ remaining ih =>
    have inRange : memory.pool.length < numEntry.toInt ∧ i < numAddr.toInt ∧
        maxPort - (remaining + 1) < maxPort :=
      ⟨by omega, address, Nat.sub_lt (by decide) (Nat.succ_pos _)⟩
    have following : maxPort - (remaining + 1) + 1 = maxPort - remaining := by omega
    simp only [createPorts, addEntry, if_pos inRange, bind, Except.bind]
    rw [List.range'_succ, following, List.map_cons]
    split
    case isTrue full =>
      have last : remaining = 0 := by
        rw [List.length_append, List.length_singleton] at full
        omega
      subst last
      exact ⟨_, rfl, rfl⟩
    case isFalse =>
      have room : ((memory.pool ++ [addressAt base i (maxPort - (remaining + 1))]).length +
          remaining : Nat) = numEntry.toInt := by
        rw [List.length_append, List.length_singleton]
        omega
      obtain ⟨next, done, pool⟩ := @ih ⟨_, _, _⟩ (by omega) room
      refine ⟨next, done, pool.trans ?_⟩
      rw [List.append_assoc]
      rfl

theorem createAddressPool_one (addrBase : UInt32) :
    ∃ ap, createAddressPool true addrBase 1 = .ok (some ap) ∧
      ap.pool = (List.range' minPort (maxPort - minPort)).map (addressAt (ntohl addrBase) 0) := by
  obtain ⟨memory, done, pool⟩ : ∃ next, createPorts (1 * Int32.ofNat (maxPort - minPort)) 1
      (ntohl addrBase) 0 (maxPort - minPort) .empty = .ok next ∧ next.pool =
        [] ++ (List.range' minPort (maxPort - minPort)).map (addressAt (ntohl addrBase) 0) :=
    createPorts_all (by decide) (by decide) (by decide)
  refine ⟨memory.finish (ntohl addrBase) 1, ?_, pool⟩
  have granted : callocSucceeds true (1 * Int32.ofNat (maxPort - minPort)) 1 = true := by decide
  have addresses : createAddresses (1 * Int32.ofNat (maxPort - minPort)) 1 (ntohl addrBase)
      (1 : Int32).toInt.toNat .empty = .ok memory := by
    change (createPorts _ _ _ 0 _ _ >>= fun memory => .ok memory) = _
    rw [done]
    rfl
  simp only [createAddressPool, granted, addresses, if_true]
  rfl

theorem createAddressPoolPerCore_cases (granted : Bool) (wanted : PerCore) :
    wanted.numQueues = 0 ∧ createAddressPoolPerCore granted wanted = .error .divisionByZero ∨
      wanted.numQueues ≠ 0 ∧ (createAddressPoolPerCore granted wanted = .ok none ∨
        ∃ ap, createAddressPoolPerCore granted wanted = .ok (some ap) ∧
          ap.Fresh (ntohl wanted.saddrBase) wanted.numAddr wanted.Chosen) := by
  rw [createAddressPoolPerCore]
  by_cases queues : wanted.numQueues = 0
  · exact .inl ⟨queues, if_pos queues⟩
  · rw [if_neg queues]
    refine .inr ⟨queues, ?_⟩
    dsimp only
    split
    case isFalse => exact .inl rfl
    case isTrue =>
      obtain ⟨memory, filled, sound⟩ := perCoreAddresses_sound
        (wanted.numAddr * Int32.ofNat (maxPort - minPort) / wanted.numQueues) queues (Nat.le_refl _)
        sound_empty (by simpa using unmapped_empty)
      rw [filled]
      exact .inr ⟨_, rfl, memory, sound, rfl⟩

theorem createAddressPoolPerCore_fresh {granted wanted ap}
    (done : createAddressPoolPerCore granted wanted = .ok (some ap)) :
    ap.Fresh (ntohl wanted.saddrBase) wanted.numAddr wanted.Chosen := by
  rcases createAddressPoolPerCore_cases granted wanted with
    ⟨-, fails⟩ | ⟨-, fails | ⟨created, done', fresh⟩⟩
  · cases fails.symm.trans done
  · cases fails.symm.trans done
  · cases done'.symm.trans done
    exact fresh

theorem created_of_eval {β : Type} {result : Except Fault (Option AddrPool)} {seen : β}
    (view : AddrPool → β) (evaluated : result.toOption.join.map view = some seen) :
    ∃ ap, result = .ok (some ap) ∧ view ap = seen := by
  match result, evaluated with
  | .ok (some ap), evaluated => exact ⟨ap, rfl, Option.some.inj evaluated⟩

theorem createAddressPoolPerCore_sound (granted : Bool) (wanted : PerCore) :
    (∀ fault, createAddressPoolPerCore granted wanted = .error fault →
      wanted.numQueues = 0 ∧ fault = .divisionByZero) ∧
    (∀ ap, createAddressPoolPerCore granted wanted = .ok (some ap) → ap.pool.Nodup ∧
      (∀ addr ∈ ap.pool, replyQueue addr ⟨wanted.daddr, wanted.dport⟩ wanted.numQueues
        wanted.endianCheck = wanted.core.toInt) ∧
      ∀ core, core ≠ wanted.core → ∀ granted other,
        createAddressPoolPerCore granted { wanted with core := core } = .ok (some other) →
        ap.pool.Disjoint other.pool) ∧
    ∀ sip dip sp dp, getRSSHash sip dip sp dp = toeplitzHash sip dip sp dp := by
  refine ⟨fun fault fails => ?_, fun ap done => ?_, getRSSHash_eq⟩
  · rcases createAddressPoolPerCore_cases granted wanted with
      ⟨queues, zero⟩ | ⟨-, done | ⟨ap, done, -⟩⟩
    · cases zero.symm.trans fails
      exact ⟨queues, rfl⟩
    · cases done.symm.trans fails
    · cases done.symm.trans fails
  · obtain ⟨memory, sound, rfl⟩ := createAddressPoolPerCore_fresh done
    refine ⟨sound.recorded.nodup, sound.chosen, fun core different granted other otherDone => ?_⟩
    obtain ⟨otherMemory, otherSound, rfl⟩ := createAddressPoolPerCore_fresh otherDone
    intro addr member otherMember
    have here : _ = wanted.core.toInt := sound.chosen addr member
    have there : _ = core.toInt := otherSound.chosen addr otherMember
    exact different (Int32.toInt_inj.mp (there.symm.trans here))

theorem createAddressPoolPerCore_two_cores :
    let wanted : PerCore := ⟨2, 64511, ntohl 0x0A000001, 1, ntohl 0x0A000002, ntohs 80, false, 100⟩
    ∃ ap other, createAddressPoolPerCore true wanted = .ok (some ap) ∧
      createAddressPoolPerCore true { wanted with core := 44 } = .ok (some other) ∧
      ap.pool = [⟨htonl 0x0A000001, htons 1025⟩] ∧ other.pool = [⟨htonl 0x0A000001, htons 1028⟩] ∧
      ap.pool.Nodup ∧ ap.pool.Disjoint other.pool := by
  intro wanted
  obtain ⟨ap, done, pool⟩ := created_of_eval AddrPool.pool
    (by decide +kernel : (createAddressPoolPerCore true wanted).toOption.join.map AddrPool.pool =
      some [⟨htonl 0x0A000001, htons 1025⟩])
  obtain ⟨other, otherDone, otherPool⟩ := created_of_eval AddrPool.pool
    (by decide +kernel : (createAddressPoolPerCore true { wanted with core := 44 }).toOption.join.map
      AddrPool.pool = some [⟨htonl 0x0A000001, htons 1028⟩])
  obtain ⟨-, created, -⟩ := createAddressPoolPerCore_sound true wanted
  obtain ⟨distinct, -, disjoint⟩ := created ap done
  exact ⟨ap, other, done, otherDone, pool, otherPool, distinct,
    disjoint 44 (by decide) true other otherDone⟩

end Created

end Mcc
