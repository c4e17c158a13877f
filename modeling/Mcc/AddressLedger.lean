import Mcc.AddressPool

/-!
Fetching and freeing addresses (`addr_pool.c`): as long as only addresses in use are freed, the free
list and the used list share the pool's entries between them, and an address that was handed out is
not handed out again.
-/

namespace Mcc

open TailQueue

structure PoolReturn where
  ret : Int
  saddr : Option SockAddr
  ap : AddrPool

def AddrPool.addr (ap : AddrPool) (entry : Nat) : SockAddr := ap.pool.getD entry ⟨0, 0⟩

def AddrPool.handOut (ap : AddrPool) (walk : Nat) : PoolReturn where
  ret := 0
  saddr := some (ap.addr walk)
  ap := { ap with
    links := (ap.links.remove .freeList walk).insertTail .usedList walk
    numFree := ap.numFree - 1
    numUsed := ap.numUsed + 1 }

def AddrPool.suits (ap : AddrPool) (core numQueues : Int32) (endianCheck : Bool)
    (daddr saddr : SockAddr) (walk : Nat) : Except Fault Bool :=
  if saddr.sAddr ≠ inaddrAny ∧ (ap.addr walk).sAddr ≠ saddr.sAddr then .ok false
  else if saddr.sinPort ≠ inportAny ∧ (ap.addr walk).sinPort ≠ saddr.sinPort then .ok false
  else do
    let rssCore ← getRSSCPUCore (ntohl (ap.addr walk).sAddr) (ntohl daddr.sAddr)
      (ntohs (ap.addr walk).sinPort) (ntohs daddr.sinPort) numQueues endianCheck
    .ok (core = rssCore)

/-- `none` if the loop does not end: after as many entries as the pool has it has met one twice. -/
def fetchAddress (ap : AddrPool) (core numQueues : Int32) (endianCheck : Bool)
    (daddr saddr : Option SockAddr) : Option (Except Fault PoolReturn) :=
  match daddr, saddr with
  | some daddr, some saddr =>
    match ap.links.find (ap.suits core numQueues endianCheck daddr saddr) ap.pool.length
        (ap.links.points (.first .freeList)) with
    | none => none
    | some (.error fault) => some (.error fault)
    | some (.ok none) => some (.ok ⟨-1, some saddr, ap⟩)
    | some (.ok (some walk)) => some (.ok (ap.handOut walk))
  | _, saddr => some (.ok ⟨-1, saddr, ap⟩)

def fetchAddressPerCore (ap : AddrPool) (daddr saddr : Option SockAddr) : PoolReturn :=
  match daddr, saddr with
  | some _, some saddr =>
    match ap.links.points (.first .freeList) with
    | none => ⟨-1, some saddr, ap⟩
    | some walk => ap.handOut walk
  | _, saddr => ⟨-1, saddr, ap⟩

def AddrPool.takeBack (ap : AddrPool) (walk : Nat) : AddrPool :=
  { ap with
    links := (ap.links.remove .usedList walk).insertTail .freeList walk
    numFree := ap.numFree + 1
    numUsed := ap.numUsed - 1 }

def AddrPool.lookup (ap : AddrPool) (addr : SockAddr) : Option (Option Nat) :=
  match ap.mapper with
  | some mapper =>
    let addrH := ntohl addr.sAddr
    let portH := ntohs addr.sinPort
    let index := (addrH - ap.addrBase).toInt32
    if 0 ≤ index.toInt ∧ index.toInt < ap.numAddr.toInt then
      some (mapper (addrH - ap.addrBase).toNat portH.toNat)
    else some none
  | none =>
    let isSame : Nat → Except Fault Bool := fun walk =>
      .ok (addr.sinPort = (ap.addr walk).sinPort ∧ addr.sAddr = (ap.addr walk).sAddr)
    match ap.links.find isSame ap.pool.length (ap.links.points (.first .usedList)) with
    | some (.ok walk) => some walk
    | _ => none

def freeAddress (ap : AddrPool) (addr : Option SockAddr) : Option PoolReturn :=
  match addr with
  | none => some ⟨-1, none, ap⟩
  | some addr =>
    match ap.lookup addr with
    | none => none
    | some none => some ⟨-1, none, ap⟩
    | some (some walk) => some ⟨0, none, ap.takeBack walk⟩

inductive PoolCall where
  | fetchAddress (core numQueues : Int32) (endianCheck : Bool) (daddr saddr : Option SockAddr)
  | fetchAddressPerCore (daddr saddr : Option SockAddr)
  | freeAddress (addr : Option SockAddr)

def PoolCall.run (ap : AddrPool) : PoolCall → Option (Except Fault PoolReturn)
  | .fetchAddress core numQueues endianCheck daddr saddr =>
    Mcc.fetchAddress ap core numQueues endianCheck daddr saddr
  | .fetchAddressPerCore daddr saddr => some (.ok (Mcc.fetchAddressPerCore ap daddr saddr))
  | .freeAddress addr => (Mcc.freeAddress ap addr).map .ok

theorem PoolCall.run_cases {ap : AddrPool} {call : PoolCall} {result : PoolReturn}
    (done : call.run ap = some (.ok result)) :
    result.ret = -1 ∧ result.ap = ap ∨
      (∃ walk, (∀ addr, call ≠ .freeAddress addr) ∧ result = ap.handOut walk) ∨
      ∃ addr walk, call = .freeAddress (some addr) ∧ ap.lookup addr = some (some walk) ∧
        result = ⟨0, none, ap.takeBack walk⟩ := by
  cases call with
  | fetchAddress core numQueues endianCheck daddr saddr =>
    match daddr, saddr with
    | none, saddr =>
      cases done
      exact .inl ⟨rfl, rfl⟩
    | some daddr, none =>
      cases done
      exact .inl ⟨rfl, rfl⟩
    | some daddr, some saddr =>
      simp only [PoolCall.run, Mcc.fetchAddress] at done
      split at done
      · cases done
      · cases done
      · cases done
        exact .inl ⟨rfl, rfl⟩
      · next walk _ =>
        cases done
        exact .inr (.inl ⟨walk, nofun, rfl⟩)
  | fetchAddressPerCore daddr saddr =>
    match daddr, saddr with
    | none, saddr =>
      cases done
      exact .inl ⟨rfl, rfl⟩
    | some daddr, none =>
      cases done
      exact .inl ⟨rfl, rfl⟩
    | some daddr, some saddr =>
      simp only [PoolCall.run, Mcc.fetchAddressPerCore] at done
      split at done
      · cases done
        exact .inl ⟨rfl, rfl⟩
      · next walk _ =>
        cases done
        exact .inr (.inl ⟨walk, nofun, rfl⟩)
  | freeAddress addr =>
    cases addr with
    | none =>
      cases done
      exact .inl ⟨rfl, rfl⟩
    | some addr =>
      simp only [PoolCall.run, Mcc.freeAddress] at done
      split at done
      · cases done
      · cases done
        exact .inl ⟨rfl, rfl⟩
      · next walk found =>
        cases done
        exact .inr (.inr ⟨addr, walk, rfl, found, rfl⟩)

section Ledger

structure Ledger (ap : AddrPool) (free used : List Nat) : Prop where
  freeHeld : Holds ap.links .freeList free
  usedHeld : Holds ap.links .usedList used
  partition : (free ++ used).Perm (List.range ap.pool.length)
  numEntry : ap.numEntry = ap.pool.length
  numFree : ap.numFree = free.length
  numUsed : ap.numUsed = used.length

def AddrPool.Indexed (ap : AddrPool) : Prop :=
  ∃ mapper, ap.mapper = some mapper ∧ Recorded ap.addrBase ap.numAddr ap.pool mapper

variable {ap : AddrPool} {free used : List Nat}

theorem Ledger.distinct (ledger : Ledger ap free used) : (free ++ used).Nodup :=
  ledger.partition.nodup_iff.mpr List.nodup_range

theorem Ledger.disjoint (ledger : Ledger ap free used) : ∀ entry ∈ free, entry ∉ used :=
  fun entry inFree inUsed => (List.nodup_append.mp ledger.distinct).2.2 entry inFree entry inUsed rfl

theorem Ledger.inside (ledger : Ledger ap free used) {entry} (member : entry ∈ free ++ used) :
    entry < ap.pool.length := List.mem_range.mp (ledger.partition.mem_iff.mp member)

theorem AddrPool.getElem?_addr {entry} (inside : entry < ap.pool.length) :
    ap.pool[entry]? = some (ap.addr entry) := by
  simp [AddrPool.addr, List.getD_eq_getElem?_getD, inside]

theorem Ledger.handOut {walk before after} (ledger : Ledger ap (before ++ walk :: after) used) :
    Ledger (ap.handOut walk).ap (before ++ after) (used ++ [walk]) := by
  obtain ⟨freeHeld, usedHeld⟩ := ledger.freeHeld.move ledger.usedHeld nofun ledger.disjoint
  have moved : (before ++ after ++ (used ++ [walk])).Perm (before ++ walk :: after ++ used) := by
    rw [← List.append_assoc]
    refine (List.perm_append_singleton walk _).trans ?_
    exact List.perm_middle.symm.append_right _
  refine ⟨freeHeld, usedHeld, moved.trans ledger.partition, ledger.numEntry, ?_, ?_⟩
  · have count := ledger.numFree
    simp only [AddrPool.handOut, count, List.length_append, List.length_cons]
    omega
  · simp [AddrPool.handOut, ledger.numUsed]

theorem Ledger.takeBack {walk before after} (ledger : Ledger ap free (before ++ walk :: after)) :
    Ledger (ap.takeBack walk) (free ++ [walk]) (before ++ after) := by
  obtain ⟨usedHeld, freeHeld⟩ := ledger.usedHeld.move ledger.freeHeld nofun
    fun entry inUsed inFree => ledger.disjoint entry inFree inUsed
  refine ⟨freeHeld, usedHeld, ?_, ledger.numEntry, ?_, ?_⟩
  · refine List.Perm.trans ?_ ledger.partition
    rw [List.append_assoc]
    change (free ++ walk :: (before ++ after)).Perm _
    exact List.perm_middle.symm.append_left _
  · simp [AddrPool.takeBack, ledger.numFree]
  · have count := ledger.numUsed
    simp only [AddrPool.takeBack, count, List.length_append, List.length_cons]
    omega

theorem PoolMemory.Sound.ledger {base : UInt32} {numAddr : Int32} {chosen : SockAddr → Prop}
    {memory : PoolMemory} (sound : memory.Sound base numAddr chosen) :
    Ledger (memory.finish base numAddr) (List.range memory.pool.length) [] where
  freeHeld := sound.free
  usedHeld := sound.used
  partition := by rw [List.append_nil]; exact .refl _
  numEntry := rfl
  numFree := by simp [PoolMemory.finish]
  numUsed := rfl

theorem AddrPool.Indexed.lookup (indexed : ap.Indexed) (addr : SockAddr) :
    ∃ walk, ap.lookup addr = some walk ∧ ∀ entry, walk = some entry ↔ ap.pool[entry]? = some addr := by
  obtain ⟨mapper, isMapper, recorded⟩ := indexed
  simp only [AddrPool.lookup, isMapper]
  have backAgain : addressAt ap.addrBase (ntohl addr.sAddr - ap.addrBase).toNat
      (ntohs addr.sinPort).toNat = addr := by
    have sum : ap.addrBase + (ntohl addr.sAddr - ap.addrBase) = ntohl addr.sAddr := by
      rw [UInt32.add_comm, UInt32.sub_add_cancel]
    simp [addressAt, sum]
  have position : ∀ {entry}, ap.pool[entry]? = some addr →
      (ntohl addr.sAddr - ap.addrBase).toNat < ap.numAddr.toInt ∧
        mapper (ntohl addr.sAddr - ap.addrBase).toNat (ntohs addr.sinPort).toNat = some entry := by
    intro entry held
    obtain ⟨i, j, mapped, rfl⟩ := recorded.covered held
    obtain ⟨inside, port, -⟩ := recorded.mapped mapped
    simp only [addressAt, ntohl_htonl, ntohs_htons, offset_eq inside, UInt16.toNat_ofNat_of_lt' port]
    exact ⟨inside, mapped⟩
  have bound := ap.numAddr.toInt_lt
  split
  case isTrue =>
    refine ⟨_, rfl, fun entry => ⟨fun mapped => ?_, fun held => (position held).2⟩⟩
    exact (recorded.mapped mapped).2.2.trans (congrArg some backAgain)
  case isFalse outside =>
    refine ⟨none, rfl, fun entry => ⟨by simp, fun held => absurd ?_ outside⟩⟩
    have inside := (position held).1
    rw [toInt_toInt32 (by omega)]
    exact ⟨by omega, inside⟩

theorem AddrPool.suits_error {core numQueues endianCheck daddr saddr walk fault}
    (fails : ap.suits core numQueues endianCheck daddr saddr walk = .error fault) :
    numQueues = 0 ∧ fault = .divisionByZero := by
  rw [AddrPool.suits] at fails
  split at fails
  · cases fails
  · split at fails
    · cases fails
    · rw [getRSSCPUCore] at fails
      split at fails
      case isTrue zero =>
        cases fails
        exact ⟨zero, rfl⟩
      case isFalse => cases fails

theorem fetchAddress_cases (ledger : Ledger ap free used) (core numQueues : Int32)
    (endianCheck : Bool) (daddr saddr : Option SockAddr) : numQueues = 0 ∧
        fetchAddress ap core numQueues endianCheck daddr saddr = some (.error .divisionByZero) ∨
      (∀ server wish, daddr = some server → saddr = some wish → ∀ walk ∈ free,
          ap.suits core numQueues endianCheck server wish walk = .ok false) ∧
        fetchAddress ap core numQueues endianCheck daddr saddr = some (.ok ⟨-1, saddr, ap⟩) ∨
      ∃ before walk after server wish, free = before ++ walk :: after ∧ daddr = some server ∧
        saddr = some wish ∧ ap.suits core numQueues endianCheck server wish walk = .ok true ∧
        fetchAddress ap core numQueues endianCheck daddr saddr = some (.ok (ap.handOut walk)) := by
  match daddr, saddr with
  | none, saddr => exact .inr (.inl ⟨nofun, rfl⟩)
  | some server, none => exact .inr (.inl ⟨nofun, rfl⟩)
  | some server, some wish =>
    have size : free.length ≤ ap.pool.length := by
      have total := ledger.partition.length_eq
      rw [List.length_append, List.length_range] at total
      omega
    simp only [fetchAddress, find_eq ledger.freeHeld.segment ledger.freeHeld.ends size]
    rcases findM?_cases free (ap.suits core numQueues endianCheck server wish) with
      ⟨walk, before, after, found, suits, isFree⟩ | ⟨found, refuses⟩ | ⟨fault, found, entry, -, fails⟩
    · rw [found]
      exact .inr (.inr ⟨before, walk, after, server, wish, isFree, rfl, rfl, suits, rfl⟩)
    · rw [found]
      refine .inr (.inl ⟨fun _ _ isServer isWish => ?_, rfl⟩)
      cases isServer
      cases isWish
      exact refuses
    · obtain ⟨zero, rfl⟩ := AddrPool.suits_error fails
      rw [found]
      exact .inl ⟨zero, rfl⟩

theorem fetchAddressPerCore_cases (ledger : Ledger ap free used) (daddr saddr : Option SockAddr) :
    fetchAddressPerCore ap daddr saddr = ⟨-1, saddr, ap⟩ ∨
      ∃ walk after, free = walk :: after ∧ fetchAddressPerCore ap daddr saddr = ap.handOut walk := by
  match daddr, saddr with
  | none, saddr => exact .inl rfl
  | some server, none => exact .inl rfl
  | some server, some wish =>
    simp only [fetchAddressPerCore, ledger.freeHeld.first]
    cases free with
    | nil => exact .inl rfl
    | cons walk after => exact .inr ⟨walk, after, rfl, rfl⟩

theorem freeAddress_cases (indexed : ap.Indexed) (addr : Option SockAddr) :
    (∀ known, addr = some known → known ∉ ap.pool) ∧ freeAddress ap addr = some ⟨-1, none, ap⟩ ∨
      ∃ known entry, addr = some known ∧ ap.pool[entry]? = some known ∧
        freeAddress ap addr = some ⟨0, none, ap.takeBack entry⟩ := by
  cases addr with
  | none => exact .inl ⟨nofun, rfl⟩
  | some addr =>
    obtain ⟨walk, looked, found⟩ := indexed.lookup addr
    simp only [freeAddress, looked]
    cases walk with
    | none =>
      refine .inl ⟨fun other same member => ?_, rfl⟩
      cases same
      obtain ⟨entry, held⟩ := List.mem_iff_getElem?.mp member
      cases (found entry).mpr held
    | some entry => exact .inr ⟨addr, entry, rfl, (found entry).mp rfl, rfl⟩

end Ledger

section Session

structure Session where
  ap : AddrPool
  handedOut : List SockAddr

def Session.next (session : Session) (call : PoolCall) (result : PoolReturn) : Session where
  ap := result.ap
  handedOut :=
    match call, result.ret, result.saddr with
    | .freeAddress (some addr), 0, _ => session.handedOut.erase addr
    | .freeAddress _, _, _ => session.handedOut
    | _, 0, some addr => addr :: session.handedOut
    | _, _, _ => session.handedOut

def Session.run : Session → List PoolCall → Option (Except Fault Session)
  | session, [] => some (.ok session)
  | session, call :: rest =>
    match call.run session.ap with
    | none => none
    | some (.error fault) => some (.error fault)
    | some (.ok result) => (session.next call result).run rest

def Session.FreesInUse (session : Session) (call : PoolCall) : Prop :=
  ∀ addr, call = .freeAddress (some addr) → addr ∈ session.ap.pool → addr ∈ session.handedOut

def Session.FreesInUseAlong : Session → List PoolCall → Prop
  | _, [] => True
  | session, call :: rest =>
    session.FreesInUse call ∧ ∀ result, call.run session.ap = some (.ok result) →
      (session.next call result).FreesInUseAlong rest

structure Session.Sound (session : Session) : Prop where
  indexed : session.ap.Indexed
  ledger : ∃ free used, Ledger session.ap free used ∧ session.handedOut.Perm (used.map session.ap.addr)

def AddrPool.Created (ap : AddrPool) : Prop :=
  (∃ granted addrBase numAddr, createAddressPool granted addrBase numAddr = .ok (some ap)) ∨
    ∃ granted wanted, createAddressPoolPerCore granted wanted = .ok (some ap)

variable {session : Session} {call : PoolCall} {result : PoolReturn} {ap : AddrPool}

theorem AddrPool.Fresh.session_sound {base : UInt32} {numAddr : Int32} {chosen : SockAddr → Prop}
    (fresh : ap.Fresh base numAddr chosen) : Session.Sound ⟨ap, []⟩ := by
  obtain ⟨memory, sound, rfl⟩ := fresh
  exact ⟨⟨memory.mapper, rfl, sound.recorded⟩, _, [], sound.ledger, .refl _⟩

theorem AddrPool.Created.session_sound (created : ap.Created) : Session.Sound ⟨ap, []⟩ := by
  rcases created with ⟨granted, addrBase, numAddr, done⟩ | ⟨granted, wanted, done⟩
  · exact (createAddressPool_fresh done).session_sound
  · exact (createAddressPoolPerCore_fresh done).session_sound

namespace Session.Sound

section

variable (sound : session.Sound)
include sound

theorem handOut {walk before after used} (ledger : Ledger session.ap (before ++ walk :: after) used)
    (handed : session.handedOut.Perm (used.map session.ap.addr)) :
    Session.Sound ⟨(session.ap.handOut walk).ap, session.ap.addr walk :: session.handedOut⟩ := by
  refine ⟨sound.indexed, before ++ after, used ++ [walk], ledger.handOut, ?_⟩
  rw [List.map_append]
  exact (handed.cons _).trans (List.perm_append_singleton _ _).symm

theorem entry_used {free used addr entry}
    (ledger : Ledger session.ap free used)
    (handed : session.handedOut.Perm (used.map session.ap.addr))
    (held : session.ap.pool[entry]? = some addr) : entry ∈ used ↔ addr ∈ session.handedOut := by
  obtain ⟨mapper, -, recorded⟩ := sound.indexed
  rw [handed.mem_iff, List.mem_map]
  constructor
  · intro inUse
    have found := AddrPool.getElem?_addr (ledger.inside (List.mem_append_right _ inUse))
    exact ⟨entry, inUse, Option.some.inj (found.symm.trans held)⟩
  · rintro ⟨other, inUse, rfl⟩
    have found := AddrPool.getElem?_addr (ledger.inside (List.mem_append_right _ inUse))
    rw [recorded.entry_inj held found]
    exact inUse

theorem handedOut_mem {addr} (inUse : addr ∈ session.handedOut) : addr ∈ session.ap.pool := by
  obtain ⟨free, used, ledger, handed⟩ := sound.ledger
  obtain ⟨entry, member, rfl⟩ := List.mem_map.mp (handed.mem_iff.mp inUse)
  exact List.mem_of_getElem? (AddrPool.getElem?_addr (ledger.inside (List.mem_append_right _ member)))

theorem takeBack {addr entry} (held : session.ap.pool[entry]? = some addr)
    (inUse : addr ∈ session.handedOut) :
    Session.Sound ⟨session.ap.takeBack entry, session.handedOut.erase addr⟩ := by
  obtain ⟨free, used, ledger, handed⟩ := sound.ledger
  obtain ⟨before, after, rfl⟩ := List.append_of_mem ((sound.entry_used ledger handed held).mpr inUse)
  refine ⟨sound.indexed, free ++ [entry], before ++ after, ledger.takeBack, ?_⟩
  have isAddr : session.ap.addr entry = addr := by
    have found := AddrPool.getElem?_addr (List.getElem?_eq_some_iff.mp held).1
    exact Option.some.inj (found.symm.trans held)
  have first : session.handedOut.Perm (addr :: (before ++ after).map session.ap.addr) := by
    refine handed.trans ((List.perm_middle.map _).trans ?_)
    rw [List.map_cons, isAddr]
  have erased := first.erase addr
  rwa [List.erase_cons_head] at erased

theorem step (frees : session.FreesInUse call) :
    (∃ core endianCheck daddr saddr, call = .fetchAddress core 0 endianCheck daddr saddr) ∧
        call.run session.ap = some (.error .divisionByZero) ∨
      ∃ result, call.run session.ap = some (.ok result) ∧ (session.next call result).Sound := by
  obtain ⟨free, used, ledger, handed⟩ := sound.ledger
  cases call with
  | fetchAddress core numQueues endianCheck daddr saddr =>
    simp only [PoolCall.run]
    rcases fetchAddress_cases ledger core numQueues endianCheck daddr saddr with
      ⟨rfl, fails⟩ | ⟨-, failed⟩ | ⟨before, walk, after, -, -, rfl, -, -, -, done⟩
    · exact .inl ⟨⟨core, endianCheck, daddr, saddr, rfl⟩, fails⟩
    · exact .inr ⟨_, failed, sound⟩
    · exact .inr ⟨_, done, sound.handOut ledger handed⟩
  | fetchAddressPerCore daddr saddr =>
    simp only [PoolCall.run]
    rcases fetchAddressPerCore_cases ledger daddr saddr with failed | ⟨walk, after, rfl, done⟩
    · rw [failed]
      exact .inr ⟨_, rfl, sound⟩
    · rw [done]
      have ledger : Ledger session.ap ([] ++ walk :: after) used := ledger
      exact .inr ⟨_, rfl, sound.handOut ledger handed⟩
  | freeAddress addr =>
    simp only [PoolCall.run]
    rcases freeAddress_cases sound.indexed addr with ⟨-, failed⟩ | ⟨known, entry, rfl, held, done⟩
    · rw [failed]
      refine .inr ⟨_, rfl, ?_⟩
      cases addr <;> exact sound
    · rw [done]
      have member := List.mem_of_getElem? held
      exact .inr ⟨_, rfl, sound.takeBack held (frees known rfl member)⟩

theorem fetched (isFetch : ∀ addr, call ≠ .freeAddress addr)
    (done : call.run session.ap = some (.ok result)) (success : result.ret = 0) :
    ∃ addr ∈ session.ap.pool, result.saddr = some addr ∧ addr ∉ session.handedOut := by
  obtain ⟨free, used, ledger, handed⟩ := sound.ledger
  have isNew : ∀ {walk before after}, free = before ++ walk :: after →
      ∃ addr ∈ session.ap.pool, (session.ap.handOut walk).saddr = some addr ∧
        addr ∉ session.handedOut := by
    rintro walk before after rfl
    have member : walk ∈ before ++ walk :: after := by simp
    have held := AddrPool.getElem?_addr (ledger.inside (List.mem_append_left _ member))
    refine ⟨_, List.mem_of_getElem? held, rfl, fun inUse => ?_⟩
    exact ledger.disjoint walk member ((sound.entry_used ledger handed held).mpr inUse)
  cases call with
  | fetchAddress core numQueues endianCheck daddr saddr =>
    simp only [PoolCall.run] at done
    rcases fetchAddress_cases ledger core numQueues endianCheck daddr saddr with
      ⟨-, fails⟩ | ⟨-, failed⟩ | ⟨before, walk, after, -, -, isFree, -, -, -, taken⟩
    · cases fails.symm.trans done
    · cases failed.symm.trans done
      cases success
    · cases taken.symm.trans done
      exact isNew isFree
  | fetchAddressPerCore daddr saddr =>
    simp only [PoolCall.run, Option.some.injEq, Except.ok.injEq] at done
    subst done
    rcases fetchAddressPerCore_cases ledger daddr saddr with failed | ⟨walk, after, isFree, taken⟩
    · rw [failed] at success
      cases success
    · rw [taken]
      have isFree : free = [] ++ walk :: after := isFree
      exact isNew isFree
  | freeAddress addr => exact absurd rfl (isFetch addr)

end

end Session.Sound

theorem Session.next_fetched {addr} (isFetch : ∀ addr, call ≠ .freeAddress addr)
    (success : result.ret = 0) (isAddr : result.saddr = some addr) :
    session.next call result = ⟨result.ap, addr :: session.handedOut⟩ := by
  cases call with
  | fetchAddress | fetchAddressPerCore => simp only [Session.next, success, isAddr]
  | freeAddress addr => exact absurd rfl (isFetch addr)

theorem Session.Sound.refused_iff {addr} (sound : session.Sound) :
    freeAddress session.ap (some addr) = some ⟨-1, none, session.ap⟩ ↔ addr ∉ session.ap.pool := by
  rcases freeAddress_cases sound.indexed (some addr) with
    ⟨absent, refused⟩ | ⟨known, entry, same, held, done⟩
  · exact ⟨fun _ => absent addr rfl, fun _ => refused⟩
  · cases same
    rw [done]
    refine ⟨fun refused => ?_, fun absent => absurd (List.mem_of_getElem? held) absent⟩
    cases congrArg PoolReturn.ret (Option.some.inj refused)

theorem Session.Sound.run {calls} (sound : session.Sound) (frees : session.FreesInUseAlong calls) :
    (∃ core endianCheck daddr saddr, .fetchAddress core 0 endianCheck daddr saddr ∈ calls) ∧
        session.run calls = some (.error .divisionByZero) ∨
      ∃ after, session.run calls = some (.ok after) ∧ after.Sound := by
  induction calls generalizing session with
  | nil => exact .inr ⟨session, rfl, sound⟩
  | cons call rest ih =>
    rw [Session.run]
    rcases sound.step frees.1 with
      ⟨⟨core, endianCheck, daddr, saddr, rfl⟩, fails⟩ | ⟨result, done, nextSound⟩
    · rw [fails]
      exact .inl ⟨⟨core, endianCheck, daddr, saddr, List.mem_cons_self⟩, rfl⟩
    · rw [done]
      rcases ih nextSound (frees.2 result done) with
        ⟨⟨core, endianCheck, daddr, saddr, member⟩, fails⟩ | after
      · exact .inl ⟨⟨core, endianCheck, daddr, saddr, List.mem_cons_of_mem _ member⟩, fails⟩
      · exact .inr after

/-- While addresses are freed only when in use, the lists share the entries between them, nothing in
use is handed out, and just addresses of other pools are refused. -/
theorem run_keeps_ledger (created : ap.Created) (calls : List PoolCall)
    (frees : Session.FreesInUseAlong ⟨ap, []⟩ calls) :
    (∃ core endianCheck daddr saddr, .fetchAddress core 0 endianCheck daddr saddr ∈ calls) ∧
        Session.run ⟨ap, []⟩ calls = some (.error .divisionByZero) ∨
      ∃ session, Session.run ⟨ap, []⟩ calls = some (.ok session) ∧
        (∃ free used, Ledger session.ap free used ∧ session.handedOut.Perm (used.map session.ap.addr)) ∧
        (∀ (call : PoolCall) result, (∀ addr, call ≠ .freeAddress addr) →
          call.run session.ap = some (.ok result) → result.ret = 0 →
          ∃ addr ∈ session.ap.pool, result.saddr = some addr ∧ addr ∉ session.handedOut) ∧
        ∀ addr, freeAddress session.ap (some addr) = some ⟨-1, none, session.ap⟩ ↔
          addr ∉ session.ap.pool := by
  rcases created.session_sound.run frees with fails | ⟨session, done, sound⟩
  · exact .inl fails
  · exact .inr ⟨session, done, sound.ledger, fun _ _ isFetch done success =>
      sound.fetched isFetch done success, fun _ => sound.refused_iff⟩

def singleAddress : PerCore :=
  ⟨2, 64511, htonl 0x0A000001, 1, htonl 0x0A000002, htons 80, false, 100⟩

theorem run_keeps_ledger_single :
    let addr : SockAddr := ⟨htonl 0x0A000001, htons 1025⟩
    let calls : List PoolCall := [.fetchAddressPerCore (some ⟨htonl 0x0A000002, htons 80⟩)
      (some ⟨inaddrAny, inportAny⟩), .freeAddress (some addr)]
    ∃ ap : AddrPool, ap.Created ∧ ap.pool = [addr] ∧ Session.FreesInUseAlong ⟨ap, []⟩ calls ∧
      ∃ session, Session.run ⟨ap, []⟩ calls = some (.ok session) ∧
        ∃ free used, Ledger session.ap free used := by
  intro addr calls
  obtain ⟨ap, done, view⟩ := created_of_eval
    (fun ap => (ap.pool, fetchAddressPerCore ap (some ⟨htonl 0x0A000002, htons 80⟩)
      (some ⟨inaddrAny, inportAny⟩) |> fun result => (result.ret, result.saddr)))
    (by decide +kernel : (createAddressPoolPerCore true singleAddress).toOption.join.map _ =
      some ([addr], (0 : Int), some addr))
  simp only [Prod.mk.injEq] at view
  obtain ⟨pool, ret, saddr⟩ := view
  have created : ap.Created := .inr ⟨true, singleAddress, done⟩
  have frees : Session.FreesInUseAlong ⟨ap, []⟩ calls := by
    refine ⟨nofun, fun result fetched => ?_⟩
    cases fetched
    refine ⟨fun other same _ => ?_, fun _ _ => trivial⟩
    have isAddr : addr = other := Option.some.inj (PoolCall.freeAddress.inj same)
    simp only [Session.next, ret, saddr, ← isAddr]
    exact List.mem_cons_self
  refine ⟨ap, created, pool, frees, ?_⟩
  rcases run_keeps_ledger created calls frees with
    ⟨⟨core, endianCheck, daddr, saddr, member⟩, -⟩ | ⟨session, run, ⟨free, used, ledger, -⟩, -⟩
  · simp [calls] at member
  · exact ⟨session, run, free, used, ledger⟩

theorem freeAddress_never_fetched :
    let addr : SockAddr := ⟨htonl 0x0A000001, htons 1025⟩
    ∃ ap : AddrPool, ap.Created ∧ ap.pool = [addr] ∧
      ∃ result, freeAddress ap (some addr) = some result ∧ result.ret = 0 ∧
        result.ap.numFree = 2 ∧ result.ap.numUsed = -1 ∧
        (fetchAddressPerCore result.ap (some ⟨htonl 0x0A000002, htons 80⟩)
          (some ⟨inaddrAny, inportAny⟩)).ret = -1 := by
  intro addr
  obtain ⟨ap, done, view⟩ := created_of_eval
    (fun ap => (ap.pool, (freeAddress ap (some addr)).map fun result =>
      (result.ret, result.ap.numFree, result.ap.numUsed,
        (fetchAddressPerCore result.ap (some ⟨htonl 0x0A000002, htons 80⟩)
          (some ⟨inaddrAny, inportAny⟩)).ret)))
    (by decide +kernel : (createAddressPoolPerCore true singleAddress).toOption.join.map _ =
      some ([addr], some ((0 : Int), (2 : Int), -1, -1)))
  obtain ⟨pool, freed⟩ := Prod.mk.inj view
  obtain ⟨result, isResult, values⟩ := Option.map_eq_some_iff.mp freed
  simp only [Prod.mk.injEq] at values
  exact ⟨ap, .inr ⟨true, singleAddress, done⟩, pool, result, isResult, values⟩

end Session

end Mcc
