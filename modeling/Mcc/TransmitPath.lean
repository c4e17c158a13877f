import Mcc.Machine

/-!
The transmit path of the DPDK module. The stack thread fills the mbufs of a write table and hands
them to a ring, the I/O thread takes them from the ring and hands them to the network card, and the
driver frees them. Each of the three hand-overs may take only a part of what it is given.
-/

namespace Mcc.TransmitPath

open Function (update update_self update_of_ne)
open Multiset (coe_add coe_nil coe_erase coe_nodup coe_singleton singleton_add nodup_of_le map_coe)
open List (length_take map_append range' take_append_drop)

def maxPktBurst : Nat := 64

structure MbufTable where
  len : Nat
  mTable : List Nat
  deriving Repr, DecidableEq

/-- Where the stack thread is: between two calls, or in `dpdk_enqueue_pkts` after the ring took
`accepted` mbufs and the slots before `next` got fresh ones. -/
inductive Stack where
  | idle
  | refilling (ifidx next accepted : Nat)
  deriving Repr, DecidableEq

/-- Where the I/O thread is: between two calls, or between the ring and the network card with
`pkts`; `dpdk_pass_pkt` has counted its packet by then. -/
inductive Io where
  | idle
  | sending (ifidx : Nat) (counted : Bool) (pkts : List Nat)
  deriving Repr, DecidableEq

/-- The path of one core. `data` is the packet that an mbuf was filled with last, by its number,
`sent` are the packets handed to the network card, with their interfaces, and `lost` those in mbufs
that nobody can find any more. -/
structure Path where
  wmbufs : Nat → MbufTable
  pool : List Nat
  ring : List Nat
  nic : List Nat
  data : Nat → Nat
  filled : Nat
  stack : Stack
  io : Io
  txPackets : Nat → UInt64
  sent : List (Nat × Nat)
  freed : List Nat
  lost : List Nat
  exited : Bool

open TransmitPath.Path

namespace Path

def start (devices spare : Nat) : Path where
  wmbufs ifidx := { len := 0, mTable := List.range' (ifidx * maxPktBurst) maxPktBurst }
  pool := List.range' (devices * maxPktBurst) spare
  ring := []
  nic := []
  data _ := 0
  filled := 0
  stack := .idle
  io := .idle
  txPackets _ := 0
  sent := []
  freed := []
  lost := []
  exited := false

def getWptr (s : Path) (ifidx : Nat) : Path :=
  let table := s.wmbufs ifidx
  if table.len = maxPktBurst then s
  else
    match table.mTable[table.len]? with
    | none => s
    | some m =>
      { s with
        data := update s.data m s.filled
        filled := s.filled + 1
        wmbufs := update s.wmbufs ifidx { table with len := table.len + 1 } }

def enqueuePkts (s : Path) (ifidx accepted : Nat) : Path :=
  let table := s.wmbufs ifidx
  if 0 < table.len then
    let pkts := (table.mTable.take table.len).take accepted
    { s with ring := s.ring ++ pkts, stack := .refilling ifidx 0 pkts.length }
  else s

def allocate (s : Path) (ifidx next accepted m : Nat) : Path :=
  if s.pool = [] then { s with exited := true }
  else if m ∈ s.pool then
    let table := s.wmbufs ifidx
    let last := next + 1 = table.len
    { s with
      pool := s.pool.erase m
      lost := if next < accepted then s.lost else s.lost ++ (table.mTable[next]?.map s.data).toList
      wmbufs := update s.wmbufs ifidx
        { len := if last then 0 else table.len, mTable := table.mTable.set next m }
      stack := if last then .idle else .refilling ifidx (next + 1) accepted }
  else s

def passPkt (s : Path) (ifidx : Nat) : Path :=
  match s.ring with
  | [] => s
  | m :: rest =>
    { s with
      ring := rest
      txPackets := update s.txPackets ifidx (s.txPackets ifidx + 1)
      io := .sending ifidx true [m] }

def burstPkts (s : Path) (ifidx count : Nat) : Path :=
  let pkts := s.ring.take (min count maxPktBurst)
  if pkts = [] then s
  else { s with ring := s.ring.drop (min count maxPktBurst), io := .sending ifidx false pkts }

def txBurst (s : Path) (ifidx : Nat) (counted : Bool) (pkts : List Nat) (count : Nat) : Path :=
  let taken := pkts.take count
  { s with
    nic := s.nic ++ taken
    sent := s.sent ++ taken.map fun m => (ifidx, s.data m)
    lost := s.lost ++ (pkts.drop count).map s.data
    txPackets :=
      if counted then s.txPackets
      else update s.txPackets ifidx (s.txPackets ifidx + UInt64.ofNat taken.length)
    io := .idle }

def release (s : Path) (m : Nat) : Path :=
  if m ∈ s.nic then
    { s with nic := s.nic.erase m, pool := m :: s.pool, freed := s.freed ++ [s.data m] }
  else s

end Path

inductive Step where
  | getWptr (ifidx : Nat)
  | enqueuePkts (ifidx accepted : Nat)
  | allocate (m : Nat)
  | passPkt (ifidx : Nat)
  | burstPkts (ifidx count : Nat)
  | txBurst (count : Nat)
  | release (m : Nat)

namespace Path

def step (devices : Nat) (s : Path) (step : Step) : Path :=
  if s.exited then s
  else
    match step, s.stack, s.io with
    | .getWptr ifidx, .idle, _ => if ifidx < devices then s.getWptr ifidx else s
    | .enqueuePkts ifidx accepted, .idle, _ =>
      if ifidx < devices then s.enqueuePkts ifidx accepted else s
    | .allocate m, .refilling ifidx next accepted, _ => s.allocate ifidx next accepted m
    | .passPkt ifidx, _, .idle => s.passPkt ifidx
    | .burstPkts ifidx count, _, .idle => s.burstPkts ifidx count
    | .txBurst count, _, .sending ifidx counted pkts => s.txBurst ifidx counted pkts count
    | .release m, _, _ => s.release m
    | _, _, _ => s

def run (devices : Nat) (s : Path) (steps : List Step) : Path := steps.foldl (step devices) s

/-- The slots of a table, from the first to before the second, whose mbufs the ring has and that are
not refilled yet. -/
def stale (s : Path) (ifidx : Nat) : Nat × Nat :=
  match s.stack with
  | .idle => (0, 0)
  | .refilling busy next accepted => if ifidx = busy then (next, max next accepted) else (0, 0)

def inTable (s : Path) (ifidx : Nat) : List Nat :=
  ((s.wmbufs ifidx).mTable.take (s.wmbufs ifidx).len).drop (s.stale ifidx).2

def hand (s : Path) : List Nat :=
  match s.io with
  | .idle => []
  | .sending _ _ pkts => pkts

def packets (devices : Nat) (s : Path) : Multiset Nat :=
  (∑ ifidx ∈ Finset.range devices, (↑((s.inTable ifidx).map s.data) : Multiset Nat)) +
    ↑(s.ring.map s.data) + ↑(s.hand.map s.data) + ↑(s.nic.map s.data) + ↑s.freed

end Path

structure Conserved (devices : Nat) (s : Path) : Prop where
  once : s.packets devices = Multiset.range s.filled
  handed : (↑(s.sent.map Prod.snd) : Multiset Nat) = ↑(s.nic.map s.data) + ↑s.freed
  sentOnce : (s.sent.map Prod.snd).Nodup
  counted : s.io = .idle → ∀ ifidx,
    s.txPackets ifidx = UInt64.ofNat (s.sent.countP fun packet => packet.1 = ifidx)

def Step.Whole (s : Path) (devices : Nat) : Step → Prop
  | .enqueuePkts ifidx accepted => s.exited = false → s.stack = .idle → ifidx < devices →
      (s.wmbufs ifidx).len ≤ accepted
  | .txBurst count => s.exited = false → s.hand.length ≤ count
  | _ => True

def WholeRun (devices : Nat) (s : Path) : List Step → Prop
  | [] => True
  | step :: rest => step.Whole s devices ∧ WholeRun devices (s.step devices step) rest

namespace Path

def owned (s : Path) (ifidx : Nat) : List Nat :=
  (s.wmbufs ifidx).mTable.take (s.stale ifidx).1 ++ (s.wmbufs ifidx).mTable.drop (s.stale ifidx).2

def held (devices : Nat) (s : Path) : Multiset Nat :=
  ↑s.pool + (∑ ifidx ∈ Finset.range devices, (↑(s.owned ifidx) : Multiset Nat)) + ↑s.ring +
    ↑s.hand + ↑s.nic

end Path

structure Sound (devices : Nat) (s : Path) : Prop where
  length : ∀ ifidx, (s.wmbufs ifidx).mTable.length = maxPktBurst
  room : ∀ ifidx, (s.wmbufs ifidx).len ≤ maxPktBurst
  refilling : ∀ ifidx next accepted, s.stack = .refilling ifidx next accepted →
    ifidx < devices ∧ next < (s.wmbufs ifidx).len ∧ accepted ≤ (s.wmbufs ifidx).len
  nodup : (s.held devices).Nodup
  conserved : s.packets devices + ↑s.lost = Multiset.range s.filled
  handed : (↑(s.sent.map Prod.snd) : Multiset Nat) = ↑(s.nic.map s.data) + ↑s.freed

theorem sum_split {devices index : Nat} {f g : Nat → Multiset Nat} (inside : index < devices)
    (same : ∀ other < devices, other ≠ index → g other = f other) :
    ∃ rest, ∑ i ∈ Finset.range devices, f i = f index + rest ∧
      ∑ i ∈ Finset.range devices, g i = g index + rest ∧
      ∀ other < devices, other ≠ index → f other ≤ rest := by
  have member : index ∈ Finset.range devices := Finset.mem_range.mpr inside
  refine ⟨∑ i ∈ (Finset.range devices).erase index, f i, (Finset.add_sum_erase _ f member).symm,
    ?_, fun other below distinct => ?_⟩
  · rw [← Finset.add_sum_erase _ g member]
    congr 1
    refine Finset.sum_congr rfl fun other isOther => ?_
    obtain ⟨distinct, below⟩ := Finset.mem_erase.mp isOther
    exact same other (Finset.mem_range.mp below) distinct
  · exact Finset.single_le_sum (fun _ _ => Multiset.zero_le _)
      (Finset.mem_erase.mpr ⟨distinct, Finset.mem_range.mpr below⟩)

theorem map_update {data : Nat → Nat} {m value : Nat} {mbufs : List Nat} (absent : m ∉ mbufs) :
    mbufs.map (update data m value) = mbufs.map data :=
  List.map_congr_left fun _ member => update_of_ne (ne_of_mem_of_not_mem member absent) _ _

theorem inTable_subset_owned (s : Path) (ifidx : Nat) : s.inTable ifidx ⊆ s.owned ifidx := by
  intro m member
  rw [inTable, List.drop_take] at member
  exact List.mem_append_right _ (List.mem_of_mem_take member)

theorem start_sound (devices spare : Nat) : Sound devices (.start devices spare) where
  length ifidx := List.length_range'
  room ifidx := Nat.zero_le _
  refilling := nofun
  nodup := by
    have tables : ∀ count, ∑ ifidx ∈ Finset.range count,
        (↑((Path.start devices spare).owned ifidx) : Multiset Nat) =
          ↑(range' 0 (count * maxPktBurst)) := by
      intro count
      induction count with
      | zero => rfl
      | succ count ih =>
        rw [Finset.sum_range_succ, ih, Nat.succ_mul, ← List.range'_append_1, ← coe_add,
          Nat.zero_add]
        rfl
    rw [held, tables]
    change (↑(range' (devices * maxPktBurst) spare) + ↑(range' 0 (devices * maxPktBurst)) +
      0 + 0 + 0 : Multiset Nat).Nodup
    rw [add_zero, add_zero, add_zero, add_comm, coe_add]
    have joined := @List.range'_append_1 0 (devices * maxPktBurst) spare
    rw [Nat.zero_add] at joined
    rw [joined]
    exact Multiset.coe_nodup.mpr List.nodup_range'
  conserved := by
    rw [packets, Finset.sum_eq_zero]
    · rfl
    · exact fun _ _ => rfl
  handed := rfl

section Steps

variable {devices : Nat} {s : Path}

theorem stale_of_idle (idle : s.stack = .idle) (ifidx : Nat) : s.stale ifidx = (0, 0) := by
  rw [stale, idle]

theorem owned_of_idle (idle : s.stack = .idle) (ifidx : Nat) :
    s.owned ifidx = (s.wmbufs ifidx).mTable := by
  rw [owned, stale_of_idle idle]
  rfl

theorem inTable_of_idle (idle : s.stack = .idle) (ifidx : Nat) :
    s.inTable ifidx = (s.wmbufs ifidx).mTable.take (s.wmbufs ifidx).len := by
  rw [inTable, stale_of_idle idle]
  rfl

variable {ifidx : Nat}

section

variable (sound : Sound devices s)
include sound

theorem Sound.elsewhere {m : Nat} (inside : ifidx < devices)
    (member : m ∈ s.owned ifidx) : m ∉ s.ring ∧ m ∉ s.hand ∧ m ∉ s.nic ∧
      ∀ other < devices, other ≠ ifidx → m ∉ s.owned other := by
  obtain ⟨rest, split, -, part⟩ := @sum_split devices ifidx (fun i => ↑(s.owned i))
    (fun i => ↑(s.owned i)) inside fun _ _ _ => rfl
  have nodup := sound.nodup
  have shape : s.held devices = ↑(s.owned ifidx) + (↑s.pool + rest + ↑s.ring + ↑s.hand + ↑s.nic) := by
    rw [held, split]
    abel
  rw [shape, Multiset.nodup_add] at nodup
  have absent : m ∉ ↑s.pool + rest + ↑s.ring + ↑s.hand + ↑s.nic :=
    Multiset.disjoint_left.mp nodup.2.2 member
  simp only [Multiset.mem_add, Multiset.mem_coe, not_or] at absent
  obtain ⟨⟨⟨⟨-, notRest⟩, notRing⟩, notHand⟩, notNic⟩ := absent
  exact ⟨notRing, notHand, notNic, fun other below distinct isOther =>
    notRest (Multiset.mem_of_le (part other below distinct) isOther)⟩

theorem Sound.owned_nodup (inside : ifidx < devices) : (s.owned ifidx).Nodup := by
  obtain ⟨rest, split, -, -⟩ := @sum_split devices ifidx (fun i => ↑(s.owned i))
    (fun i => ↑(s.owned i)) inside fun _ _ _ => rfl
  have nodup := sound.nodup
  rw [held, split] at nodup
  refine Multiset.coe_nodup.mp (nodup_of_le ?_ nodup)
  refine le_add_right (le_add_right (le_add_right (le_add_left (le_add_right le_rfl))))

theorem Sound.of_table (inside : ifidx < devices) {after : Path}
    (length : (after.wmbufs ifidx).mTable.length = maxPktBurst)
    (room : (after.wmbufs ifidx).len ≤ maxPktBurst)
    (others : ∀ other, other ≠ ifidx →
      after.wmbufs other = s.wmbufs other ∧ after.stale other = s.stale other)
    (refilling : ∀ index next accepted, after.stack = .refilling index next accepted →
      index < devices ∧ next < (after.wmbufs index).len ∧ accepted ≤ (after.wmbufs index).len)
    (data : ∀ m, m ∉ s.owned ifidx → after.data m = s.data m)
    (same : after.hand = s.hand ∧ after.nic = s.nic ∧ after.freed = s.freed ∧ after.sent = s.sent)
    (owned : (↑after.pool + ↑(after.owned ifidx) + ↑after.ring : Multiset Nat) ≤
      ↑s.pool + ↑(s.owned ifidx) + ↑s.ring)
    (packets : (↑((after.inTable ifidx).map after.data) + ↑(after.ring.map after.data) + ↑after.lost +
        Multiset.range s.filled : Multiset Nat) =
      ↑((s.inTable ifidx).map s.data) + ↑(s.ring.map s.data) + ↑s.lost +
        Multiset.range after.filled) : Sound devices after := by
  obtain ⟨hand, nic, freed, sent⟩ := same
  have mapped {mbufs : List Nat} (apart : ∀ m ∈ mbufs, m ∉ s.owned ifidx) :
      mbufs.map after.data = mbufs.map s.data :=
    List.map_congr_left fun m member => data m (apart m member)
  have handMap := mapped fun m member own => (sound.elsewhere inside own).2.1 member
  have nicMap := mapped fun m member own => (sound.elsewhere inside own).2.2.1 member
  constructor
  · intro other
    by_cases here : other = ifidx
    · exact here ▸ length
    · exact (others other here).1 ▸ sound.length other
  · intro other
    by_cases here : other = ifidx
    · exact here ▸ room
    · exact (others other here).1 ▸ sound.room other
  · exact refilling
  · have apart : ∀ other < devices, other ≠ ifidx →
        (↑(after.owned other) : Multiset Nat) = ↑(s.owned other) := by
      intro other below distinct
      rw [Path.owned, Path.owned, (others other distinct).1, (others other distinct).2]
    obtain ⟨rest, before, later, -⟩ := sum_split inside apart
    refine nodup_of_le ?_ sound.nodup
    rw [held, held, before, later, hand, nic]
    calc (↑after.pool + (↑(after.owned ifidx) + rest) + ↑after.ring + ↑s.hand + ↑s.nic : Multiset Nat)
        = ↑after.pool + ↑(after.owned ifidx) + ↑after.ring + (rest + ↑s.hand + ↑s.nic) := by abel
      _ ≤ ↑s.pool + ↑(s.owned ifidx) + ↑s.ring + (rest + ↑s.hand + ↑s.nic) := by gcongr
      _ = ↑s.pool + (↑(s.owned ifidx) + rest) + ↑s.ring + ↑s.hand + ↑s.nic := by abel
  · have apart : ∀ other < devices, other ≠ ifidx →
        (↑((after.inTable other).map after.data) : Multiset Nat) = ↑((s.inTable other).map s.data) := by
      intro other below distinct
      rw [inTable, (others other distinct).1, (others other distinct).2, ← inTable, mapped]
      exact fun m member own => (sound.elsewhere inside own).2.2.2 other below distinct
        (inTable_subset_owned s other member)
    obtain ⟨rest, before, later, -⟩ := sum_split inside apart
    have kept := sound.conserved
    rw [Path.packets, before] at kept
    rw [Path.packets, later, hand, nic, freed, handMap, nicMap]
    refine add_right_cancel (b := Multiset.range s.filled) ?_
    calc _ = ↑((after.inTable ifidx).map after.data) + ↑(after.ring.map after.data) + ↑after.lost +
          Multiset.range s.filled +
          (rest + ↑(s.hand.map s.data) + ↑(s.nic.map s.data) + ↑s.freed) := by abel
      _ = _ := by
        rw [packets, ← kept]
        abel
  · rw [sent, nic, freed, nicMap]
    exact sound.handed

theorem getWptr_sound (idle : s.stack = .idle) (inside : ifidx < devices) :
    Sound devices (s.getWptr ifidx) := by
  unfold getWptr
  dsimp only
  split
  · exact sound
  rename_i more
  split
  · exact sound
  rename_i m isSlot
  have own : m ∈ s.owned ifidx := by
    rw [owned_of_idle idle]
    exact List.mem_of_getElem? isSlot
  have slot : (s.wmbufs ifidx).mTable.take ((s.wmbufs ifidx).len + 1) =
      (s.wmbufs ifidx).mTable.take (s.wmbufs ifidx).len ++ [m] := by
    rw [List.take_add_one, isSlot]
    rfl
  have fresh : m ∉ s.inTable ifidx := by
    have nodup := sound.owned_nodup inside
    rw [owned_of_idle idle] at nodup
    have front := nodup.sublist (List.take_sublist ((s.wmbufs ifidx).len + 1) _)
    rw [slot, List.nodup_append] at front
    rw [inTable_of_idle idle]
    exact fun early => front.2.2 m early m (List.mem_singleton_self m) rfl
  refine sound.of_table inside ?_ ?_ (fun other distinct => ⟨update_of_ne distinct _ _, rfl⟩) ?_ ?_
    ⟨rfl, rfl, rfl, rfl⟩ ?_ ?_
  · simpa using sound.length ifidx
  · simpa using Nat.succ_le_of_lt (Nat.lt_of_le_of_ne (sound.room ifidx) more)
  · exact fun _ _ _ busy => nomatch idle.symm.trans busy
  · intro other apart
    refine update_of_ne ?_ _ _
    rintro rfl
    exact apart own
  · rw [owned_of_idle idle, owned_of_idle (by exact idle)]
    dsimp only
    rw [update_self]
  · have single : (↑([m].map (update s.data m s.filled)) : Multiset Nat) = {s.filled} := by simp
    rw [inTable_of_idle (by exact idle)]
    dsimp only
    rw [update_self, slot, ← inTable_of_idle idle, map_append, map_update fresh,
      map_update (sound.elsewhere inside own).1, ← coe_add, single, Multiset.range_succ,
      ← singleton_add]
    abel

theorem Sound.of_moves {after} (wmbufs : after.wmbufs = s.wmbufs)
    (stack : after.stack = s.stack) (data : after.data = s.data) (filled : after.filled = s.filled)
    (fewer : (↑after.pool + ↑after.ring + ↑after.hand + ↑after.nic : Multiset Nat) ≤
      ↑s.pool + ↑s.ring + ↑s.hand + ↑s.nic)
    (moved : (↑(after.ring.map s.data) + ↑(after.hand.map s.data) + ↑(after.nic.map s.data) +
      ↑after.freed + ↑after.lost : Multiset Nat) = ↑(s.ring.map s.data) + ↑(s.hand.map s.data) +
        ↑(s.nic.map s.data) + ↑s.freed + ↑s.lost)
    (handed : (↑(after.sent.map Prod.snd) : Multiset Nat) =
      ↑(after.nic.map s.data) + ↑after.freed) : Sound devices after := by
  have stale : ∀ ifidx, after.stale ifidx = s.stale ifidx := fun ifidx => by
    rw [Path.stale, Path.stale, stack]
  have owned : ∀ ifidx, after.owned ifidx = s.owned ifidx := fun ifidx => by
    rw [Path.owned, Path.owned, wmbufs, stale]
  have inTable : ∀ ifidx, after.inTable ifidx = s.inTable ifidx := fun ifidx => by
    rw [Path.inTable, Path.inTable, wmbufs, stale]
  constructor
  · rw [wmbufs]
    exact sound.length
  · rw [wmbufs]
    exact sound.room
  · rw [wmbufs, stack]
    exact sound.refilling
  · refine nodup_of_le ?_ sound.nodup
    have tables : ∀ t : Path, t.held devices = (∑ ifidx ∈ Finset.range devices,
        (↑(t.owned ifidx) : Multiset Nat)) + (↑t.pool + ↑t.ring + ↑t.hand + ↑t.nic) := by
      intro t
      rw [held]
      abel
    rw [tables, tables]
    simp only [owned]
    exact add_le_add_right fewer _
  · have tables : ∀ t : Path, t.packets devices + ↑t.lost = (∑ ifidx ∈ Finset.range devices,
        (↑((t.inTable ifidx).map t.data) : Multiset Nat)) + (↑(t.ring.map t.data) +
          ↑(t.hand.map t.data) + ↑(t.nic.map t.data) + ↑t.freed + ↑t.lost) := by
      intro t
      rw [packets]
      abel
    rw [filled, ← sound.conserved, tables, tables]
    simp only [inTable, data]
    rw [moved]
  · rw [data]
    exact handed

theorem Sound.of_dequeue (idle : s.io = .idle) {pkts rest} (isRing : s.ring = pkts ++ rest)
    (counted : Bool) (txPackets : Nat → UInt64) :
    Sound devices { s with ring := rest, txPackets, io := .sending ifidx counted pkts } := by
  have empty : s.hand = [] := by rw [hand, idle]
  refine sound.of_moves rfl rfl rfl rfl ?_ ?_ sound.handed
  · change (↑s.pool + ↑rest + ↑pkts + ↑s.nic : Multiset Nat) ≤ _
    rw [isRing, empty, ← coe_add]
    exact le_of_eq (by simp only [coe_nil, add_zero]; abel)
  · change (↑(rest.map s.data) + ↑(pkts.map s.data) + ↑(s.nic.map s.data) + ↑s.freed + ↑s.lost :
      Multiset Nat) = _
    rw [isRing, empty, map_append, ← coe_add]
    simp only [List.map_nil, coe_nil, add_zero]
    abel

theorem passPkt_sound (idle : s.io = .idle) (ifidx : Nat) : Sound devices (s.passPkt ifidx) := by
  unfold passPkt
  split
  · exact sound
  · next isRing => exact sound.of_dequeue idle isRing true _

theorem burstPkts_sound (idle : s.io = .idle) (ifidx count : Nat) :
    Sound devices (s.burstPkts ifidx count) := by
  unfold burstPkts
  dsimp only
  split
  · exact sound
  · exact sound.of_dequeue idle (take_append_drop _ s.ring).symm false _

theorem txBurst_sound {counted pkts} (sending : s.io = .sending ifidx counted pkts) (count : Nat) :
    Sound devices (s.txBurst ifidx counted pkts count) := by
  have hand : s.hand = pkts.take count ++ pkts.drop count := by
    rw [Path.hand, sending, take_append_drop]
  refine sound.of_moves rfl rfl rfl rfl ?_ ?_ ?_
  · rw [hand, ← coe_add]
    change (↑s.pool + ↑s.ring + 0 + ↑(s.nic ++ pkts.take count) : Multiset Nat) ≤ _
    rw [← coe_add]
    refine le_trans (le_add_right (le_refl _)) (le_of_eq (?_ : _ + ↑(pkts.drop count) = _))
    abel
  · rw [hand, map_append, ← coe_add]
    change (↑(s.ring.map s.data) + 0 + ↑((s.nic ++ pkts.take count).map s.data) + ↑s.freed +
      ↑(s.lost ++ (pkts.drop count).map s.data) : Multiset Nat) = _
    rw [map_append, ← coe_add, ← coe_add]
    abel
  · change (↑((s.sent ++ (pkts.take count).map fun m => (ifidx, s.data m)).map Prod.snd) :
      Multiset Nat) = ↑((s.nic ++ pkts.take count).map s.data) + ↑s.freed
    rw [map_append, map_append, ← coe_add, ← coe_add, sound.handed,
      List.map_map]
    have second : (Prod.snd ∘ fun m => (ifidx, s.data m)) = s.data := rfl
    rw [second]
    abel

theorem release_sound (m : Nat) : Sound devices (s.release m) := by
  unfold release
  split
  · rename_i member
    have parts : (↑s.nic : Multiset Nat) = ↑(s.nic.erase m) + {m} := by
      rw [← coe_erase, add_comm, singleton_add, Multiset.cons_erase member]
    have data : (↑(s.nic.map s.data) : Multiset Nat) = ↑((s.nic.erase m).map s.data) + {s.data m} := by
      rw [← map_coe, parts, Multiset.map_add, Multiset.map_singleton, map_coe]
    refine sound.of_moves rfl rfl rfl rfl ?_ ?_ ?_
    · change (↑(m :: s.pool) + ↑s.ring + ↑s.hand + ↑(s.nic.erase m) : Multiset Nat) ≤ _
      rw [parts, ← Multiset.cons_coe, ← singleton_add]
      exact le_of_eq (by abel)
    · change (↑(s.ring.map s.data) + ↑(s.hand.map s.data) + ↑((s.nic.erase m).map s.data) +
        ↑(s.freed ++ [s.data m]) + ↑s.lost : Multiset Nat) = _
      rw [data, ← coe_add, coe_singleton]
      abel
    · change (↑(s.sent.map Prod.snd) : Multiset Nat) =
        ↑((s.nic.erase m).map s.data) + ↑(s.freed ++ [s.data m])
      rw [sound.handed, data, ← coe_add, coe_singleton]
      abel
  · exact sound

end

variable {next accepted : Nat}

theorem stale_of_other {busy} (busyStack : s.stack = .refilling busy next accepted)
    {other} (distinct : other ≠ busy) : s.stale other = (0, 0) := by
  rw [stale, busyStack]
  exact if_neg distinct

theorem stale_of_busy {busy} (busyStack : s.stack = .refilling busy next accepted) :
    s.stale busy = (next, max next accepted) := by
  rw [stale, busyStack]
  exact if_pos rfl

theorem enqueuePkts_sound (sound : Sound devices s) (idle : s.stack = .idle)
    (inside : ifidx < devices) (accepted : Nat) : Sound devices (s.enqueuePkts ifidx accepted) := by
  unfold enqueuePkts
  dsimp only
  split
  swap
  · exact sound
  rename_i above
  obtain ⟨mTable, isTable⟩ : ∃ mTable, mTable = (s.wmbufs ifidx).mTable := ⟨_, rfl⟩
  obtain ⟨len, isLen⟩ : ∃ len, len = (s.wmbufs ifidx).len := ⟨_, rfl⟩
  obtain ⟨count, isCount⟩ : ∃ count, count = min accepted len := ⟨_, rfl⟩
  have whole : len ≤ mTable.length := by
    rw [isLen, isTable, sound.length]
    exact sound.room ifidx
  have pkts : (mTable.take len).take accepted = mTable.take count := by
    rw [List.take_take, isCount]
  have size : (mTable.take count).length = count := by
    rw [length_take]
    omega
  rw [← isTable, ← isLen, pkts, size]
  have front : (mTable.take len).take count = mTable.take count := by
    rw [List.take_take, isCount]
    congr 1
    omega
  refine sound.of_table inside (sound.length ifidx) (sound.room ifidx) ?_ ?_ (fun _ _ => rfl)
    ⟨rfl, rfl, rfl, rfl⟩ ?_ ?_
  · intro other distinct
    rw [stale_of_other rfl distinct, stale_of_idle idle]
    exact ⟨rfl, rfl⟩
  · intro other next taken busy
    cases busy
    have fits : count ≤ len := by omega
    exact ⟨inside, above, isLen ▸ fits⟩
  · have parts := coe_add (mTable.take count) (mTable.drop count)
    rw [take_append_drop] at parts
    rw [owned_of_idle idle, owned, stale_of_busy rfl, Nat.zero_max, ← isTable, ← parts]
    simp only [← coe_add, List.take_zero, coe_nil]
    apply le_of_eq
    abel
  · have parts := congrArg (List.map s.data) (take_append_drop count (mTable.take len))
    rw [inTable_of_idle idle, inTable, stale_of_busy rfl, Nat.zero_max, ← isTable, ← isLen, ← parts,
      front]
    simp only [map_append, ← coe_add]
    abel

theorem drop_max {mTable : List Nat} (inside : next < mTable.length) :
    mTable.drop (max next accepted) = (if next < accepted then [] else mTable[next]?.toList) ++
      mTable.drop (max (next + 1) accepted) := by
  split
  · rename_i taken
    rw [max_eq_right (Nat.le_of_lt taken), max_eq_right taken, List.nil_append]
  · rename_i refused
    rw [max_eq_left (Nat.le_of_not_lt refused), max_eq_left (by omega),
      List.getElem?_eq_getElem inside, List.drop_eq_getElem_cons inside]
    rfl

theorem allocate_sound (sound : Sound devices s) (busy : s.stack = .refilling ifidx next accepted)
    (m : Nat) : Sound devices (s.allocate ifidx next accepted m) := by
  generalize isAfter : s.allocate ifidx next accepted m = after
  unfold allocate at isAfter
  dsimp only at isAfter
  split at isAfter
  · rw [← isAfter]
    exact { sound with }
  split at isAfter
  swap
  · rwa [← isAfter]
  rename_i member
  obtain ⟨inside, below, within⟩ := sound.refilling ifidx next accepted busy
  have length := sound.length ifidx
  have room := sound.room ifidx
  generalize isTable : (s.wmbufs ifidx).mTable = mTable at isAfter length
  generalize isLen : (s.wmbufs ifidx).len = len at isAfter below within room
  have others : ∀ other, other ≠ ifidx → after.wmbufs other = s.wmbufs other := by
    intro other distinct
    rw [← isAfter]
    exact update_of_ne distinct _ _
  have here : after.wmbufs ifidx =
      { len := if next + 1 = len then 0 else len, mTable := mTable.set next m } := by
    rw [← isAfter]
    exact update_self _ _ _
  have stack : after.stack = if next + 1 = len then .idle else .refilling ifidx (next + 1) accepted := by
    rw [← isAfter]
  have elsewhere : ∀ other, other ≠ ifidx → after.stale other = s.stale other := by
    intro other distinct
    rw [stale_of_other busy distinct]
    split at stack
    · exact stale_of_idle stack other
    · exact stale_of_other stack distinct
  obtain ⟨dropped, isDropped⟩ : ∃ dropped, dropped =
      if next < accepted then [] else mTable[next]?.toList := ⟨_, rfl⟩
  have ownedBefore : s.owned ifidx =
      mTable.take next ++ (dropped ++ mTable.drop (max (next + 1) accepted)) := by
    rw [owned, stale_of_busy busy, isTable, isDropped, ← drop_max (by omega)]
  have inTableBefore : s.inTable ifidx = dropped ++ (mTable.take len).drop (max (next + 1) accepted) := by
    have slot : (mTable.take len)[next]? = mTable[next]? := List.getElem?_take_of_lt below
    rw [inTable, stale_of_busy busy, isTable, isLen, isDropped, ← slot, ← drop_max]
    rw [length_take]
    omega
  have front : (mTable.set next m).take (next + 1) = mTable.take next ++ [m] := by
    rw [List.take_add_one, List.take_set_of_le (Nat.le_refl next), List.getElem?_set_self (by omega)]
    rfl
  have back : (mTable.set next m).drop (max (next + 1) accepted) =
      mTable.drop (max (next + 1) accepted) := List.drop_set_of_lt (by omega)
  have ownedAfter : after.owned ifidx =
      mTable.take next ++ [m] ++ mTable.drop (max (next + 1) accepted) := by
    rw [← front, ← back, owned, here]
    split at stack
    · rename_i last
      rw [stale_of_idle stack, max_eq_left (by omega)]
      exact (take_append_drop 0 _).trans (take_append_drop _ _).symm
    · rw [stale_of_busy stack]
  have inTableAfter : after.inTable ifidx = (mTable.take len).drop (max (next + 1) accepted) := by
    have set : ((mTable.set next m).take len).drop (max (next + 1) accepted) =
        (mTable.take len).drop (max (next + 1) accepted) := by
      rw [List.take_set, List.drop_set_of_lt (by omega)]
    rw [← set, inTable, here]
    split at stack
    · rename_i last
      rw [stale_of_idle stack, if_pos last, max_eq_left (by omega), last]
      simp
    · rename_i more
      rw [stale_of_busy stack, if_neg more]
  refine sound.of_table inside ?_ ?_ ?_ ?_ ?_ ?_ ?_ ?_
  · rw [here, List.length_set, length]
  · rw [here]
    dsimp only
    split <;> omega
  · exact fun other distinct => ⟨others other distinct, elsewhere other distinct⟩
  · intro other later taken busyAfter
    rw [stack] at busyAfter
    split at busyAfter
    · cases busyAfter
    · rename_i more
      cases busyAfter
      rw [here]
      dsimp only
      rw [if_neg more]
      exact ⟨inside, by omega, within⟩
  · intro other apart
    rw [← isAfter]
  · rw [← isAfter]
    exact ⟨rfl, rfl, rfl, rfl⟩
  · have pool : (↑s.pool : Multiset Nat) = ↑(s.pool.erase m) + {m} := by
      rw [← coe_erase, add_comm, singleton_add, Multiset.cons_erase member]
    rw [ownedBefore, ownedAfter, pool, ← isAfter]
    simp only [← coe_add, coe_singleton]
    refine le_of_le_of_eq (le_add_right (le_refl _)) (b := _ + ↑dropped) ?_
    abel
  · have lost : after.lost = s.lost ++ dropped.map s.data := by
      rw [← isAfter, isDropped]
      dsimp only
      split
      · simp
      · cases mTable[next]? <;> rfl
    rw [lost, inTableBefore, inTableAfter, ← isAfter]
    simp only [map_append, ← coe_add]
    abel

inductive Taken (devices : Nat) (s : Path) : Step → Path → Prop
  | nothing {step : Step} (whole : step.Whole s devices) : Taken devices s step s
  | getWptr {ifidx : Nat} (inside : ifidx < devices) (idle : s.stack = .idle) :
      Taken devices s (.getWptr ifidx) (s.getWptr ifidx)
  | enqueuePkts {ifidx accepted : Nat} (inside : ifidx < devices) (working : s.exited = false)
      (idle : s.stack = .idle) :
      Taken devices s (.enqueuePkts ifidx accepted) (s.enqueuePkts ifidx accepted)
  | allocate {ifidx next accepted m : Nat} (busy : s.stack = .refilling ifidx next accepted) :
      Taken devices s (.allocate m) (s.allocate ifidx next accepted m)
  | passPkt {ifidx : Nat} (idle : s.io = .idle) : Taken devices s (.passPkt ifidx) (s.passPkt ifidx)
  | burstPkts {ifidx count : Nat} (idle : s.io = .idle) :
      Taken devices s (.burstPkts ifidx count) (s.burstPkts ifidx count)
  | txBurst {ifidx count : Nat} {counted pkts} (working : s.exited = false)
      (sending : s.io = .sending ifidx counted pkts) :
      Taken devices s (.txBurst count) (s.txBurst ifidx counted pkts count)
  | release {m : Nat} : Taken devices s (.release m) (s.release m)

theorem step_taken (s : Path) (step : Step) : Taken devices s step (s.step devices step) := by
  unfold Path.step
  split
  · rename_i exited
    refine .nothing ?_
    cases step <;> simp [Step.Whole, exited]
  · rename_i working
    rw [Bool.not_eq_true] at working
    cases step with
    | getWptr ifidx =>
      cases stack : s.stack with
      | idle =>
        by_cases inside : ifidx < devices
        · simpa [inside] using .getWptr inside stack
        · simpa [inside] using .nothing trivial
      | refilling => exact .nothing trivial
    | enqueuePkts ifidx accepted =>
      cases stack : s.stack with
      | idle =>
        by_cases inside : ifidx < devices
        · simpa [inside] using .enqueuePkts inside working stack
        · simpa [inside] using .nothing fun _ _ below => absurd below inside
      | refilling => exact .nothing fun _ idle => nomatch stack.symm.trans idle
    | allocate m =>
      cases stack : s.stack with
      | idle => exact .nothing trivial
      | refilling => exact .allocate stack
    | passPkt ifidx =>
      cases io : s.io with
      | idle => exact .passPkt io
      | sending => exact .nothing trivial
    | burstPkts ifidx count =>
      cases io : s.io with
      | idle => exact .burstPkts io
      | sending => exact .nothing trivial
    | txBurst count =>
      cases io : s.io with
      | idle =>
        refine .nothing fun _ => ?_
        rw [hand, io]
        exact Nat.zero_le _
      | sending => exact .txBurst working io
    | release m => exact .release

theorem Taken.sound {step after} (taken : Taken devices s step after) (sound : Sound devices s) :
    Sound devices after := by
  cases taken with
  | nothing => exact sound
  | getWptr inside idle => exact getWptr_sound sound idle inside
  | enqueuePkts inside _ idle => exact enqueuePkts_sound sound idle inside _
  | allocate busy => exact allocate_sound sound busy _
  | passPkt idle => exact passPkt_sound sound idle _
  | burstPkts idle => exact burstPkts_sound sound idle _ _
  | txBurst _ sending => exact txBurst_sound sound sending _
  | release => exact release_sound sound _

theorem run_sound (steps : List Step) : ∀ {s}, Sound devices s → Sound devices (s.run devices steps) := by
  induction steps with
  | nil => exact fun sound => sound
  | cons step rest ih => exact fun sound => ih ((step_taken _ step).sound sound)

def Intact (s : Path) : Prop :=
  s.lost = [] ∧ ∀ ifidx next accepted, s.stack = .refilling ifidx next accepted →
    (s.wmbufs ifidx).len ≤ accepted

theorem intact_of_idle (idle : s.stack = .idle) : Intact s ↔ s.lost = [] :=
  ⟨fun intact => intact.1, fun empty => ⟨empty, fun _ _ _ busy => nomatch idle.symm.trans busy⟩⟩

theorem intact_of_busy (busy : s.stack = .refilling ifidx next accepted) :
    Intact s ↔ s.lost = [] ∧ (s.wmbufs ifidx).len ≤ accepted := by
  refine and_congr_right fun _ => ⟨fun all => all ifidx next accepted busy, fun enough => ?_⟩
  intro other later taken busyStill
  cases busy.symm.trans busyStill
  exact enough

theorem getWptr_intact (idle : s.stack = .idle) (ifidx : Nat) : Intact (s.getWptr ifidx) ↔ Intact s := by
  unfold getWptr
  dsimp only
  split
  · rfl
  · split
    · rfl
    · rw [intact_of_idle idle, intact_of_idle (by exact idle)]

theorem enqueuePkts_intact (sound : Sound devices s) (idle : s.stack = .idle) (ifidx accepted : Nat) :
    Intact (s.enqueuePkts ifidx accepted) ↔ Intact s ∧ (s.wmbufs ifidx).len ≤ accepted := by
  unfold enqueuePkts
  dsimp only
  split
  · rename_i above
    have room := sound.room ifidx
    have length := sound.length ifidx
    rw [intact_of_idle idle, intact_of_busy (by rfl)]
    refine and_congr_right fun _ => ?_
    simp only [length_take]
    omega
  · rename_i nothing
    exact ⟨fun intact => ⟨intact, by omega⟩, fun both => both.1⟩

theorem allocate_intact (sound : Sound devices s) (busy : s.stack = .refilling ifidx next accepted)
    (m : Nat) : Intact (s.allocate ifidx next accepted m) ↔ Intact s := by
  obtain ⟨-, below, within⟩ := sound.refilling ifidx next accepted busy
  have length := sound.length ifidx
  have room := sound.room ifidx
  unfold allocate
  dsimp only
  split
  · exact Iff.rfl
  split
  swap
  · rfl
  obtain ⟨old, slot⟩ : ∃ old, (s.wmbufs ifidx).mTable[next]? = some old :=
    ⟨_, List.getElem?_eq_getElem (by omega)⟩
  have lost : (if next < accepted then s.lost else
      s.lost ++ ((s.wmbufs ifidx).mTable[next]?.map s.data).toList) = [] ↔
        s.lost = [] ∧ next < accepted := by
    split
    · rename_i taken
      exact ⟨fun empty => ⟨empty, taken⟩, fun both => both.1⟩
    · rename_i refused
      rw [slot]
      refine ⟨fun empty => ?_, fun both => absurd both.2 refused⟩
      cases (List.append_eq_nil_iff.mp empty).2
  rw [intact_of_busy busy]
  by_cases last : next + 1 = (s.wmbufs ifidx).len
  · rw [intact_of_idle (if_pos last), lost]
    exact and_congr_right fun _ => by omega
  · rw [intact_of_busy (if_neg last), lost]
    simp only [update_self, if_neg last]
    exact ⟨fun both => ⟨both.1.1, both.2⟩, fun both => ⟨⟨both.1, by omega⟩, both.2⟩⟩

theorem txBurst_intact {counted pkts} (count : Nat) : Intact (s.txBurst ifidx counted pkts count) ↔
      Intact s ∧ pkts.length ≤ count := by
  change (s.lost ++ (pkts.drop count).map s.data = [] ∧ _) ↔ _
  rw [List.append_eq_nil_iff, List.map_eq_nil_iff, List.drop_eq_nil_iff, Intact]
  exact ⟨fun all => ⟨⟨all.1.1, all.2⟩, all.1.2⟩, fun all => ⟨⟨all.1.1, all.2⟩, all.1.2⟩⟩

theorem Taken.intact {step after} (taken : Taken devices s step after) (sound : Sound devices s) :
    Intact after ↔ Intact s ∧ step.Whole s devices := by
  cases taken with
  | nothing whole => exact (and_iff_left whole).symm
  | getWptr _ idle =>
    rw [getWptr_intact idle]
    exact (and_iff_left trivial).symm
  | enqueuePkts inside working idle =>
    rw [enqueuePkts_intact sound idle]
    exact and_congr_right fun _ => ⟨fun whole _ _ _ => whole, fun whole => whole working idle inside⟩
  | allocate busy =>
    rw [allocate_intact sound busy]
    exact (and_iff_left trivial).symm
  | passPkt =>
    refine .trans ?_ (and_iff_left trivial).symm
    unfold Path.passPkt
    split
    · rfl
    · exact Iff.rfl
  | burstPkts =>
    refine .trans ?_ (and_iff_left trivial).symm
    unfold Path.burstPkts
    dsimp only
    split
    · rfl
    · exact Iff.rfl
  | @txBurst _ _ _ pkts working sending =>
    have hand : s.hand = pkts := by rw [Path.hand, sending]
    rw [txBurst_intact, ← hand]
    exact and_congr_right fun _ => ⟨fun whole _ => whole, fun whole => whole working⟩
  | release =>
    refine .trans ?_ (and_iff_left trivial).symm
    unfold Path.release
    split
    · exact Iff.rfl
    · rfl

theorem run_intact (steps : List Step) : ∀ {s}, Sound devices s →
    (Intact (s.run devices steps) ↔ Intact s ∧ WholeRun devices s steps) := by
  induction steps with
  | nil => exact fun _ => (and_iff_left trivial).symm
  | cons step rest ih =>
    intro s sound
    rw [Path.run, List.foldl_cons, ← Path.run, ih ((step_taken s step).sound sound), (step_taken s step).intact sound,
      WholeRun, and_assoc]

def Path.pending (s : Path) (ifidx : Nat) : Nat :=
  match s.io with
  | .sending busy true pkts => if busy = ifidx then pkts.length else 0
  | _ => 0

theorem pending_of_idle (idle : s.io = .idle) (ifidx : Nat) : s.pending ifidx = 0 := by
  rw [pending, idle]

def Counted (s : Path) : Prop := ∀ ifidx, s.txPackets ifidx =
  UInt64.ofNat (s.sent.countP (fun packet => packet.1 = ifidx) + s.pending ifidx)

theorem countP_handed (ifidx other : Nat) (data : Nat → Nat) (taken : List Nat) :
    (taken.map fun m => (ifidx, data m)).countP (fun packet => packet.1 = other) =
      if ifidx = other then taken.length else 0 := by
  rw [List.countP_map]
  split
  · rename_i same
    rw [List.countP_eq_length]
    intro m _
    simp [same]
  · rename_i distinct
    rw [List.countP_eq_zero]
    intro m _
    simp [distinct]

theorem passPkt_counted (counted : Counted s) (idle : s.io = .idle) (ifidx : Nat) :
    Counted (s.passPkt ifidx) := by
  unfold passPkt
  split
  · exact counted
  · intro other
    have before := counted other
    rw [pending_of_idle idle, Nat.add_zero] at before
    change update s.txPackets ifidx (s.txPackets ifidx + 1) other =
      UInt64.ofNat (s.sent.countP _ + if ifidx = other then 1 else 0)
    by_cases same : ifidx = other
    · subst same
      rw [update_self, if_pos rfl, before, UInt64.ofNat_add]
      rfl
    · rw [update_of_ne (fun is => same is.symm), if_neg same, before, Nat.add_zero]

theorem txBurst_counted (counted : Counted s) {early pkts}
    (sending : s.io = .sending ifidx early pkts) {count} (whole : pkts.length ≤ count) :
    Counted (s.txBurst ifidx early pkts count) := by
  intro other
  have before := counted other
  rw [pending, sending] at before
  change (if early then s.txPackets else update s.txPackets ifidx
    (s.txPackets ifidx + UInt64.ofNat (pkts.take count).length)) other = UInt64.ofNat ((s.sent ++
      (pkts.take count).map fun m => (ifidx, s.data m)).countP _ + 0)
  rw [List.take_of_length_le whole, List.countP_append, countP_handed, Nat.add_zero]
  cases early with
  | true => exact before
  | false =>
    have before : s.txPackets other = UInt64.ofNat (s.sent.countP _) := before
    change update s.txPackets ifidx _ other = _
    by_cases same : ifidx = other
    · subst same
      rw [update_self, if_pos rfl, before, UInt64.ofNat_add]
    · rw [update_of_ne (fun is => same is.symm), if_neg same, before, Nat.add_zero]

theorem Taken.counted {step after} (taken : Taken devices s step after) (counted : Counted s)
    (whole : step.Whole s devices) : Counted after := by
  cases taken with
  | nothing => exact counted
  | getWptr =>
    unfold Path.getWptr
    dsimp only
    split
    · exact counted
    · split
      · exact counted
      · exact counted
  | enqueuePkts =>
    unfold Path.enqueuePkts
    dsimp only
    split
    · exact counted
    · exact counted
  | allocate =>
    unfold Path.allocate
    dsimp only
    split
    · exact counted
    · split
      · exact counted
      · exact counted
  | passPkt idle => exact passPkt_counted counted idle _
  | burstPkts idle =>
    unfold Path.burstPkts
    dsimp only
    split
    · exact counted
    · intro other
      have before := counted other
      rw [pending_of_idle idle] at before
      exact before
  | txBurst working sending =>
    refine txBurst_counted counted sending ?_
    have fits := whole working
    rwa [hand, sending] at fits
  | release =>
    unfold Path.release
    split
    · exact counted
    · exact counted

theorem run_counted (steps : List Step) : ∀ {s}, Counted s → WholeRun devices s steps →
    Counted (s.run devices steps) := by
  induction steps with
  | nil => exact fun counted _ => counted
  | cons step rest ih => exact fun counted whole => ih ((step_taken _ step).counted counted whole.1) whole.2

end Steps

theorem Sound.once_iff {devices s} (sound : Sound devices s) :
    s.packets devices = Multiset.range s.filled ↔ s.lost = [] := by
  rw [← sound.conserved]
  constructor
  · intro same
    have zero : (↑s.lost : Multiset Nat) = 0 := by
      have cancel : s.packets devices + 0 = s.packets devices + ↑s.lost := by rw [add_zero]; exact same
      exact (add_left_cancel cancel).symm
    exact (Multiset.coe_eq_zero s.lost).mp zero
  · intro empty
    rw [empty, coe_nil, add_zero]

theorem Sound.sent_nodup {devices s} (sound : Sound devices s) : (s.sent.map Prod.snd).Nodup := by
  rw [← coe_nodup, sound.handed]
  refine nodup_of_le ?_ (Multiset.nodup_range s.filled)
  rw [← sound.conserved, packets, add_assoc _ _ (↑s.freed : Multiset Nat)]
  exact le_add_right (le_add_left (le_refl _))

/-- Whatever the ring and the network card refuse, no mbuf is in two places. -/
theorem no_packet_sent_twice (devices spare : Nat) (steps : List Step) :
    let s := (Path.start devices spare).run devices steps
    (s.held devices).Nodup ∧ (s.sent.map Prod.snd).Nodup ∧
      ∀ ifidx, (s.wmbufs ifidx).len ≤ maxPktBurst := by
  have sound := run_sound steps (start_sound devices spare)
  exact ⟨sound.nodup, sound.sent_nodup, sound.room⟩

/-- If hand-overs are whole each packet is in one place, sent once and counted. One that is not
whole loses a packet for good. -/
theorem transmit_conserved (devices spare : Nat) :
    (∀ steps, WholeRun devices (.start devices spare) steps →
      Conserved devices ((Path.start devices spare).run devices steps)) ∧
    ∀ steps, ((Path.start devices spare).run devices steps).stack = .idle →
      Conserved devices ((Path.start devices spare).run devices steps) →
      WholeRun devices (.start devices spare) steps := by
  have started := start_sound devices spare
  have intact : Intact (.start devices spare) := ⟨rfl, nofun⟩
  constructor
  · intro steps whole
    have sound := run_sound steps started
    have counted := run_counted steps (fun _ => rfl) whole
    have kept := (run_intact steps started).mpr ⟨intact, whole⟩
    refine ⟨sound.once_iff.mpr kept.1, sound.handed, sound.sent_nodup, fun idle ifidx => ?_⟩
    have number := counted ifidx
    rwa [pending_of_idle idle] at number
  · intro steps rest conserved
    have sound := run_sound steps started
    have kept := (intact_of_idle rest).mpr (sound.once_iff.mp conserved.once)
    exact ((run_intact steps started).mp kept).2

/-- The ring refuses one of two packets, and the network card one of a burst, or the one already
counted. -/
theorem partial_hand_overs_lose :
    (let s := (Path.start 1 4).run 1 [.getWptr 0, .getWptr 0, .enqueuePkts 0 1, .allocate 64,
        .allocate 65];
      s.filled = 2 ∧ s.packets 1 = {0} ∧ s.stack = .idle ∧ s.io = .idle) ∧
    (let s := (Path.start 1 4).run 1 [.getWptr 0, .getWptr 0, .enqueuePkts 0 2, .allocate 64,
        .allocate 65, .burstPkts 0 2, .txBurst 1];
      s.filled = 2 ∧ s.packets 1 = {0} ∧ s.stack = .idle ∧ s.io = .idle) ∧
    (let s := (Path.start 1 4).run 1 [.getWptr 0, .enqueuePkts 0 1, .allocate 64, .passPkt 0, .txBurst 0];
      s.filled = 1 ∧ s.packets 1 = 0 ∧ s.txPackets 0 = 1 ∧ s.sent = []) := by
  decide +kernel

end Mcc.TransmitPath
