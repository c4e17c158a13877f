import Mcc.StreamReplay

/-!
The choice of the next data packet: how many of the packets are fragments, and where a complete one
ends. A period of the counter has one call more than the rate counts, and the -1 of a search without
result is cut like a packet that is too long.
-/

namespace Mcc.StreamGen

def pktTypeCnt (fragRate : Int) : Nat → Int
  | 0 => 0
  | call + 1 => (getPktType (pktTypeCnt fragRate call) fragRate).1

def pktType (fragRate : Int) (call : Nat) : PktType :=
  (getPktType (pktTypeCnt fragRate call) fragRate).2

section

variable (fragRate : Fin 101)

theorem pktTypeCnt_eq (call : Nat) : pktTypeCnt fragRate.val call = (call % 101 : Nat) := by
  induction call with
  | zero => rfl
  | succ call ih =>
    have small := fragRate.isLt
    rw [pktTypeCnt, ih, getPktType]
    split
    · omega
    · split <;> omega

theorem pktType_eq_fragment_iff (call : Nat) :
    pktType fragRate.val call = .fragment ↔ call % 101 < fragRate.val := by
  rw [pktType, pktTypeCnt_eq, getPktType]
  split
  · exact iff_of_true rfl (by omega)
  · split <;> exact iff_of_false nofun (by omega)

theorem count_period : Nat.count (· % 101 < fragRate.val) 101 = fragRate.val := by
  revert fragRate
  decide +kernel

theorem fragments_iff (start : Nat) :
    ((Finset.Ico start (start + 100)).filter (pktType fragRate.val · = .fragment)).card =
      fragRate.val ↔ fragRate.val ≤ (start + 100) % 101 := by
  have full := Nat.filter_Ico_card_eq_of_periodic start 101 (· % 101 < fragRate.val) fun _ => by simp
  rw [count_period, show start + 101 = start + 100 + 1 from rfl,
    Nat.Ico_succ_right_eq_insert_Ico (by omega), Finset.filter_insert] at full
  simp only [pktType_eq_fragment_iff]
  split at full
  · rw [Finset.card_insert_of_notMem (by simp)] at full
    omega
  · exact iff_of_true full (by omega)

end

theorem fragment_missing : ((Finset.Ico 1 101).filter (pktType 1 · = .fragment)).card = 0 := by
  simp only [show (1 : Int) = (1 : Fin 101).val from rfl, pktType_eq_fragment_iff]
  decide

theorem sunShift_le_succ (pat : List UInt8) (byte : UInt8) : sunShift pat byte ≤ pat.length + 1 :=
  foldl_update_keeps (P := (· ≤ pat.length + 1)) _ _ (fun _ _ => by omega) (Nat.le_refl _)

theorem sunShift_le (before : List UInt8) (byte : UInt8) (after : List UInt8) :
    sunShift (before ++ byte :: after) byte ≤ after.length + 1 := by
  have length : (before ++ byte :: after).length = before.length + (after.length + 1) := by simp
  unfold sunShift
  rw [List.zipIdx_append, List.foldl_append, List.zipIdx_cons, List.foldl_cons, length]
  refine foldl_update_keeps (P := (· ≤ after.length + 1)) _ _ (fun entry member => ?_) ?_
  · have := List.mem_zipIdx member
    omega
  · rw [Function.update_self]
    omega

def Occurs (target : Nat → UInt8) (pat : List UInt8) (pos : Nat) : Prop :=
  (List.range pat.length).map (fun index => target (pos + index)) = pat

section

variable {target : Nat → UInt8} {lenT : Nat} {pat : List UInt8} {pos : Nat}

/-- No occurrence begins at a position that a shift passes over: the byte behind the window would
stand in the pattern where the table has it. -/
theorem shift_skips {earlier : Nat} (after : pos < earlier)
    (skipped : earlier < pos + sunShift pat (target (pos + pat.length))) :
    ¬Occurs target pat earlier := by
  intro occurs
  have bound := sunShift_le_succ pat (target (pos + pat.length))
  have inside : pos + pat.length - earlier < pat.length := by omega
  have byte : pat[pos + pat.length - earlier] = target (pos + pat.length) := by
    have read := List.getElem_of_eq occurs (by simpa using inside)
    rw [← read, List.getElem_map, List.getElem_range]
    congr 1
    omega
  have split := List.take_append_drop (pos + pat.length - earlier) pat
  rw [← List.getElem_cons_drop inside, byte] at split
  have small := sunShift_le (pat.take (pos + pat.length - earlier)) (target (pos + pat.length))
    (pat.drop (pos + pat.length - earlier + 1))
  rw [split, List.length_drop] at small
  omega

def EndsFirst (target : Nat → UInt8) (lenT : Nat) (pat : List UInt8) (stop : Nat) : Prop :=
  ∃ pos, stop = pos + pat.length ∧ stop ≤ lenT ∧ Occurs target pat pos ∧
    ∀ earlier < pos, ¬Occurs target pat earlier

def Absent (target : Nat → UInt8) (lenT : Nat) (pat : List UInt8) : Prop :=
  ∀ pos, pos + pat.length ≤ lenT → ¬Occurs target pat pos

theorem sundayLoop_spec (before : ∀ earlier < pos, ¬Occurs target pat earlier) :
    (∃ stop, sundayLoop target lenT pat pos = some stop ∧ EndsFirst target lenT pat stop) ∨
      sundayLoop target lenT pat pos = none ∧ Absent target lenT pat := by
  fun_induction sundayLoop target lenT pat pos with
  | case1 pos inside equal => exact .inl ⟨_, rfl, pos, rfl, inside, equal, before⟩
  | case2 pos inside differs ih =>
    refine ih fun earlier small => ?_
    rcases Nat.lt_trichotomy earlier pos with less | rfl | more
    · exact before earlier less
    · exact differs
    · exact shift_skips more small
  | case3 pos outside => exact .inr ⟨rfl, fun other inside => before other (by omega)⟩

theorem EndsFirst.unique {first second : Nat} (one : EndsFirst target lenT pat first)
    (other : EndsFirst target lenT pat second) : first = second := by
  obtain ⟨pos, rfl, -, occurs, before⟩ := one
  obtain ⟨pos', rfl, -, occurs', before'⟩ := other
  rw [Nat.le_antisymm (Nat.le_of_not_lt fun less => before pos' less occurs')
    (Nat.le_of_not_lt fun less => before' pos less occurs)]

theorem EndsFirst.not_absent {stop : Nat} (ends : EndsFirst target lenT pat stop) :
    ¬Absent target lenT pat := by
  obtain ⟨pos, rfl, inside, occurs, -⟩ := ends
  exact fun absent => absent pos inside occurs

theorem sundayMatch_some_iff {stop : Nat} :
    sundayMatch target lenT pat = some stop ↔ EndsFirst target lenT pat stop := by
  rcases @sundayLoop_spec target lenT pat 0 nofun with ⟨found, is, ends⟩ | ⟨is, absent⟩
  · rw [sundayMatch, is, Option.some_inj]
    exact ⟨fun same => same ▸ ends, ends.unique⟩
  · rw [sundayMatch, is]
    exact iff_of_false nofun fun ends => ends.not_absent absent

theorem sundayMatch_none_iff : sundayMatch target lenT pat = none ↔ Absent target lenT pat := by
  rcases @sundayLoop_spec target lenT pat 0 nofun with ⟨found, is, ends⟩ | ⟨is, absent⟩
  · rw [sundayMatch, is]
    exact iff_of_false nofun ends.not_absent
  · exact iff_of_true is absent

end

theorem sunday_finds_first (target : Nat → UInt8) (lenT : Nat) (pat : List UInt8) :
    (∀ stop, sundayMatch target lenT pat = some stop ↔ EndsFirst target lenT pat stop) ∧
      (sundayMatch target lenT pat = none ↔ Absent target lenT pat) :=
  ⟨fun _ => sundayMatch_some_iff, sundayMatch_none_iff⟩

namespace Node

variable (node : Node)

def Delimited (stop : Nat) : Prop :=
  EndsFirst (fun index => node.totBuf (node.offset + index)) (node.len - node.offset)
    [13, 10, 13, 10] stop

def Undelimited : Prop :=
  Absent (fun index => node.totBuf (node.offset + index)) (node.len - node.offset) [13, 10, 13, 10]

end Node

section

variable (settings : Settings) (nParts : Int) (input : Input) (node : Node) (t : Template)

def Sends (count : Nat) : Prop :=
  ∃ outcome, sendPacket settings nParts input node t = .ok outcome ∧
    outcome.1.offset = node.offset + count

def EndsRight : Prop :=
  (∀ stop ≤ maxSegSize, node.Delimited stop → Sends settings nParts input node t stop) ∧
  (node.Undelimited → node.len - node.offset ≤ maxSegSize →
    Sends settings nParts input node t (node.len - node.offset))

variable {settings nParts input node}

section

variable (complete : (getPktType input.pktTypeCnt settings.fragRate).2 = .complete)
include complete

theorem nextLength_undelimited (absent : node.Undelimited) :
    nextLength settings nParts node input = getDataLen settings node nParts := by
  simp only [nextLength, complete, sundayMatch_none_iff.mpr absent]

theorem nextLength_delimited {stop : Nat} (ends : node.Delimited stop) (short : stop ≤ maxSegSize) :
    nextLength settings nParts node input = .ok stop := by
  simp only [nextLength, complete, sundayMatch_some_iff.mpr ends]
  exact if_neg (Nat.not_lt.mpr short)

end

section

variable (established : node.state = .established)
include established

theorem sends_iff {length count : Nat} (next : nextLength settings nParts node input = .ok length) :
    Sends settings nParts input node t count ↔ min length (node.len - node.offset) = count := by
  have offset : (sendDataPkt node t length).1.offset =
      node.offset + min length (node.len - node.offset) := by
    by_cases last : length ≥ node.len - node.offset
    · simp [sendDataPkt, sendAck, Node.cut, last]
    · simp [sendDataPkt, sendAck, Node.cut, last, Nat.le_of_not_ge last]
  rw [Sends, sendPacket, established]
  dsimp only
  rw [next]
  constructor
  · rintro ⟨outcome, done, ends⟩
    cases done
    omega
  · rintro rfl
    exact ⟨_, rfl, offset⟩

theorem not_sends {fault : Fault} (next : nextLength settings nParts node input = .error fault)
    {count : Nat} : ¬Sends settings nParts input node t count := by
  rintro ⟨outcome, done, -⟩
  rw [sendPacket, established] at done
  dsimp only at done
  rw [next] at done
  cases done

/-- A stream that ends without a delimiter is cut like a packet that is too long. -/
theorem endsRight_iff (complete : (getPktType input.pktTypeCnt settings.fragRate).2 = .complete) :
    EndsRight settings nParts input node t ↔
      (node.Undelimited → node.len - node.offset ≤ maxSegSize →
        ∃ length, getDataLen settings node nParts = .ok length ∧ node.len - node.offset ≤ length) := by
  constructor
  · intro ends absent short
    have next := @nextLength_undelimited settings nParts input node complete absent
    have sends := ends.2 absent short
    cases cut : getDataLen settings node nParts with
    | error fault => exact absurd sends (not_sends t established (next.trans cut))
    | ok length =>
      rw [sends_iff t established (next.trans cut)] at sends
      exact ⟨length, rfl, by omega⟩
  · intro enough
    constructor
    · intro stop short ends
      have next := @nextLength_delimited settings nParts input node complete stop ends short
      obtain ⟨-, -, inside, -⟩ := ends
      exact (sends_iff t established next).mpr (Nat.min_eq_left inside)
    · intro absent short
      obtain ⟨length, cut, enough⟩ := enough absent short
      have next := (nextLength_undelimited complete absent).trans cut
      exact (sends_iff t established next).mpr (Nat.min_eq_right enough)

end

end

theorem endsRight_short : EndsRight ⟨0, false, 5⟩ 25 plainInput
    { plainNode 5 with state := .established } plainTemplate :=
  (endsRight_iff plainTemplate rfl rfl).mpr fun _ _ => ⟨40, rfl, by decide⟩

theorem rest_cut : ¬EndsRight ⟨0, false, 5⟩ 25 plainInput
    { plainNode 1000 with state := .established } plainTemplate := by
  intro ends
  have absent : Absent (fun _ => 65) 1000 [13, 10, 13, 10] := fun pos _ occurs => by cases occurs
  have next : nextLength ⟨0, false, 5⟩ 25 { plainNode 1000 with state := .established } plainInput =
      .ok 40 := nextLength_undelimited rfl absent
  cases (sends_iff plainTemplate rfl next).mp (ends.2 absent (by decide))

inductive Read where
  | target (index : Nat)
  | pattern (index : Nat)
  deriving DecidableEq

def Read.Within (lenT lenP : Nat) : Read → Prop
  | .target index => index < lenT
  | .pattern index => index < lenP

/-- The inner loop from `j` on, `rest` being left of the pattern: it compares before it tests `j`. -/
def compared (target : Nat → UInt8) (pos : Nat) : List UInt8 → Nat → List Read
  | [], j => [.target (pos + j), .pattern j]
  | byte :: rest, j => .target (pos + j) :: .pattern j ::
      if target (pos + j) = byte then compared target pos rest (j + 1) else []

def sundayReads (target : Nat → UInt8) (lenT : Nat) (pat : List UInt8) (pos : Nat) : List Read :=
  if pos + pat.length ≤ lenT then
    compared target pos pat 0 ++
      if (List.range pat.length).map (fun index => target (pos + index)) = pat then []
      else .target (pos + pat.length) ::
        sundayReads target lenT pat (pos + sunShift pat (target (pos + pat.length)))
  else []
termination_by lenT + 1 - pos
decreasing_by
  have := sunShift_pos pat (target (pos + pat.length))
  omega

inductive Tries (target : Nat → UInt8) (lenT : Nat) (pat : List UInt8) : Nat → Nat → Prop
  | here {pos} : pos + pat.length ≤ lenT → Tries target lenT pat pos pos
  | shift {pos next} : pos + pat.length ≤ lenT → ¬Occurs target pat pos →
      Tries target lenT pat (pos + sunShift pat (target (pos + pat.length))) next →
      Tries target lenT pat pos next

section

variable {target : Nat → UInt8} {pos : Nat}

theorem compared_within {lenT lenP} (rest : List UInt8) {j} (length : j + rest.length = lenP)
    (inside : pos + lenP ≤ lenT) : (∀ read ∈ compared target pos rest j, read.Within lenT lenP) ↔
      ¬(List.range rest.length).map (fun index => target (pos + j + index)) = rest := by
  induction rest generalizing j with
  | nil => simp [compared, Read.Within, ← length]
  | cons byte rest ih =>
    rw [List.length_cons] at length
    have first : (Read.target (pos + j)).Within lenT lenP := show pos + j < lenT by omega
    have second : (Read.pattern j).Within lenT lenP := show j < lenP by omega
    have later := @ih (j + 1) (by omega)
    rw [compared, List.forall_mem_cons, List.forall_mem_cons, and_iff_right first,
      and_iff_right second, List.length_cons, List.range_succ_eq_map, List.map_cons, List.cons.injEq]
    split
    · rename_i same
      rw [later]
      simp [same, Function.comp_def, Nat.add_comm, Nat.add_left_comm]
    · rename_i differs
      simp [differs]

variable {lenT : Nat} {pat : List UInt8}

theorem sundayReads_within :
    (∀ read ∈ sundayReads target lenT pat pos, read.Within lenT pat.length) ↔
      ∀ next, Tries target lenT pat pos next → ¬Occurs target pat next ∧ next + pat.length ≠ lenT := by
  fun_induction sundayReads target lenT pat pos with
  | case1 pos inside ih =>
    have aligned := @compared_within target pos lenT _ pat 0 (Nat.zero_add _) inside
    by_cases occurs : Occurs target pat pos
    · refine iff_of_false (fun all => ?_) fun all => (all pos (.here inside)).1 occurs
      exact aligned.mp (fun read member => all read (List.mem_append_left _ member)) occurs
    · have differs : ¬(List.range pat.length).map (fun index => target (pos + index)) = pat := occurs
      rw [if_neg differs, List.forall_mem_append, List.forall_mem_cons, ih,
        and_iff_right (aligned.mpr occurs)]
      constructor
      · rintro ⟨behind, all⟩ next tries
        cases tries with
        | here => exact ⟨occurs, Nat.ne_of_lt behind⟩
        | shift _ _ tries => exact all next tries
      · intro all
        refine ⟨Nat.lt_of_le_of_ne inside (all pos (.here inside)).2, fun next tries => ?_⟩
        exact all next (.shift inside occurs tries)
  | case2 pos outside =>
    refine iff_of_true nofun fun next tries => ?_
    cases tries <;> contradiction

theorem Tries.inside {next} (tries : Tries target lenT pat pos next) : next + pat.length ≤ lenT := by
  induction tries with
  | here inside => exact inside
  | shift _ _ _ ih => exact ih

theorem sundayLoop_tries {stop} (found : sundayLoop target lenT pat pos = some stop) :
    ∃ next, Tries target lenT pat pos next ∧ Occurs target pat next := by
  fun_induction sundayLoop target lenT pat pos with
  | case1 pos inside equal => exact ⟨pos, .here inside, equal⟩
  | case2 pos inside differs ih =>
    obtain ⟨next, tries, occurs⟩ := ih found
    exact ⟨next, .shift inside differs tries, occurs⟩
  | case3 => cases found

theorem absent_iff :
    Absent target lenT pat ↔ ∀ pos, Tries target lenT pat 0 pos → ¬Occurs target pat pos := by
  refine ⟨fun absent pos tries => absent pos tries.inside, fun all => ?_⟩
  rcases @sundayLoop_spec target lenT pat 0 nofun with ⟨stop, found, -⟩ | ⟨-, absent⟩
  · obtain ⟨pos, tries, occurs⟩ := sundayLoop_tries found
    exact absurd occurs (all pos tries)
  · exact absent

end

/-- The reads of a search stay inside the target and the pattern unless it finds the pattern or
comes to the last alignment. -/
theorem sunday_reads_within_iff (target : Nat → UInt8) (lenT : Nat) (pat : List UInt8) :
    (∀ read ∈ sundayReads target lenT pat 0, read.Within lenT pat.length) ↔
      Absent target lenT pat ∧ ∀ pos, Tries target lenT pat 0 pos → pos + pat.length ≠ lenT := by
  rw [sundayReads_within, absent_iff, ← forall_and]
  simp only [← imp_and]

theorem sunday_overrun :
    ¬∀ read ∈ sundayReads (fun _ => 65) 1 [65] 0, read.Within 1 [(65 : UInt8)].length := by
  rw [sundayReads]
  exact fun all => Nat.lt_irrefl 1 (all (.pattern 1) (by decide))

end Mcc.StreamGen
