import Mathlib

/-!
The list that delays received packets. `delay_list_check` takes the next packet off the list before it
looks whether there is room for it, and drops it when there is none.
-/

namespace Mcc.DelayList

abbrev Mbuf := Nat × UInt32

def due (curTs timeout : UInt32) (mbuf : Mbuf) : Bool := timeout ≤ curTs - mbuf.2

def timeoutLookup (curTs timeout : UInt32) : List Mbuf → Option Mbuf × List Mbuf
  | [] => (none, [])
  | head :: rest => if due curTs timeout head then (some head, rest) else (none, head :: rest)

def checkLoop (curTs timeout : UInt32) :
    Nat → Option Mbuf × List Mbuf → List Mbuf × List Mbuf
  | room + 1, (some ret, list) =>
    let (pkts, list) := checkLoop curTs timeout room (timeoutLookup curTs timeout list)
    (ret :: pkts, list)
  | _, (_, list) => ([], list)

def check (maxCnt : Int) (curTs timeout : UInt32) (list : List Mbuf) :
    List Mbuf × List Mbuf :=
  checkLoop curTs timeout maxCnt.toNat (timeoutLookup curTs timeout list)

structure State where
  list : List Mbuf
  cnt : Int
  appended : List Mbuf
  returned : List Mbuf

inductive Call where
  | appendBatch (pkts : List Nat) (ts : UInt32)
  | check (maxCnt : Int) (ts timeout : UInt32)

def Call.ts : Call → UInt32
  | .appendBatch _ ts | .check _ ts _ => ts

def step (s : State) : Call → State
  | .appendBatch pkts ts =>
    { s with
      list := s.list ++ pkts.map (·, ts)
      cnt := s.cnt + pkts.length
      appended := s.appended ++ pkts.map (·, ts) }
  | .check maxCnt curTs timeout =>
    let (pkts, list) := check maxCnt curTs timeout s.list
    { s with list, cnt := s.cnt - pkts.length, returned := s.returned ++ pkts }

def Along (holds : State → Call → Prop) (s : State) : List Call → Prop
  | [] => True
  | call :: rest => holds s call ∧ Along holds (step s call) rest

def Conserved (s : State) : Prop := s.returned ++ s.list = s.appended ∧ s.cnt = s.list.length

def Timely (s : State) : Call → Prop
  | .appendBatch _ _ => True
  | .check maxCnt curTs timeout =>
    (check maxCnt curTs timeout s.list).1.length ≤ maxCnt.toNat ∧
      ∀ mbuf ∈ (check maxCnt curTs timeout s.list).1, mbuf.2.toNat + timeout.toNat ≤ curTs.toNat

def Right (s : State) (call : Call) : Prop := Conserved (step s call) ∧ Timely s call

def Fits (s : State) : Call → Prop
  | .appendBatch _ _ => True
  | .check maxCnt curTs timeout => (s.list.takeWhile (due curTs timeout)).length ≤ maxCnt.toNat

section

variable {curTs timeout : UInt32}

theorem checkLoop_eq (room : Nat) (list : List Mbuf) :
    checkLoop curTs timeout room (timeoutLookup curTs timeout list) =
      ((list.takeWhile (due curTs timeout)).take room,
        list.drop (min (list.takeWhile (due curTs timeout)).length (room + 1))) := by
  induction list generalizing room with
  | nil => cases room <;> rfl
  | cons head rest ih =>
    by_cases isDue : due curTs timeout head = true
    · have taken : timeoutLookup curTs timeout (head :: rest) = (some head, rest) := if_pos isDue
      cases room with
      | zero => simp [taken, checkLoop, isDue]
      | succ room =>
        rw [taken, checkLoop, ih]
        simp [isDue]
    · cases room <;> simp [timeoutLookup, checkLoop, isDue]

theorem check_eq (maxCnt : Int) (list : List Mbuf) : check maxCnt curTs timeout list =
    ((list.takeWhile (due curTs timeout)).take maxCnt.toNat,
      list.drop (min (list.takeWhile (due curTs timeout)).length (maxCnt.toNat + 1))) :=
  checkLoop_eq maxCnt.toNat list

theorem check_timely {maxCnt list} (past : ∀ mbuf ∈ list, mbuf.2 ≤ curTs) :
    ∀ mbuf ∈ (check maxCnt curTs timeout list).1, mbuf.2.toNat + timeout.toNat ≤ curTs.toNat := by
  intro mbuf member
  rw [check_eq] at member
  have taken := List.mem_of_mem_take member
  have isDue := List.mem_takeWhile_imp taken
  have before := past mbuf ((List.takeWhile_subset _) taken)
  simp only [due, decide_eq_true_eq, UInt32.le_iff_toNat_le, UInt32.toNat_sub_of_le _ _ before] at isDue
  rw [UInt32.le_iff_toNat_le] at before
  omega

end

variable {s : State}

theorem right_iff_fits (conserved : Conserved s) {call}
    (past : ∀ mbuf ∈ s.list, mbuf.2 ≤ call.ts) : Right s call ↔ Fits s call := by
  cases call with
  | appendBatch pkts ts =>
    refine iff_of_true ⟨⟨?_, ?_⟩, trivial⟩ trivial
    · simp only [step]
      rw [← List.append_assoc, conserved.1]
    · simp [step, conserved.2]
  | check maxCnt curTs timeout =>
    have short := (List.takeWhile_sublist (l := s.list) (due curTs timeout)).length_le
    constructor
    · intro right
      have kept := congrArg List.length right.1.1
      simp only [step, check_eq, ← conserved.1, List.length_append, List.length_take,
        List.length_drop] at kept
      simp only [Fits]
      omega
    · intro fits
      simp only [Fits] at fits
      have split := List.prefix_iff_eq_append.mp
        (List.takeWhile_prefix (l := s.list) (due curTs timeout))
      refine ⟨⟨?_, ?_⟩, ?_, check_timely past⟩
      · simp only [step, check_eq]
        rw [List.take_of_length_le fits, Nat.min_eq_left (by omega), List.append_assoc, split]
        exact conserved.1
      · simp only [step, check_eq, conserved.2, List.length_take, List.length_drop]
        omega
      · rw [check_eq]
        exact List.length_take_le _ _

theorem along_iff {calls} (conserved : Conserved s) (ordered : calls.Pairwise (·.ts ≤ ·.ts))
    (past : ∀ mbuf ∈ s.list, ∀ call ∈ calls, mbuf.2 ≤ call.ts) :
    Along Right s calls ↔ Along Fits s calls := by
  induction calls generalizing s with
  | nil => exact Iff.rfl
  | cons call rest ih =>
    obtain ⟨first, ordered⟩ := List.pairwise_cons.mp ordered
    have same := right_iff_fits conserved fun mbuf listed => past mbuf listed call List.mem_cons_self
    rw [Along, Along, same]
    refine and_congr_right fun fits => ih (same.mpr fits).1 ordered ?_
    intro mbuf listed later member
    cases call with
    | appendBatch pkts ts =>
      rcases List.mem_append.mp listed with old | new
      · exact past mbuf old later (List.mem_cons_of_mem _ member)
      · obtain ⟨pkt, -, rfl⟩ := List.mem_map.mp new
        exact first later member
    | check maxCnt curTs timeout =>
      simp only [step, check_eq] at listed
      exact past mbuf (List.mem_of_mem_drop listed) later (List.mem_cons_of_mem _ member)

def start : State := ⟨[], 0, [], []⟩

theorem delay_list_conserves_iff (calls : List Call) (ordered : calls.Pairwise (·.ts ≤ ·.ts)) :
    Along Right start calls ↔ Along Fits start calls :=
  along_iff ⟨rfl, rfl⟩ ordered nofun

theorem delay_list_conserves_one : Along Right start [.appendBatch [7] 1, .check (1 : Int) 3 2] :=
  (delay_list_conserves_iff _ (by decide)).mpr (by simp [Along, Fits, step, start, due])

theorem second_packet_lost : ¬Along Right start [.appendBatch [7, 8] 1, .check (1 : Int) 3 2] := by
  intro right
  exact absurd right.2.1.1.1 (by decide)

end Mcc.DelayList
