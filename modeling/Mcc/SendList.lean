import Mcc.DataFlush

/-!
The send list of a sender. A stream that cannot send everything goes to the end of the list and ends
the round, so that every stream comes one place nearer to the head with each call.
-/

namespace Mcc.SendList

structure Entry where
  id : Nat
  stream : TcpStream

inductive Service where
  | unlisted
  | delayed
  | blocked
  | sent
  deriving Repr, DecidableEq

def delays (s : TcpStream) : Bool := s.state = .established && s.lists.onControlList

def serve (buffers : Nat) (curTs : UInt32) (s : TcpStream) : Except Fault (Service × TcpStream) :=
  if !s.lists.onSendList then .ok (.unlisted, s)
  else do
    let (after, ret) ← serveData buffers curTs s
    if ret < 0 then return (if delays s then .delayed else .blocked, after)
    else return (.sent, finishData ret after)

structure Served where
  entry : Entry
  service : Service
  after : TcpStream

structure Round where
  served : List Served
  sendList : List Entry

def writeTCPDataList (buffers : Nat → Nat) (curTs : UInt32) : Nat → List Entry → Except Fault Round
  | _, [] => .ok ⟨[], []⟩
  | 0, rest => .ok ⟨[], rest⟩
  | thresh + 1, cur :: rest => do
      let (service, after) ← serve (buffers thresh) curTs cur.stream
      let served : Served := ⟨cur, service, after⟩
      if service = .delayed ∨ service = .blocked then
        return ⟨[served], rest ++ [{ cur with stream := after }]⟩
      else
        let round ← writeTCPDataList buffers curTs thresh rest
        return { round with served := served :: round.served }

def addtoSendList (cur : Entry) (sendList : List Entry) : Except Fault (List Entry) := do
  let after ← Mcc.addtoSendList cur.stream
  return if cur.stream.lists.onSendList then sendList else sendList ++ [{ cur with stream := after }]

/-- What happens to the list between two calls: streams are taken off, which leaves those in `kept`,
and others are put at its end. -/
structure Continues (kept : List Nat) (before after : List Entry) : Prop where
  sublist : kept.Sublist (before.map Entry.id)
  added : ∃ new, after.map Entry.id = kept ++ new

variable {buffers : Nat → Nat} {curTs : UInt32} {id : Nat} {front back : List Nat}

theorem serve_delayed {free s after} (done : serve free curTs s = .ok (.delayed, after)) :
    s.state = .established ∧ s.lists.onControlList = true := by
  rw [serve] at done
  split at done
  · cases done
  · obtain ⟨⟨flushed, ret⟩, -, isAfter⟩ := bind_ok done
    dsimp only at isAfter
    split at isAfter
    · by_cases delayed : delays s
      · simpa [delays] using delayed
      · rw [if_neg delayed] at isAfter
        cases isAfter
    · cases isAfter

/-- A stream whose turn comes in a round: it leaves the list, or its flush is tried, unless it is
established and waits for its control packet. -/
def TurnOf (id : Nat) (sendList : List Entry) (round : Round) : Prop :=
  ∃ served ∈ round.served, served.entry ∈ sendList ∧ served.entry.id = id ∧
    (served.service = .delayed → served.entry.stream.state = .established ∧
      served.entry.stream.lists.onControlList = true)

def Stands (id : Nat) (front back : List Nat) (sendList : List Entry) : Prop :=
  sendList.map Entry.id = front ++ id :: back ∧ id ∉ front ∧ id ∉ back

theorem writeTCPDataList_advances {thresh sendList round} (stands : Stands id front back sendList)
    (done : writeTCPDataList buffers curTs thresh sendList = .ok round) :
    TurnOf id sendList round ∨ ∃ front' back', Stands id front' back' round.sendList ∧
      front'.length ≤ front.length ∧ (0 < thresh → front'.length < front.length) := by
  -- the loop takes the streams before this one off the list, until one of them ends the round
  induction front generalizing thresh sendList round with
  | nil =>
    obtain ⟨ids, -, after⟩ := stands
    obtain ⟨cur, rest, rfl, rfl, isRest⟩ := List.map_eq_cons_iff.mp ids
    cases thresh with
    | zero =>
      cases done
      exact .inr ⟨[], back, ⟨ids, List.not_mem_nil, after⟩, Nat.le_refl 0, fun less => less⟩
    | succ thresh =>
      obtain ⟨⟨service, stream⟩, served, isRound⟩ := bind_ok done
      have turn : ∀ {round : Round}, ⟨cur, service, stream⟩ ∈ round.served →
          TurnOf cur.id (cur :: rest) round := by
        refine fun member => ⟨_, member, List.mem_cons_self, rfl, ?_⟩
        rintro rfl
        exact serve_delayed served
      dsimp only at isRound
      split at isRound
      · cases isRound
        exact .inl (turn List.mem_cons_self)
      · obtain ⟨others, -, isRound⟩ := bind_ok isRound
        cases isRound
        exact .inl (turn List.mem_cons_self)
  | cons first front ih =>
    obtain ⟨ids, before, after⟩ := stands
    obtain ⟨cur, rest, rfl, rfl, isRest⟩ := List.map_eq_cons_iff.mp ids
    obtain ⟨other, before⟩ := List.ne_and_not_mem_of_not_mem_cons before
    cases thresh with
    | zero =>
      cases done
      exact .inr ⟨_, back, ⟨ids, List.not_mem_cons_of_ne_of_not_mem other before, after⟩, Nat.le_refl _,
        fun less => absurd less (Nat.lt_irrefl 0)⟩
    | succ thresh =>
      obtain ⟨⟨service, stream⟩, -, isRound⟩ := bind_ok done
      dsimp only at isRound
      split at isRound
      · cases isRound
        refine .inr ⟨front, back ++ [cur.id], ⟨?_, before, ?_⟩, Nat.le_succ _,
          fun _ => Nat.lt_succ_self _⟩
        · simp [isRest]
        · simp [after, other]
      · obtain ⟨others, recursion, isRound⟩ := bind_ok isRound
        cases isRound
        rcases ih ⟨isRest, before, after⟩ recursion with
          ⟨served, member, inList, turn⟩ | ⟨front', back', stands, shorter, -⟩
        · exact .inl ⟨served, List.mem_cons_of_mem _ member, List.mem_cons_of_mem _ inList, turn⟩
        · exact .inr ⟨front', back', stands, Nat.le_succ_of_le shorter,
            fun _ => Nat.lt_succ_of_le shorter⟩

theorem Continues.stands {kept before after}
    (continues : Continues kept before after) (stands : Stands id front back before)
    (distinct : (after.map Entry.id).Nodup) :
    id ∉ kept ∨ ∃ front' back', Stands id front' back' after ∧ front'.length ≤ front.length := by
  obtain ⟨new, isAfter⟩ := continues.added
  have sublist := continues.sublist
  rw [stands.1] at sublist
  obtain ⟨first, second, rfl, isFirst, isSecond⟩ := List.sublist_append_iff.mp sublist
  cases isSecond with
  | cons _ gone =>
    refine .inl fun member => ?_
    rcases List.mem_append.mp member with early | late
    · exact stands.2.1 (isFirst.subset early)
    · exact stands.2.2 (gone.subset late)
  | cons_cons _ rest =>
    rw [List.append_assoc, List.cons_append] at isAfter
    rw [isAfter] at distinct
    obtain ⟨-, behind, apart⟩ := List.nodup_append.mp distinct
    exact .inr ⟨first, _, ⟨isAfter, fun early => apart _ early _ List.mem_cons_self rfl,
      (List.nodup_cons.mp behind).1⟩, isFirst.length_le⟩

structure Call where
  thresh : Nat
  buffers : Nat → Nat
  curTs : UInt32

def Call.run (call : Call) (sendList : List Entry) : Except Fault Round :=
  writeTCPDataList call.buffers call.curTs call.thresh sendList

/-- A stream at place `front.length + 1` of the list has its turn in one of as many calls, or is taken
off the list between two of them. -/
theorem send_list_fair {calls : Nat → Call} {lists : Nat → List Entry} {rounds : Nat → Round}
    {kept : Nat → List Nat} (room : ∀ time ≤ front.length, 1 ≤ (calls time).thresh)
    (runs : ∀ time ≤ front.length, (calls time).run (lists time) = .ok (rounds time))
    (continues : ∀ time < front.length, Continues (kept time) (rounds time).sendList (lists (time + 1)))
    (distinct : ∀ time ≤ front.length, ((lists time).map Entry.id).Nodup)
    (place : (lists 0).map Entry.id = front ++ id :: back) :
    ∃ time ≤ front.length, TurnOf id (lists time) (rounds time) ∨ time < front.length ∧ id ∉ kept time := by
  -- with `count` calls left at most `count` streams are before this one
  have waits : ∀ count time before behind, time + count = front.length → before.length ≤ count →
      Stands id before behind (lists time) → ∃ later ≤ front.length,
        TurnOf id (lists later) (rounds later) ∨ later < front.length ∧ id ∉ kept later := by
    intro count
    induction count with
    | zero =>
      intro time before behind now empty stands
      rcases writeTCPDataList_advances stands (runs time (by omega)) with turn | ⟨_, _, -, -, nearer⟩
      · exact ⟨time, by omega, .inl turn⟩
      · have := nearer (room time (by omega))
        omega
    | succ count ih =>
      intro time before behind now bound stands
      rcases writeTCPDataList_advances stands (runs time (by omega)) with turn | ⟨_, _, left, -, nearer⟩
      · exact ⟨time, by omega, .inl turn⟩
      · have := nearer (room time (by omega))
        rcases (continues time (by omega)).stands left (distinct (time + 1) (by omega)) with
          gone | ⟨_, _, next, shorter⟩
        · exact ⟨time, by omega, .inr ⟨by omega, gone⟩⟩
        · exact ih (time + 1) _ _ (by omega) (by omega) next
  have first := distinct 0 (Nat.zero_le _)
  rw [place] at first
  obtain ⟨-, behind, apart⟩ := List.nodup_append.mp first
  exact waits front.length 0 front back (Nat.zero_add _) (Nat.le_refl _)
    ⟨place, fun early => apart _ early _ List.mem_cons_self rfl, (List.nodup_cons.mp behind).1⟩

def sending (id : Nat) (peerWnd : UInt32) : Entry where
  id := id
  stream := { flushing 1460 with
    ctl := { (flushing 1460).ctl with peerWnd }
    lists := { onSendList := true } }

def enough : Call := ⟨2, fun _ => 2, 0⟩

def enough.round (sendList : List Entry) : Round := (enough.run sendList).toOption.getD ⟨[], []⟩

def blockedFirst : List Entry := [sending 1 0, sending 2 10]

def oneAdded : List Entry := (enough.round blockedFirst).sendList ++ [sending 3 10]

theorem send_list_fair_blocked :
    (enough.round blockedFirst).served.map Served.service = [.blocked] ∧
      (enough.round oneAdded).served.map Served.service = [.sent, .blocked] ∧
      TurnOf 2 oneAdded (enough.round oneAdded) := by
  refine ⟨rfl, rfl, ?_⟩
  have soon : ∀ time ≤ 1, time = 0 ∨ time = 1 := by omega
  obtain ⟨time, bound, turn⟩ := @send_list_fair 2 [1] [] (fun _ => enough)
    (fun time => if time = 0 then blockedFirst else oneAdded)
    (fun time => enough.round (if time = 0 then blockedFirst else oneAdded)) (fun _ => [2, 1])
    (fun _ _ => by decide) (fun time bound => by rcases soon time bound with rfl | rfl <;> rfl)
    (fun time early => by
      obtain rfl := Nat.lt_one_iff.mp early
      exact ⟨List.Sublist.refl _, [3], rfl⟩)
    (fun time bound => by rcases soon time bound with rfl | rfl <;> decide) rfl
  rcases soon time bound with rfl | rfl
  · rcases turn with ⟨served, member, -, same, -⟩ | ⟨-, gone⟩
    · cases List.mem_singleton.mp member
      cases same
    · exact absurd List.mem_cons_self gone
  · exact turn.resolve_right fun late => absurd late.1 (Nat.lt_irrefl 1)

def waiting : Entry := ⟨1, { state := .established, lists := { onSendList := true, onControlList := true } }⟩

def waitingRound : Round := ⟨[⟨waiting, .delayed, waiting.stream⟩], [waiting]⟩

theorem send_list_delayed : waiting.stream.lists.onSendList = true ∧
    ∀ call : Call, 1 ≤ call.thresh → call.run [waiting] = .ok waitingRound := by
  refine ⟨rfl, fun ⟨thresh, buffers, curTs⟩ room => ?_⟩
  obtain ⟨more, rfl⟩ := Nat.exists_eq_add_of_le' room
  rfl

end Mcc.SendList
