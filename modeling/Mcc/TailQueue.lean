import Mathlib

/-!
Queues of entries that are linked through fields of their own, as the macros of `sys/queue.h` keep
them: an entry points to the next one and to the place that points to itself, and a queue points to
its first entry and to the place where the next one will be hung.
-/

namespace TailQueue

open Function (update update_self)
open List (mem_cons_of_mem mem_cons_self)

inductive Place (κ ι : Type) where
  | first (queue : κ)
  | next (entry : ι)
  deriving DecidableEq

structure Links (κ ι : Type) where
  points : Place κ ι → Option ι
  prev : ι → Place κ ι
  last : κ → Place κ ι

open Links

variable {κ ι : Type}

def Links.empty (nowhere : Place κ ι) : Links κ ι where
  points _ := none
  prev _ := nowhere
  last := .first

section Operations

variable [DecidableEq κ] [DecidableEq ι]

def Links.insertTail (queue : κ) (entry : ι) (links : Links κ ι) : Links κ ι where
  points := update (update links.points (.next entry) none) (links.last queue)
    (some entry)
  prev := update links.prev entry (links.last queue)
  last := update links.last queue (.next entry)

/-- The head of the queue is touched only if the entry is a last one, of whichever queue. -/
def Links.remove (queue : κ) (entry : ι) (links : Links κ ι) : Links κ ι :=
  match links.points (.next entry) with
  | some later =>
    { links with
      prev := update links.prev later (links.prev entry)
      points := update links.points (links.prev entry) (some later) }
  | none =>
    { links with
      last := update links.last queue (links.prev entry)
      points := update links.points (links.prev entry) none }

end Operations

/-- The loop that looks for an entry, from the one given on; `none` if it is not done after `fuel`
entries. -/
def Links.find {ε : Type} (links : Links κ ι) (wanted : ι → Except ε Bool) :
    Nat → Option ι → Option (Except ε (Option ι))
  | _, none => some (.ok none)
  | 0, some _ => none
  | fuel + 1, some entry =>
    match wanted entry with
    | .error error => some (.error error)
    | .ok true => some (.ok (some entry))
    | .ok false => links.find wanted fuel (links.points (.next entry))

inductive Links.Leads (links : Links κ ι) : Place κ ι → ι → Prop
  | here {place entry} : links.points place = some entry → Leads links place entry
  | later {place entry last} : links.points place = some entry → Leads links (.next entry) last →
      Leads links place last

def Segment (links : Links κ ι) : Place κ ι → List ι → Place κ ι → Prop
  | place, [], stop => place = stop
  | place, entry :: rest, stop =>
    links.points place = some entry ∧ links.prev entry = place ∧ Segment links (.next entry) rest stop

def places : Place κ ι → List ι → List (Place κ ι)
  | _, [] => []
  | place, entry :: rest => place :: places (.next entry) rest

section Segment

variable {links other : Links κ ι} {place stop : Place κ ι} {entries : List ι}

theorem mem_places {spot : Place κ ι} (member : spot ∈ places place entries) :
    spot = place ∨ ∃ entry ∈ entries, spot = .next entry := by
  induction entries generalizing place with
  | nil => cases member
  | cons entry rest ih =>
    rcases List.mem_cons.mp member with here | later
    · exact .inl here
    · rcases ih later with rfl | ⟨other, inRest, rfl⟩
      · exact .inr ⟨entry, mem_cons_self, rfl⟩
      · exact .inr ⟨other, mem_cons_of_mem _ inRest, rfl⟩

theorem segment_append {first second : List ι} :
    Segment links place (first ++ second) stop ↔
      ∃ middle, Segment links place first middle ∧ Segment links middle second stop := by
  induction first generalizing place with
  | nil => simp [Segment]
  | cons entry rest ih =>
    simp only [List.cons_append, Segment, ih]
    constructor
    · rintro ⟨points, prev, middle, first, second⟩
      exact ⟨middle, ⟨points, prev, first⟩, second⟩
    · rintro ⟨middle, ⟨points, prev, first⟩, second⟩
      exact ⟨points, prev, middle, first, second⟩

section

variable (segment : Segment links place entries stop)
include segment

theorem segment_congr
    (points : ∀ spot ∈ places place entries, other.points spot = links.points spot)
    (prev : ∀ entry ∈ entries, other.prev entry = links.prev entry) :
    Segment other place entries stop := by
  induction entries generalizing place with
  | nil => exact segment
  | cons entry rest ih =>
    obtain ⟨here, back, later⟩ := segment
    refine ⟨(points _ mem_cons_self).trans here, (prev _ mem_cons_self).trans back, ?_⟩
    exact ih later (fun spot member => points spot (mem_cons_of_mem _ member))
      fun entry member => prev entry (mem_cons_of_mem _ member)

theorem segment_stop : stop = place ∨ ∃ entry ∈ entries, stop = .next entry := by
  induction entries generalizing place with
  | nil => exact .inl segment.symm
  | cons entry rest ih =>
    rcases ih segment.2.2 with rfl | ⟨other, inRest, rfl⟩
    · exact .inr ⟨entry, mem_cons_self, rfl⟩
    · exact .inr ⟨other, mem_cons_of_mem _ inRest, rfl⟩

theorem stop_not_mem (distinct : entries.Nodup)
    (outside : ∀ entry ∈ entries, place ≠ .next entry) : stop ∉ places place entries := by
  induction entries generalizing place with
  | nil => exact List.not_mem_nil
  | cons entry rest ih =>
    obtain ⟨fresh, restDistinct⟩ := List.nodup_cons.mp distinct
    have later : ∀ other ∈ rest, (.next entry : Place κ ι) ≠ .next other := by
      rintro other inRest same
      cases same
      exact fresh inRest
    intro member
    rcases List.mem_cons.mp member with here | there
    · rcases segment_stop segment.2.2 with isNext | ⟨other, inRest, isNext⟩
      · exact outside entry mem_cons_self (here.symm.trans isNext)
      · exact outside other (mem_cons_of_mem _ inRest) (here.symm.trans isNext)
    · exact ih segment.2.2 restDistinct later there

theorem points_eq : links.points place = (entries.head?).or (links.points stop) := by
  cases entries with
  | nil => exact congrArg links.points segment
  | cons entry rest => exact segment.1

end

variable {ε : Type} {wanted : ι → Except ε Bool} {fuel : Nat}

theorem find_eq (segment : Segment links place entries stop) (ends : links.points stop = none)
    (enough : entries.length ≤ fuel) :
    links.find wanted fuel (links.points place) = some (entries.findM? wanted) := by
  induction entries generalizing place fuel with
  | nil =>
    rw [show place = stop from segment, ends]
    cases fuel <;> rfl
  | cons entry rest ih =>
    obtain ⟨here, -, later⟩ := segment
    obtain ⟨fuel, rfl⟩ : ∃ less, fuel = less + 1 :=
      ⟨fuel - 1, by simp only [List.length_cons] at enough; omega⟩
    have rest := ih later (Nat.le_of_succ_le_succ enough)
    rw [here, find, List.findM?]
    cases wanted entry with
    | error error => rfl
    | ok found =>
      cases found with
      | true => rfl
      | false => exact rest

variable {entry : ι}

theorem find_wanted {start : Option ι}
    (found : links.find wanted fuel start = some (.ok (some entry))) : wanted entry = .ok true := by
  induction fuel generalizing start with
  | zero => cases start <;> cases found
  | succ fuel ih =>
    cases start with
    | none => cases found
    | some first =>
      rw [find] at found
      cases test : wanted first with
      | error error =>
        rw [test] at found
        cases found
      | ok isWanted =>
        rw [test] at found
        cases isWanted with
        | true =>
          cases found
          exact test
        | false => exact ih found

theorem find_leads (found : links.find wanted fuel (links.points place) = some (.ok (some entry))) :
    links.Leads place entry := by
  induction fuel generalizing place with
  | zero => cases start : links.points place <;> rw [start] at found <;> cases found
  | succ fuel ih =>
    cases start : links.points place with
    | none =>
      rw [start] at found
      cases found
    | some first =>
      rw [start, find] at found
      split at found
      · cases found
      · cases found
        exact .here start
      · exact .later start (ih found)

theorem find_refused (found : links.find wanted fuel (links.points place) = some (.ok none))
    (leads : links.Leads place entry) : wanted entry = .ok false := by
  induction leads generalizing fuel with
  | here start =>
    rw [start] at found
    cases fuel with
    | zero => cases found
    | succ fuel =>
      rw [find] at found
      split at found
      · cases found
      · cases found
      · assumption
  | later start _ ih =>
    rw [start] at found
    cases fuel with
    | zero => cases found
    | succ fuel =>
      rw [find] at found
      split at found
      · cases found
      · cases found
      · exact ih found

theorem findM?_cases (entries : List ι) (wanted : ι → Except ε Bool) :
    (∃ entry before after, entries.findM? wanted = .ok (some entry) ∧ wanted entry = .ok true ∧
        entries = before ++ entry :: after) ∨
      (entries.findM? wanted = .ok none ∧ ∀ entry ∈ entries, wanted entry = .ok false) ∨
      ∃ error, entries.findM? wanted = .error error ∧ ∃ entry ∈ entries, wanted entry = .error error := by
  induction entries with
  | nil => exact .inr (.inl ⟨rfl, nofun⟩)
  | cons first rest ih =>
    rw [List.findM?]
    cases test : wanted first with
    | error error => exact .inr (.inr ⟨error, rfl, first, mem_cons_self, test⟩)
    | ok isWanted =>
      cases isWanted with
      | true => exact .inl ⟨first, [], rest, rfl, test, rfl⟩
      | false =>
        rcases ih with ⟨entry, before, after, found, wanted, rfl⟩ | ⟨absent, all⟩ |
          ⟨error, failed, entry, member, isError⟩
        · exact .inl ⟨entry, first :: before, after, found, wanted, rfl⟩
        · exact .inr (.inl ⟨absent, List.forall_mem_cons.mpr ⟨test, all⟩⟩)
        · exact .inr (.inr ⟨error, failed, entry, mem_cons_of_mem _ member, isError⟩)

end Segment

structure Holds (links : Links κ ι) (queue : κ) (entries : List ι) : Prop where
  segment : Segment links (.first queue) entries (links.last queue)
  ends : links.points (links.last queue) = none
  distinct : entries.Nodup

section Holds

variable {links other : Links κ ι} {queue : κ} {entries : List ι}

theorem holds_empty (nowhere : Place κ ι) (queue : κ) :
    Holds (empty nowhere) queue [] := ⟨rfl, rfl, List.nodup_nil⟩

section

variable (holds : Holds links queue entries)
include holds

theorem Holds.first : links.points (.first queue) = entries.head? := by
  rw [points_eq holds.segment, holds.ends, Option.or_none]

theorem Holds.last :
    links.last queue = .first queue ∨ ∃ entry ∈ entries, links.last queue = .next entry :=
  segment_stop holds.segment

theorem Holds.last_not_mem : links.last queue ∉ places (.first queue) entries :=
  stop_not_mem holds.segment holds.distinct fun _ _ => nofun

theorem Holds.congr (first : other.points (.first queue) = links.points (.first queue))
    (next : ∀ entry ∈ entries, other.points (.next entry) = links.points (.next entry) ∧
      other.prev entry = links.prev entry)
    (last : other.last queue = links.last queue) : Holds other queue entries where
  segment := by
    rw [last]
    refine segment_congr holds.segment (fun spot member => ?_) fun entry member =>
      (next entry member).2
    rcases mem_places member with rfl | ⟨entry, inside, rfl⟩
    · exact first
    · exact (next entry inside).1
  ends := by
    rw [last]
    rcases holds.last with here | ⟨entry, inside, here⟩
    · rw [here, first, ← here, holds.ends]
    · rw [here, (next entry inside).1, ← here, holds.ends]
  distinct := holds.distinct

end

end Holds

section Changes

variable [DecidableEq κ] [DecidableEq ι] {links other : Links κ ι} {queue : κ} {entries : List ι}

variable {entry : ι}

theorem Holds.insertTail (holds : Holds links queue entries) (fresh : entry ∉ entries) :
    Holds (links.insertTail queue entry) queue (entries ++ [entry]) := by
  have lastFresh : links.last queue ≠ .next entry := by
    rcases holds.last with here | ⟨other, inside, here⟩ <;> rw [here]
    · nofun
    · rintro same
      cases same
      exact fresh inside
  refine ⟨?_, ?_, ?_⟩
  · refine segment_append.mpr ⟨links.last queue, ?_, ?_, ?_, ?_⟩
    · refine segment_congr holds.segment (fun spot member => ?_) fun other inside => ?_
      · have notLast := ne_of_mem_of_not_mem member holds.last_not_mem
        have notFresh : spot ≠ .next entry := by
          rcases mem_places member with rfl | ⟨other, inside, rfl⟩
          · nofun
          · rintro same
            cases same
            exact fresh inside
        simp [Links.insertTail, notLast, notFresh]
      · have notFresh := ne_of_mem_of_not_mem inside fresh
        simp [Links.insertTail, notFresh]
    · simp [Links.insertTail]
    · simp [Links.insertTail]
    · simp [Links.insertTail, Segment]
  · simp [Links.insertTail, lastFresh.symm]
  · refine List.nodup_append.mpr ⟨holds.distinct, List.pairwise_singleton _ entry, ?_⟩
    rintro one inside two member rfl
    exact fresh (List.mem_singleton.mp member ▸ inside)

theorem Holds.insertTail_other {another : κ} {others : List ι} (holds : Holds links queue entries)
    (unaffected : Holds links another others) (different : another ≠ queue) (fresh : entry ∉ others)
    (disjoint : ∀ one ∈ entries, one ∉ others) : Holds (links.insertTail queue entry) another others := by
  have elsewhere : ∀ spot, (spot = .first another ∨ ∃ one ∈ others, spot = .next one) →
      spot ≠ links.last queue := by
    rintro spot place rfl
    rcases holds.last with here | ⟨one, inside, here⟩ <;> rw [here] at place
    · rcases place with same | ⟨_, _, same⟩ <;> cases same
      exact different rfl
    · rcases place with same | ⟨_, member, same⟩ <;> cases same
      exact disjoint one inside member
  refine unaffected.congr ?_ (fun one member => ⟨?_, ?_⟩) ?_
  · simp [Links.insertTail, elsewhere _ (.inl rfl)]
  · have notFresh := ne_of_mem_of_not_mem member fresh
    simp [Links.insertTail, elsewhere _ (.inr ⟨one, member, rfl⟩), notFresh]
  · have notFresh := ne_of_mem_of_not_mem member fresh
    simp [Links.insertTail, notFresh]
  · simp [Links.insertTail, different]

theorem Holds.remove {before after : List ι} (holds : Holds links queue (before ++ entry :: after)) :
    Holds (links.remove queue entry) queue (before ++ after) := by
  obtain ⟨middle, lead, here, back, trail⟩ := segment_append.mp holds.segment
  obtain ⟨leadDistinct, tailDistinct, apart⟩ := List.nodup_append.mp holds.distinct
  obtain ⟨fresh, trailDistinct⟩ := List.nodup_cons.mp tailDistinct
  have notLed : middle ∉ places (.first queue) before :=
    stop_not_mem lead leadDistinct fun _ _ => nofun
  have distinct : (before ++ after).Nodup := List.nodup_append.mpr ⟨leadDistinct, trailDistinct,
    fun one inLead two inTrail => apart one inLead two (mem_cons_of_mem _ inTrail)⟩
  have notNext : ∀ one ∈ after, middle ≠ .next one := by
    rintro one inTrail rfl
    rcases segment_stop lead with same | ⟨two, inLead, same⟩ <;> cases same
    exact apart one inLead one (mem_cons_of_mem _ inTrail) rfl
  cases after with
  | nil =>
    have absent : links.points (.next entry) = none := by
      rw [show (.next entry : Place κ ι) = links.last queue from trail]
      exact holds.ends
    have result : links.remove queue entry = { links with
        last := update links.last queue middle
        points := update links.points middle .none } := by
      rw [Links.remove, absent, back]
    rw [result]
    refine ⟨?_, ?_, distinct⟩
    · rw [List.append_nil]
      dsimp only
      rw [update_self]
      refine segment_congr lead (fun spot member => ?_) fun _ _ => rfl
      have different := ne_of_mem_of_not_mem member notLed
      simp [different]
    · simp
  | cons later rest =>
    obtain ⟨there, -, final⟩ := trail
    have laterFresh := (List.nodup_cons.mp trailDistinct).1
    have result : links.remove queue entry = { links with
        prev := update links.prev later middle
        points := update links.points middle (some later) } := by
      rw [Links.remove, there, back]
    rw [result]
    have notLater : later ∉ before := fun inLead =>
      apart later inLead later (mem_cons_of_mem _ mem_cons_self) rfl
    refine ⟨segment_append.mpr ⟨middle, ?_, ?_, ?_, ?_⟩, ?_, distinct⟩
    · refine segment_congr lead (fun spot member => ?_) fun one member => ?_
      · have different := ne_of_mem_of_not_mem member notLed
        simp [different]
      · have different := ne_of_mem_of_not_mem member notLater
        simp [different]
    · simp
    · simp
    · refine segment_congr final (fun spot member => ?_) fun one member => ?_
      · have different : spot ≠ middle := by
          rintro rfl
          rcases mem_places member with same | ⟨one, inRest, same⟩
          · exact notNext later mem_cons_self same
          · exact notNext one (mem_cons_of_mem _ inRest) same
        simp [different]
      · have different := ne_of_mem_of_not_mem member laterFresh
        simp [different]
    · have different : links.last queue ≠ middle := by
        intro isMiddle
        rcases segment_stop final with same | ⟨one, inRest, same⟩
        · exact notNext later mem_cons_self (isMiddle.symm.trans same)
        · exact notNext one (mem_cons_of_mem _ inRest) (isMiddle.symm.trans same)
      simp [different, holds.ends]

section Removed

variable {another : κ} {others before after : List ι}
  (holds : Holds links queue (before ++ entry :: after)) (unaffected : Holds links another others)
  (different : another ≠ queue) (disjoint : ∀ one ∈ before ++ entry :: after, one ∉ others)
include holds unaffected different disjoint

theorem Holds.remove_other : Holds (links.remove queue entry) another others := by
  obtain ⟨middle, lead, here, back, trail⟩ := segment_append.mp holds.segment
  have elsewhere : ∀ spot, (spot = .first another ∨ ∃ one ∈ others, spot = .next one) →
      spot ≠ middle := by
    rintro spot place rfl
    rcases segment_stop lead with rfl | ⟨one, inside, rfl⟩
    · rcases place with same | ⟨_, _, same⟩ <;> cases same
      exact different rfl
    · rcases place with same | ⟨_, member, same⟩ <;> cases same
      exact disjoint one (List.mem_append_left _ inside) member
  have first := elsewhere (.first another) (.inl rfl)
  have next : ∀ one ∈ others, (.next one : Place κ ι) ≠ middle :=
    fun one member => elsewhere _ (.inr ⟨one, member, rfl⟩)
  cases after with
  | nil =>
    have absent : links.points (.next entry) = none := by
      rw [show (.next entry : Place κ ι) = links.last queue from trail]
      exact holds.ends
    rw [Links.remove, absent, back]
    refine unaffected.congr ?_ (fun one member => ⟨?_, rfl⟩) ?_
    · simp [first]
    · simp [next one member]
    · simp [different]
  | cons later rest =>
    have notLater : later ∉ others := disjoint later (by simp)
    rw [Links.remove, trail.1, back]
    refine unaffected.congr ?_ (fun one member => ⟨?_, ?_⟩) rfl
    · simp [first]
    · simp [next one member]
    · have notSame := ne_of_mem_of_not_mem member notLater
      simp [notSame]

theorem Holds.move :
    Holds ((links.remove queue entry).insertTail another entry) queue (before ++ after) ∧
      Holds ((links.remove queue entry).insertTail another entry) another (others ++ [entry]) := by
  have source := holds.remove
  have kept := holds.remove_other unaffected different disjoint
  have fresh : entry ∉ before ++ after := by
    have distinct := List.nodup_middle.mp holds.distinct
    exact (List.nodup_cons.mp distinct).1
  refine ⟨kept.insertTail_other source different.symm fresh fun one inside member => ?_,
    kept.insertTail (disjoint entry (by simp))⟩
  refine disjoint one ?_ inside
  rcases List.mem_append.mp member with early | late
  · exact List.mem_append_left _ early
  · exact List.mem_append_right _ (mem_cons_of_mem _ late)

end Removed

end Changes

end TailQueue
