import Mathlib

/-!
The scan of a reactor's timers. The `std::multimap` is a list in the order of the keys, and an iterator
whose element has been erased can be neither compared nor advanced.
-/

namespace Mcc.TimerScan

def infinite : Int := -1

structure Timer where
  func : Bool
  deadline : Int
  interval : Int
  count : Int

structure Element where
  number : Nat
  key : Int
  timer : Timer

structure Manager where
  timers : List Element
  inserted : Nat

def Manager.insert (m : Manager) (key : Int) (timer : Timer) : Manager where
  timers := m.timers.takeWhile (·.key ≤ key) ++
    ⟨m.inserted, key, timer⟩ :: m.timers.dropWhile (·.key ≤ key)
  inserted := m.inserted + 1

def Timer.alarm (t : Timer) : Timer × Bool :=
  if !t.func || t.count = 0 then (t, false)
  else if t.count = infinite then ({ t with deadline := t.deadline + t.interval }, true)
  else if 0 < t.count then ({ t with deadline := t.deadline + t.interval, count := t.count - 1 }, true)
  else ({ t with count := 0 }, false)

inductive Iterator where
  | element (it : Element)
  | finish
  | erased

def first : List Element → Iterator
  | [] => .finish
  | it :: _ => .element it

def Iterator.follows (deadline : Int) : Iterator → Option Bool
  | .element it => some (deadline < it.key)
  | .finish => some true
  | .erased => none

def Manager.advance (m : Manager) : Iterator → Option Iterator
  | .element it => some (first (m.timers.dropWhile (·.number ≠ it.number)).tail)
  | _ => none

/-- The loop of `tick`: `clock` is what it reads and `added` what the callbacks insert, one after the
other, and `ran` are the elements whose `alarm` was called. -/
def scan (clock : Nat → Int) (added : Nat → List (Int × Timer)) :
    Nat → Manager → List Element → Iterator → Option (Manager × List Element)
  | 0, _, _, _ => none
  | _ + 1, _, _, .erased => none
  | _ + 1, m, ran, .finish => some (m, ran)
  | fuel + 1, m, ran, .element it => do
      if clock ran.length < it.key then return (m, ran)
      let (t, called) := it.timer.alarm
      let m := if called then (added ran.length).foldl (fun m new => m.insert new.1 new.2) m else m
      let ran := ran ++ [it]
      -- `erase(it)`
      let m := { m with timers := m.timers.filter (·.number ≠ it.number) }
      let it := Iterator.erased
      if t.count = 0 then scan clock added fuel m ran (← m.advance it)
      else
        let itNew := Iterator.element ⟨m.inserted, t.deadline, t⟩
        let m := m.insert t.deadline t
        let back ← it.follows t.deadline
        scan clock added fuel m ran (← m.advance (if back then itNew else it))

def tick (clock : Nat → Int) (added : Nat → List (Int × Timer)) (fuel : Nat) (m : Manager) :
    Option (Manager × List Element) :=
  if m.timers = [] then some (m, []) else scan clock added fuel m [] (first m.timers)

/-- `tick` uses no erased iterator, runs what was due in the order of the deadlines, and leaves only
what is due in the future. -/
def Complete (clock : Nat → Int) (added : Nat → List (Int × Timer)) (m : Manager) : Prop :=
  ∃ fuel after ran, tick clock added fuel m = some (after, ran) ∧
    (∀ it ∈ m.timers, it.key ≤ clock 0 → it ∈ ran) ∧ ran.Pairwise (·.key ≤ ·.key) ∧
    ∀ it ∈ after.timers, clock ran.length < it.key

variable {clock : Nat → Int} {added : Nat → List (Int × Timer)} {m : Manager}

/-- The iterator is used after `erase` in the first round that runs a timer. -/
theorem scan_due {it : Element} (due : it.key ≤ clock 0) (fuel : Nat) :
    scan clock added fuel m [] (.element it) = none := by
  cases fuel with
  | zero => rfl
  | succ fuel =>
    rw [scan, List.length_nil, if_neg (Int.not_lt.mpr due)]
    dsimp only
    split <;> rfl

theorem complete_iff (clock : Nat → Int) (added : Nat → List (Int × Timer)) {m : Manager}
    (sorted : m.timers.Pairwise (·.key ≤ ·.key)) :
    Complete clock added m ↔ ∀ it ∈ m.timers, clock 0 < it.key := by
  constructor
  · rintro ⟨fuel, after, ran, done, -⟩ it listed
    by_contra due
    rw [tick, if_neg (List.ne_nil_of_mem listed)] at done
    cases isTimers : m.timers with
    | nil => exact absurd listed (isTimers ▸ List.not_mem_nil)
    | cons head rest =>
      rw [isTimers] at sorted listed
      have least : head.key ≤ it.key := by
        rcases List.mem_cons.mp listed with rfl | later
        · exact Int.le_refl _
        · exact List.rel_of_pairwise_cons sorted later
      rw [isTimers, first, scan_due (Int.le_trans least (Int.not_lt.mp due))] at done
      cases done
  · intro waiting
    refine ⟨1, m, [], ?_, fun it listed due => absurd (waiting it listed) (Int.not_lt.mpr due), .nil,
      waiting⟩
    unfold tick
    split
    · rfl
    · cases isTimers : m.timers with
      | nil => rfl
      | cons head rest =>
        have later := waiting head (isTimers ▸ List.mem_cons_self)
        rw [first, scan, List.length_nil, if_pos later]
        rfl

theorem complete_iff_early : Complete (fun _ => 0) (fun _ => []) ⟨[⟨0, 1, ⟨true, 1, 1, infinite⟩⟩], 1⟩ :=
  (complete_iff _ _ (List.pairwise_singleton _ _)).mpr (by simp)

theorem erased_iterator_used :
    ¬Complete (fun _ => 5) (fun _ => []) ⟨[⟨0, 1, ⟨true, 1, 1, infinite⟩⟩], 1⟩ := by
  rintro ⟨fuel, after, ran, done, -⟩
  rw [tick, if_neg (List.cons_ne_nil _ _), first, scan_due (by decide)] at done
  cases done

end Mcc.TimerScan
