import Mcc.FrameBounds

/-!
The loop over the TCP options for any bytes and any length, not only those of a frame: when it ends,
and when it reads no byte behind the options.
-/

namespace Mcc.FrameBounds.OptionReader

open Relation

variable (r : OptionReader) (bytes : Nat → UInt8) (len : Int)

def extentAt (i : Nat) : Nat :=
  if (bytes i).toNat < 2 then 1
  else if len < i + (bytes (i + 1)).toNat then 2
  else 2 + r.takes (bytes i).toNat

def stepAt (i : Nat) : Walk :=
  let opt := (bytes i).toNat
  if opt = 0 then .ends false
  else if opt = 1 then .goesOn (i + 1)
  else
    let optlen := (bytes (i + 1)).toNat
    if len < i + optlen then .ends false
    else (r.next opt optlen i).elim (.ends true) .goesOn

/-- The reads, as offsets and sizes, and the result, none while the rounds do not suffice. -/
def walkAt : (fuel i : Nat) → List (Nat × Nat) × Option Bool
  | 0, _ => ([], none)
  | fuel + 1, i =>
    if len ≤ i then ([], some false)
    else match r.stepAt bytes len i with
      | .ends found => ([(i, r.extentAt bytes len i)], some found)
      | .goesOn j =>
        let rest := walkAt fuel j
        ((i, r.extentAt bytes len i) :: rest.1, rest.2)

def Safe : Prop :=
  (∃ fuel, (r.walkAt bytes len fuel 0).2 ≠ none) ∧
    ∀ fuel, ∀ read ∈ (r.walkAt bytes len fuel 0).1, (read.1 + read.2 : Int) ≤ len

def FollowsAt (i j : Nat) : Prop := i < len ∧ r.stepAt bytes len i = .goesOn j

def Reached (i : Nat) : Prop := ReflTransGen (r.FollowsAt bytes len) 0 i ∧ i < len

def Empty (known : List UInt8) (i : Nat) : Prop :=
  1 < bytes i ∧ bytes i ∉ known ∧ bytes (i + 1) = 0

theorem walk_eq (f : Frame) (fuel i : Nat) :
    r.walk f fuel i = let walked := r.walkAt (fun k => f.memory (f.options + k)) f.optionLen fuel i
      (walked.1.map fun read => .read (f.options + read.1) read.2, walked.2) := by
  induction fuel generalizing i with
  | zero => rfl
  | succ fuel ih =>
    have extent : r.extentAt (fun k => f.memory (f.options + k)) f.optionLen i = r.extent f i := by
      simp only [extentAt, extent, ← Int.natCast_add, Int.ofNat_lt]
      rfl
    have step : r.stepAt (fun k => f.memory (f.options + k)) f.optionLen i = r.step f i := by
      simp only [stepAt, step, ← Int.natCast_add, Int.ofNat_lt]
      rfl
    simp only [walk, walkAt, Int.ofNat_le, extent, step]
    split
    · rfl
    · cases r.step f i with
      | ends found => rfl
      | goesOn j => simp [ih]

variable {r bytes len}

theorem walkAt_follows {i j : Nat} (follows : r.FollowsAt bytes len i j) (fuel : Nat) :
    r.walkAt bytes len (fuel + 1) i =
      ((i, r.extentAt bytes len i) :: (r.walkAt bytes len fuel j).1, (r.walkAt bytes len fuel j).2) := by
  simp only [walkAt, Int.not_le.mpr follows.1, ↓reduceIte, follows.2]

theorem walkAt_stalls {i : Nat} (stalls : r.FollowsAt bytes len i i) (fuel : Nat) :
    (r.walkAt bytes len fuel i).2 = none := by
  induction fuel with
  | zero => rfl
  | succ fuel ih => rw [walkAt_follows stalls, ih]

theorem walkAt_ends_reached {i j : Nat} (reached : ReflTransGen (r.FollowsAt bytes len) i j) :
    (∃ fuel, (r.walkAt bytes len fuel i).2 ≠ none) → ∃ fuel, (r.walkAt bytes len fuel j).2 ≠ none := by
  induction reached using ReflTransGen.head_induction_on with
  | refl => exact id
  | head follows _ ih =>
    rintro ⟨fuel, ends⟩
    cases fuel with
    | zero => exact absurd rfl ends
    | succ fuel => exact ih ⟨fuel, by rwa [walkAt_follows follows] at ends⟩

theorem walkAt_reads_reached {i j : Nat} (reached : ReflTransGen (r.FollowsAt bytes len) i j) :
    (∀ fuel, ∀ read ∈ (r.walkAt bytes len fuel i).1, (read.1 + read.2 : Int) ≤ len) →
      ∀ fuel, ∀ read ∈ (r.walkAt bytes len fuel j).1, (read.1 + read.2 : Int) ≤ len := by
  induction reached using ReflTransGen.head_induction_on with
  | refl => exact id
  | head follows _ ih =>
    intro within
    apply ih
    intro fuel read member
    apply within (fuel + 1)
    rw [walkAt_follows follows]
    exact List.mem_cons_of_mem _ member

theorem walkAt_first {i : Nat} (inside : i < len) :
    (i, r.extentAt bytes len i) ∈ (r.walkAt bytes len 1 i).1 := by
  simp only [walkAt, Int.not_le.mpr inside, ↓reduceIte]
  cases r.stepAt bytes len i <;> simp

theorem walkAt_ends (forward : ∀ opt optlen i j, r.next opt optlen i = some j → i ≤ j) (fuel : Nat) :
    ∀ i : Nat, len ≤ i + fuel →
      (∀ j, ReflTransGen (r.FollowsAt bytes len) i j → j < len → ¬r.FollowsAt bytes len j j) →
        (r.walkAt bytes len (fuel + 1) i).2 ≠ none := by
  induction fuel with
  | zero =>
    intro i past _
    simp [walkAt, show len ≤ i by omega]
  | succ fuel ih =>
    intro i bound moves
    by_cases past : len ≤ i
    · simp [walkAt, past]
    have inside : i < len := Int.not_le.mp past
    cases next : r.stepAt bytes len i with
    | ends found => simp [walkAt, past, next]
    | goesOn j =>
      have follows : r.FollowsAt bytes len i j := ⟨inside, next⟩
      have ahead : i ≤ j := by
        simp only [stepAt] at next
        split_ifs at next
        · simp only [Walk.goesOn.injEq] at next
          omega
        · cases found : r.next (bytes i).toNat (bytes (i + 1)).toNat i with
          | none => simp [found] at next
          | some k =>
            simp only [found, Option.elim, Walk.goesOn.injEq] at next
            exact next ▸ forward _ _ _ _ found
      have strict : i ≠ j := by
        rintro rfl
        exact moves i .refl inside follows
      rw [walkAt_follows follows]
      exact ih j (by omega) fun k reached => moves k (reached.head follows)

theorem walkAt_within (fuel : Nat) : ∀ i : Nat,
    (∀ j, ReflTransGen (r.FollowsAt bytes len) i j → j < len → (j + r.extentAt bytes len j : Int) ≤ len) →
      ∀ read ∈ (r.walkAt bytes len fuel i).1, (read.1 + read.2 : Int) ≤ len := by
  induction fuel with
  | zero => simp [walkAt]
  | succ fuel ih =>
    intro i fits
    by_cases past : len ≤ i
    · simp [walkAt, past]
    have inside : i < len := Int.not_le.mp past
    have here := fits i .refl inside
    cases next : r.stepAt bytes len i with
    | ends found => simpa [walkAt, past, next] using here
    | goesOn j =>
      have follows : r.FollowsAt bytes len i j := ⟨inside, next⟩
      rw [walkAt_follows follows, List.forall_mem_cons]
      exact ⟨here, ih j fun k reached => fits k (reached.head follows)⟩

theorem safe_iff (forward : ∀ opt optlen i j, r.next opt optlen i = some j → i ≤ j) :
    r.Safe bytes len ↔ ∀ i, r.Reached bytes len i →
      (i + r.extentAt bytes len i : Int) ≤ len ∧ r.stepAt bytes len i ≠ .goesOn i := by
  constructor
  · rintro ⟨ends, within⟩ i ⟨reached, inside⟩
    refine ⟨walkAt_reads_reached reached within 1 _ (walkAt_first inside), fun stalls => ?_⟩
    obtain ⟨fuel, ends⟩ := walkAt_ends_reached reached ends
    exact ends (walkAt_stalls ⟨inside, stalls⟩ fuel)
  · intro proper
    refine ⟨⟨len.toNat + 1, ?_⟩, fun fuel => walkAt_within fuel 0 fun j reached inside =>
      (proper j ⟨reached, inside⟩).1⟩
    exact walkAt_ends forward _ 0 (by omega) fun j reached inside follows =>
      (proper j ⟨reached, inside⟩).2 follows.2

theorem stepAt_stalls_iff {known : List UInt8} {i : Nat} (inside : i < len)
    (next : ∀ opt optlen : UInt8, 1 < opt →
      (r.next opt.toNat optlen.toNat i = some i ↔ opt ∉ known ∧ optlen = 0)) :
    r.stepAt bytes len i = .goesOn i ↔ Empty bytes known i := by
  have one : 1 < bytes i ↔ 1 < (bytes i).toNat := UInt8.lt_iff_toNat_lt
  unfold stepAt Empty
  dsimp only
  split_ifs with ending nop long
  · simp [one, ending]
  · simp [one, nop]
  · have : bytes (i + 1) ≠ 0 := fun zero => by
      simp only [zero, UInt8.toNat_zero] at long
      omega
    simp [this]
  · have above : 1 < bytes i := one.mpr (by omega)
    rw [← next _ _ above]
    cases r.next (bytes i).toNat (bytes (i + 1)).toNat i <;> simp [above]

theorem parseTCPOptions_forward (opt optlen i j : Nat)
    (next : parseTCPOptions.next opt optlen i = some j) : i ≤ j := by
  simp only [parseTCPOptions, Option.some.injEq] at next
  split_ifs at next <;> omega

theorem parseTCPTimestamp_forward (opt optlen i j : Nat)
    (next : parseTCPTimestamp.next opt optlen i = some j) : i ≤ j := by
  simp only [parseTCPTimestamp] at next
  split_ifs at next
  simp only [Option.some.injEq] at next
  omega

theorem parseTCPOptions_stalls (i : Nat) (opt optlen : UInt8) (_ : 1 < opt) :
    parseTCPOptions.next opt.toNat optlen.toNat i = some i ↔ opt ∉ [2, 3, 4, 8] ∧ optlen = 0 := by
  simp only [parseTCPOptions, Option.some.injEq, List.mem_cons, List.not_mem_nil, or_false,
    ← UInt8.toNat_inj, UInt8.toNat_ofNat]
  split_ifs <;> simp_all

theorem parseTCPTimestamp_stalls (i : Nat) (opt optlen : UInt8) (_ : 1 < opt) :
    parseTCPTimestamp.next opt.toNat optlen.toNat i = some i ↔ opt ∉ [8] ∧ optlen = 0 := by
  simp only [parseTCPTimestamp, List.mem_singleton, ← UInt8.toNat_inj, UInt8.toNat_ofNat]
  split_ifs <;> simp_all

/-- Both parsers return and stay below `len` exactly when every option they come to lies below it
and none of a kind they do not know has length 0. -/
theorem options_safe_iff (bytes : Nat → UInt8) (len : Int) :
    (parseTCPOptions.Safe bytes len ↔ ∀ i, parseTCPOptions.Reached bytes len i →
      (i + parseTCPOptions.extentAt bytes len i : Int) ≤ len ∧ ¬Empty bytes [2, 3, 4, 8] i) ∧
    (parseTCPTimestamp.Safe bytes len ↔ ∀ i, parseTCPTimestamp.Reached bytes len i →
      (i + parseTCPTimestamp.extentAt bytes len i : Int) ≤ len ∧ ¬Empty bytes [8] i) := by
  constructor
  · rw [safe_iff parseTCPOptions_forward]
    refine forall₂_congr fun i reached => and_congr_right fun _ => not_congr ?_
    exact stepAt_stalls_iff reached.2 (parseTCPOptions_stalls i)
  · rw [safe_iff parseTCPTimestamp_forward]
    refine forall₂_congr fun i reached => and_congr_right fun _ => not_congr ?_
    exact stepAt_stalls_iff reached.2 (parseTCPTimestamp_stalls i)

theorem options_unsafe : (¬parseTCPOptions.Safe (fun i => [5, 0].getD i 0) 2 ∧
        ¬parseTCPTimestamp.Safe (fun i => [5, 0].getD i 0) 2) ∧
      ¬parseTCPOptions.Safe (fun _ => 2) 1 ∧ ¬parseTCPTimestamp.Safe (fun _ => 2) 1 := by
  have stalls {r : OptionReader} (next : r.next 5 0 0 = some 0) :
      ¬r.Safe (fun i => [5, 0].getD i 0) 2 := by
    rintro ⟨⟨fuel, ends⟩, -⟩
    refine ends (walkAt_stalls ⟨by decide, ?_⟩ fuel)
    simp [stepAt, next]
  have outside (r : OptionReader) : ¬r.Safe (fun _ => 2) 1 := by
    rintro ⟨-, within⟩
    have read := within 1 _ (walkAt_first (by decide))
    simp [extentAt] at read
  exact ⟨⟨stalls rfl, stalls rfl⟩, outside _, outside _⟩

end Mcc.FrameBounds.OptionReader
