import Mathlib

/-!
Two runs of one computation in lockstep, from states that differ only in what a mask hides. A
computation that does not depend on what is hidden fails in both runs alike or leads to states that
again differ only there.
-/

namespace Lockstep

variable {ε σ α β γ δ ι : Type} {mask : σ → σ}

inductive Both (related : α → β → Prop) : Except ε α → Except ε β → Prop where
  | ok {a : α} {b : β} (results : related a b) : Both related (.ok a) (.ok b)
  | error (fault : ε) : Both related (.error fault) (.error fault)

namespace Both

theorem bind {related : α → β → Prop} {after : γ → δ → Prop} {x : Except ε α} {y : Except ε β}
    {f : α → Except ε γ} {g : β → Except ε δ} (first : Both related x y)
    (next : ∀ a b, related a b → Both after (f a) (g b)) : Both after (x >>= f) (y >>= g) := by
  cases first with
  | ok results => exact next _ _ results
  | error fault => exact .error fault

theorem imp {related wider : α → β → Prop} {x : Except ε α} {y : Except ε β}
    (both : Both related x y) (imp : ∀ a b, x = .ok a → y = .ok b → related a b → wider a b) :
    Both wider x y := by
  cases both with
  | ok results => exact .ok (imp _ _ rfl rfl results)
  | error fault => exact .error fault

theorem mono {related wider : α → β → Prop} {x : Except ε α} {y : Except ε β}
    (both : Both related x y) (imp : ∀ a b, related a b → wider a b) : Both wider x y :=
  both.imp fun a b _ _ => imp a b

theorem symm {related : α → α → Prop} {x y : Except ε α} (both : Both related x y)
    (symmetric : ∀ a b, related a b → related b a) : Both related y x := by
  cases both with
  | ok results => exact .ok (symmetric _ _ results)
  | error fault => exact .error fault

theorem trans {related : α → α → Prop} {x y z : Except ε α} (first : Both related x y)
    (second : Both related y z) (transitive : ∀ a b c, related a b → related b c → related a c) :
    Both related x z := by
  cases first with
  | ok results =>
    cases second with
    | ok others => exact .ok (transitive _ _ _ results others)
  | error fault => exact second

theorem same (x : Except ε α) : Both Eq x x := by
  cases x with
  | ok value => exact .ok rfl
  | error fault => exact .error fault

theorem ite {related : α → β → Prop} {condition : Prop} [Decidable condition] {x x' : Except ε α}
    {y y' : Except ε β} (yes : Both related x y) (no : Both related x' y') :
    Both related (if condition then x else x') (if condition then y else y') := by
  split
  · exact yes
  · exact no

theorem foldlM {related : α → β → Prop} {f : α → ι → Except ε α} {g : β → ι → Except ε β}
    {inputs : List ι} {a : α} {b : β} (now : related a b)
    (step : ∀ a b, related a b → ∀ input ∈ inputs, Both related (f a input) (g b input)) :
    Both related (inputs.foldlM f a) (inputs.foldlM g b) := by
  induction inputs generalizing a b with
  | nil => exact .ok now
  | cons input rest ih =>
    rw [List.foldlM_cons, List.foldlM_cons]
    refine (step a b now input (List.mem_cons_self ..)).bind fun a b now => ?_
    exact ih now fun a b now other member => step a b now other (List.mem_cons_of_mem _ member)

end Both

def Alike (mask : σ → σ) (s t : σ) : Prop := mask s = mask t

namespace Alike

theorem refl (s : σ) : Alike mask s s := rfl

theorem symm {s t : σ} (alike : Alike mask s t) : Alike mask t s := Eq.symm alike

theorem trans {s t u : σ} (first : Alike mask s t) (second : Alike mask t u) : Alike mask s u :=
  Eq.trans first second

theorem field {f : σ → α} {s t : σ} (alike : Alike mask s t) (unmasked : ∀ s, f (mask s) = f s) :
    f s = f t :=
  (unmasked s).symm.trans ((congrArg f alike).trans (unmasked t))

theorem ite {condition : Prop} [Decidable condition] {s s' t t' : σ} (yes : Alike mask s t)
    (no : Alike mask s' t') : Alike mask (if condition then s else s') (if condition then t else t') := by
  split
  · exact yes
  · exact no

end Alike

def AlikeWith (mask : σ → σ) (x y : σ × α) : Prop := Alike mask x.1 y.1 ∧ x.2 = y.2

namespace AlikeWith

theorem symm {x y : σ × α} (alike : AlikeWith mask x y) : AlikeWith mask y x :=
  ⟨alike.1.symm, alike.2.symm⟩

theorem trans {x y z : σ × α} (first : AlikeWith mask x y) (second : AlikeWith mask y z) :
    AlikeWith mask x z :=
  ⟨first.1.trans second.1, first.2.trans second.2⟩

theorem ite {condition : Prop} [Decidable condition] {x x' y y' : σ × α} (yes : AlikeWith mask x y)
    (no : AlikeWith mask x' y') :
    AlikeWith mask (if condition then x else x') (if condition then y else y') := by
  split
  · exact yes
  · exact no

end AlikeWith

def Blind (mask : σ → σ) (f : σ → Except ε σ) : Prop :=
  ∀ s t, Alike mask s t → Both (Alike mask) (f s) (f t)

def BlindWith (mask : σ → σ) (f : σ → Except ε (σ × α)) : Prop :=
  ∀ s t, Alike mask s t → Both (AlikeWith mask) (f s) (f t)

theorem both_of_mask {f : σ → Except ε σ} {s t : σ} (alike : Alike mask s t)
    (first : Both (Alike mask) (f (mask s)) (f s)) (second : Both (Alike mask) (f (mask t)) (f t)) :
    Both (Alike mask) (f s) (f t) := by
  have back := first.symm fun _ _ => Alike.symm
  rw [show mask s = mask t from alike] at back
  exact back.trans second fun _ _ _ => Alike.trans

theorem blind_of_mask {f : σ → Except ε σ} (same : ∀ s, Both (Alike mask) (f (mask s)) (f s)) :
    Blind mask f := fun s t alike => both_of_mask alike (same s) (same t)

theorem blindWith_of_mask {f : σ → Except ε (σ × α)}
    (same : ∀ s, Both (AlikeWith mask) (f (mask s)) (f s)) : BlindWith mask f := by
  intro s t alike
  have back := (same s).symm fun _ _ => AlikeWith.symm
  rw [show mask s = mask t from alike] at back
  exact back.trans (same t) fun _ _ _ => AlikeWith.trans

theorem alike_of_mask {f : σ → σ} (same : ∀ s, Alike mask (f (mask s)) (f s)) {s t : σ}
    (alike : Alike mask s t) : Alike mask (f s) (f t) := by
  have back := (same s).symm
  rw [show mask s = mask t from alike] at back
  exact back.trans (same t)

theorem alikeWith_of_mask {f : σ → σ × α} (same : ∀ s, AlikeWith mask (f (mask s)) (f s)) {s t : σ}
    (alike : Alike mask s t) : AlikeWith mask (f s) (f t) := by
  have back := (same s).symm
  rw [show mask s = mask t from alike] at back
  exact back.trans (same t)

end Lockstep
