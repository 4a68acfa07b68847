import Mathlib

/-! Cells of which one is written: what they hold, and sums and counts over a finite range. -/
namespace Gloworm.UpdatedSums
open Function
variable {M : Type*} {s : Finset ℕ} {i : ℕ}

lemma update_eq_some {α β : Type*} [DecidableEq α] {f : α → Option β} {a x : α} {b c : β} :
    update f a (some b) x = some c ↔ x = a ∧ c = b ∨ x ≠ a ∧ f x = some c := by
  by_cases hx : x = a
  · subst hx
    simp [eq_comm]
  · simp [hx]

lemma sum_update [AddCommMonoid M] (hi : i ∈ s) (f : ℕ → M) (b : M) :
    (∑ x ∈ s, update f i b x) + f i = (∑ x ∈ s, f x) + b := by
  rw [Finset.sum_update_of_mem hi, ← Finset.sum_sdiff (Finset.singleton_subset_iff.mpr hi) (f := f),
    Finset.sum_singleton]
  abel

lemma count_update [AddCommMonoid M] {α : Type*} (a : M) (P : α → Prop) [DecidablePred P]
    (hi : i ∈ s) (f : ℕ → α) (b : α) :
    (∑ x ∈ s, if P (update f i b x) then a else 0) + (if P (f i) then a else 0) =
      (∑ x ∈ s, if P (f x) then a else 0) + if P b then a else 0 := by
  have hfun : (fun x => if P (update f i b x) then a else 0) =
      update (fun x => if P (f x) then a else 0) i (if P b then a else 0) :=
    funext fun x => apply_update (fun _ y => if P y then a else 0) f i b x
  rw [hfun]
  exact sum_update hi _ _

end Gloworm.UpdatedSums
