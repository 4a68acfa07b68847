import Mathlib

/-! Records laid end to end: the length stored at one offset leads to the next. Lengths have a
least value and a unit they are multiples of. -/
namespace Gloworm.Tiling

inductive Tiled (least unit : ℕ) (len : ℕ → ℕ) : ℕ → ℕ → Prop
  | nil (i : ℕ) : Tiled least unit len i i
  | cons {i j : ℕ} (hleast : least ≤ len i) (hunit : unit ∣ len i)
      (rest : Tiled least unit len (i + len i) j) : Tiled least unit len i j

variable {least unit : ℕ} {len len' : ℕ → ℕ} {i j k : ℕ}

lemma Tiled.le (h : Tiled least unit len i j) : i ≤ j := by
  induction h with
  | nil => exact le_rfl
  | cons _ _ _ ih => omega

lemma Tiled.trans (h : Tiled least unit len i j) (h' : Tiled least unit len j k) :
    Tiled least unit len i k := by
  induction h with
  | nil => exact h'
  | cons hleast hunit _ ih => exact .cons hleast hunit (ih h')

lemma Tiled.single (hleast : least ≤ len i) (hunit : unit ∣ len i) :
    Tiled least unit len i (i + len i) := .cons hleast hunit (.nil _)

section
variable (h : Tiled least unit len i j)
include h

lemma Tiled.snoc (hleast : least ≤ len j) (hunit : unit ∣ len j) :
    Tiled least unit len i (j + len j) := h.trans (.single hleast hunit)

lemma Tiled.congr (hsame : ∀ x, i ≤ x → x + least ≤ j → len' x = len x) :
    Tiled least unit len' i j := by
  induction h with
  | nil => exact .nil _
  | @cons i j hleast hunit rest ih =>
    have hle := rest.le
    have hi : len' i = len i := hsame i le_rfl (by omega)
    refine .cons (by omega) (by rw [hi]; exact hunit) ?_
    rw [hi]
    exact ih fun x hx hxj => hsame x (by omega) hxj

lemma Tiled.head (hlt : i < j) :
    least ≤ len i ∧ unit ∣ len i ∧ Tiled least unit len (i + len i) j := by
  cases h with
  | nil => omega
  | cons hleast hunit rest => exact ⟨hleast, hunit, rest⟩

lemma Tiled.eq_or_next : j = i ∨ Tiled least unit len (i + len i) j := by
  cases h with
  | nil => exact .inl rfl
  | cons _ _ rest => exact .inr rest
end

lemma Tiled.between (hi : Tiled least unit len k i) (hj : Tiled least unit len k j)
    (hle : i ≤ j) (hpos : 0 < least) : Tiled least unit len i j := by
  induction hi with
  | nil => exact hj
  | @cons k i hleast _ rest ih =>
    have hrest := rest.le
    obtain ⟨-, -, htail⟩ := hj.head (by omega)
    exact ih htail hle

def scan (len : ℕ → ℕ) (hit : ℕ → Bool) (stop : ℕ) : ℕ → ℕ → Option (Bool × ℕ)
  | 0, _ => none
  | fuel + 1, i =>
    if stop ≤ i then some (false, i)
    else if hit i then some (true, i)
    else scan len hit stop fuel (i + len i)

end Gloworm.Tiling
