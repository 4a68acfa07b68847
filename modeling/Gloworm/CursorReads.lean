import Mathlib

/-! Reading through a cursor. One call answers an error, the end, or an item with the position for
the next call. -/
namespace Gloworm.Cursor
variable {ε α π : Type*}

inductive Reads (next : π → Except ε (Option (α × π))) : π → List α → Prop
  | done {p : π} (h : next p = .ok none) : Reads next p []
  | more {p q : π} {a : α} {rest : List α} (h : next p = .ok (some (a, q)))
      (tail : Reads next q rest) : Reads next p (a :: rest)

variable {next : π → Except ε (Option (α × π))} {p q : π} {as bs : List α}

lemma reads_of_none (h : next p = .ok none) : Reads next p as ↔ as = [] := by
  constructor
  · intro hread
    cases hread with
    | done => rfl
    | more hitem => rw [h] at hitem; simp at hitem
  · rintro rfl
    exact .done h

lemma reads_of_some {a : α} (h : next p = .ok (some (a, q))) :
    Reads next p as ↔ ∃ rest, as = a :: rest ∧ Reads next q rest := by
  constructor
  · intro hread
    cases hread with
    | done hend => rw [h] at hend; simp at hend
    | more hitem tail =>
      rw [h] at hitem
      simp only [Except.ok.injEq, Option.some.injEq, Prod.mk.injEq] at hitem
      obtain ⟨rfl, rfl⟩ := hitem
      exact ⟨_, rfl, tail⟩
  · rintro ⟨rest, rfl, tail⟩
    exact .more h tail

lemma not_reads_of_error {e : ε} (h : next p = .error e) : ¬Reads next p as := by
  intro hread
  cases hread with
  | done hend => rw [h] at hend; simp at hend
  | more hitem => rw [h] at hitem; simp at hitem

lemma Reads.unique (h : Reads next p as) (h' : Reads next p bs) : as = bs := by
  induction h generalizing bs with
  | done hend => exact ((reads_of_none hend).mp h').symm
  | more hitem _ ih =>
    obtain ⟨rest, rfl, tail⟩ := (reads_of_some hitem).mp h'
    rw [ih tail]

lemma Reads.congr (h : Reads next p as) (hsame : next q = next p) : Reads next q as := by
  cases h with
  | done hend => exact .done (hsame.trans hend)
  | more hitem tail => exact .more (hsame.trans hitem) tail

end Gloworm.Cursor
