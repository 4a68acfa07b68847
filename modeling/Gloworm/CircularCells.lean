import Mathlib

/-! Cells read in circular order. A window of cells starts anywhere below the bound and
goes on at zero when it reaches the bound; contiguous stores extend it at its end. -/
namespace Gloworm.CircularCells
open Function List
variable {α : Type*}

def wrap (bound j : ℤ) : ℤ := if j < bound then j else j - bound

def cells (buf : ℤ → α) (bound start : ℤ) (n : ℕ) : List α :=
  (List.range n).map fun i : ℕ => buf (wrap bound (start + i))

def load (buf : ℤ → α) (start : ℤ) (n : ℕ) : List α :=
  (List.range n).map fun i : ℕ => buf (start + i)

def store (buf : ℤ → α) (start : ℤ) (data : List α) : ℤ → α := fun p =>
  if start ≤ p then data.getD (p - start).toNat (buf p) else buf p

variable {buf : ℤ → α} {bound start : ℤ} {n : ℕ} {j : ℤ}

lemma wrap_of_lt (h : j < bound) : wrap bound j = j := if_pos h

lemma wrap_of_le (h : bound ≤ j) : wrap bound j = j - bound := if_neg (not_lt.mpr h)

lemma wrap_nonneg (h : 0 ≤ j) : 0 ≤ wrap bound j := by
  unfold wrap
  split_ifs <;> omega

lemma wrap_lt (h : j < bound + bound) : wrap bound j < bound := by
  unfold wrap
  split_ifs <;> omega

lemma wrap_wrap {k : ℤ} (hk : 0 ≤ k) (h : j + k < bound + bound) :
    wrap bound (wrap bound j + k) = wrap bound (j + k) := by
  unfold wrap
  split_ifs <;> omega

@[simp] lemma length_cells : (cells buf bound start n).length = n := by
  simp [cells]

@[simp] lemma length_load : (load buf start n).length = n := by
  simp [load]

@[simp] lemma cells_zero : cells buf bound start 0 = [] := rfl

lemma cells_congr {buf' : ℤ → α}
    (h : ∀ i : ℕ, i < n → buf' (wrap bound (start + i)) = buf (wrap bound (start + i))) :
    cells buf' bound start n = cells buf bound start n := by
  apply map_congr_left
  intro i hi
  exact h i (mem_range.mp hi)

lemma cells_append (m : ℕ) (hstart : start < bound) (hfit : (m + n : ℤ) ≤ bound) :
    cells buf bound start (m + n) =
      cells buf bound start m ++ cells buf bound (wrap bound (start + m)) n := by
  rw [cells, range_add, map_append, List.map_map]
  congr 1
  apply map_congr_left
  intro i hi
  have hi' := mem_range.mp hi
  simp only [Function.comp_apply, Nat.cast_add]
  rw [wrap_wrap (by omega) (by omega), add_assoc]

lemma cells_eq_load (h : start + n ≤ bound) : cells buf bound start n = load buf start n := by
  apply map_congr_left
  intro i hi
  have := mem_range.mp hi
  rw [wrap_of_lt (by omega)]

lemma store_of_lt {data : List α} {p : ℤ} (h : p < start) : store buf start data p = buf p :=
  if_neg (not_le.mpr h)

lemma store_of_le {data : List α} {p : ℤ} (h : start + data.length ≤ p) :
    store buf start data p = buf p := by
  unfold store
  split_ifs
  · exact getD_eq_default _ _ (by omega)
  · rfl

lemma load_store (data : List α) : load (store buf start data) start data.length = data := by
  apply ext_getElem (by simp)
  intro i h1 h2
  simp [load, store, h2]

lemma load_add (m : ℕ) : load buf start (m + n) = load buf start m ++ load buf (start + m) n := by
  rw [load, range_add, map_append, List.map_map]
  congr 1
  apply map_congr_left
  intro i _
  simp only [Function.comp_apply, Nat.cast_add, add_assoc]

lemma load_store_append (buf : ℤ → α) (start : ℤ) (n : ℕ) (data : List α) :
    load (store buf (start + n) data) start (n + data.length) = load buf start n ++ data := by
  rw [load_add, load_store]
  congr 1
  apply map_congr_left
  intro i hi
  have := mem_range.mp hi
  exact store_of_lt (by omega)

lemma take_load (buf : ℤ → α) (start : ℤ) {m : ℕ} (h : m ≤ n) :
    (load buf start n).take m = load buf start m := by
  obtain ⟨k, rfl⟩ := Nat.exists_eq_add_of_le h
  rw [load_add, take_left' length_load]

lemma cells_store (buf : ℤ → α) (n : ℕ) (data : List α) (hstart : start < bound)
    (hfit : (n + data.length : ℤ) ≤ bound) (hflat : wrap bound (start + n) + data.length ≤ bound) :
    cells (store buf (wrap bound (start + n)) data) bound start (n + data.length) =
      cells buf bound start n ++ data := by
  rw [cells_append n hstart hfit, cells_eq_load hflat, load_store]
  congr 1
  apply cells_congr
  intro i hi
  have hlt : i < n := hi
  by_cases hn : start + n < bound
  · rw [wrap_of_lt hn, wrap_of_lt (by omega)]
    exact store_of_lt (by omega)
  · rw [wrap_of_le (not_lt.mp hn)] at hflat ⊢
    by_cases hi' : start + i < bound
    · rw [wrap_of_lt hi']
      exact store_of_le (by omega)
    · rw [wrap_of_le (not_lt.mp hi')]
      exact store_of_lt (by omega)

lemma store_singleton (x : α) : store buf start [x] = update buf start x := by
  funext p
  rcases lt_trichotomy p start with h | h | h
  · rw [store_of_lt h, update_of_ne h.ne]
  · simp [store, h]
  · rw [store_of_le (by simpa using h), update_of_ne h.ne']

end Gloworm.CircularCells
