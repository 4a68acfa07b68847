import Mathlib

/-! Trees of tables that are kept in numbered blocks. A root or a cell of a table holds the number
of a block, and 0 where there is none. -/
namespace Gloworm.TableForest
open Function List
variable {R : Type}

structure Forest (R : Type) where
  root : R → ℕ
  cell : ℕ → ℕ → ℕ

structure Shape (R : Type) where
  depth : R → ℕ
  width : ℕ

def follow (cell : ℕ → ℕ → ℕ) : ℕ → List ℕ → ℕ
  | block, [] => block
  | block, j :: path => if block = 0 then 0 else follow cell (cell block j) path

def Forest.block (t : Forest R) (r : R) (path : List ℕ) : ℕ := follow t.cell (t.root r) path

def Shape.Valid (shape : Shape R) (r : R) (path : List ℕ) : Prop :=
  path.length ≤ shape.depth r ∧ ∀ j ∈ path, j < shape.width

def Shape.Inner (shape : Shape R) (r : R) (path : List ℕ) : Prop :=
  shape.Valid r path ∧ path.length < shape.depth r

def Exclusive (shape : Shape R) (t : Forest R) : Prop :=
  ∀ r p r' p', shape.Valid r p → shape.Valid r' p' → t.block r p = t.block r' p' →
    t.block r p ≠ 0 → r = r' ∧ p = p'

def Fresh (shape : Shape R) (t : Forest R) (b : ℕ) : Prop :=
  b ≠ 0 ∧ ∀ r p, shape.Valid r p → t.block r p ≠ b

def Forest.setCell (t : Forest R) (block j b : ℕ) : Forest R :=
  { t with cell := update t.cell block (update (t.cell block) j b) }

section Paths
variable {shape : Shape R} {t t' : Forest R} {r : R} {p q : List ℕ} {j : ℕ}

@[simp] lemma block_nil : t.block r [] = t.root r := rfl

lemma follow_snoc (cell : ℕ → ℕ → ℕ) (block : ℕ) (p : List ℕ) (j : ℕ) :
    follow cell block (p ++ [j]) =
      if follow cell block p = 0 then 0 else cell (follow cell block p) j := by
  induction p generalizing block with
  | nil => rfl
  | cons i p ih =>
    rw [cons_append, follow, follow, ih]
    by_cases hblock : block = 0
    · simp [hblock]
    · simp [hblock]

lemma block_snoc : t.block r (p ++ [j]) = if t.block r p = 0 then 0 else t.cell (t.block r p) j :=
  follow_snoc t.cell (t.root r) p j

lemma block_append_of_zero (h : t.block r p = 0) (q : List ℕ) : t.block r (p ++ q) = 0 := by
  induction q using List.reverseRecOn with
  | nil => simpa using h
  | append_singleton q j ih => rw [← append_assoc, block_snoc, if_pos ih]

lemma Shape.Valid.of_append (h : shape.Valid r (p ++ q)) : shape.Valid r p := by
  obtain ⟨hlength, hwidth⟩ := h
  rw [length_append] at hlength
  exact ⟨by omega, fun i hi => hwidth i (mem_append_left _ hi)⟩

lemma Shape.Valid.of_snoc (h : shape.Valid r (p ++ [j])) : shape.Valid r p := h.of_append

lemma Shape.Valid.inner_of_snoc (h : shape.Valid r (p ++ [j])) : shape.Inner r p := by
  refine ⟨h.of_snoc, ?_⟩
  have hlength := h.1
  rw [length_append, length_singleton] at hlength
  omega

lemma Shape.Valid.dropLast (h : shape.Valid r p) : shape.Valid r p.dropLast := by
  refine ⟨?_, fun j hj => h.2 j (mem_of_mem_dropLast hj)⟩
  have hlength := h.1
  rw [length_dropLast]
  omega

lemma Shape.Valid.last_lt (h : shape.Valid r (p ++ [j])) : j < shape.width := h.2 j (by simp)

lemma block_congr (hroot : ∀ r, t'.root r = t.root r)
    (hcell : ∀ r p, shape.Inner r p → t.block r p ≠ 0 → ∀ j < shape.width,
      t'.cell (t.block r p) j = t.cell (t.block r p) j)
    (hp : shape.Valid r p) : t'.block r p = t.block r p := by
  induction p using List.reverseRecOn with
  | nil => exact hroot r
  | append_singleton p j ih =>
    rw [block_snoc, block_snoc, ih hp.of_snoc]
    by_cases hzero : t.block r p = 0
    · simp [hzero]
    · simp only [hzero, if_false]
      exact hcell r p hp.inner_of_snoc hzero j hp.last_lt
end Paths
section Updates
variable [DecidableEq R] {shape : Shape R} {t t' : Forest R} {r r' : R} {p q : List ℕ} {j b : ℕ}

def Forest.setRoot (t : Forest R) (r : R) (b : ℕ) : Forest R :=
  { t with root := update t.root r b }

lemma block_setRoot (hempty : t.root r = 0) (hzero : ∀ j < shape.width, t.cell b j = 0)
    (hq : shape.Valid r' q) :
    (t.setRoot r b).block r' q = if r' = r ∧ q = [] then b else t.block r' q := by
  induction q using List.reverseRecOn with
  | nil =>
    simp [Forest.setRoot, update_apply]
  | append_singleton q j ih =>
    rw [block_snoc, block_snoc, ih hq.of_snoc]
    by_cases hroot : r' = r ∧ q = []
    · obtain ⟨rfl, rfl⟩ := hroot
      simp [hempty, Forest.setRoot, hzero j hq.last_lt]
    · simp [hroot, Forest.setRoot]

lemma block_setCell (hexclusive : Exclusive shape t) (hb : Fresh shape t b)
    (hzero : ∀ j < shape.width, t.cell b j = 0) (hp : shape.Valid r (p ++ [j]))
    (htable : t.block r p ≠ 0) (hempty : t.block r (p ++ [j]) = 0) (hq : shape.Valid r' q) :
    (t.setCell (t.block r p) j b).block r' q =
      if r' = r ∧ q = p ++ [j] then b else t.block r' q := by
  induction q using List.reverseRecOn with
  | nil => simp [Forest.setCell]
  | append_singleton q k ih =>
    rw [block_snoc, block_snoc, ih hq.of_snoc]
    by_cases hnew : r' = r ∧ q = p ++ [j]
    · obtain ⟨rfl, rfl⟩ := hnew
      have hne : b ≠ t.block r' p := (hb.2 r' p hp.of_snoc).symm
      simp [hempty, Forest.setCell, update_of_ne hne, hzero k hq.last_lt]
    · rw [if_neg hnew]
      by_cases hreached : t.block r' q = 0
      · have hne : ¬(r' = r ∧ q ++ [k] = p ++ [j]) := by
          rintro ⟨rfl, heq⟩
          obtain ⟨rfl, -⟩ := append_singleton_inj.mp heq
          exact htable hreached
        rw [if_pos hreached, if_neg hne, if_pos hreached]
      · rw [if_neg hreached, if_neg hreached]
        by_cases hsame : t.block r' q = t.block r p
        · obtain ⟨rfl, rfl⟩ := hexclusive r' q r p hq.of_snoc hp.of_snoc hsame hreached
          by_cases hk : k = j
          · subst hk
            simp [Forest.setCell]
          · simp [Forest.setCell, hk]
        · have hne : ¬(r' = r ∧ q ++ [k] = p ++ [j]) := by
            rintro ⟨rfl, heq⟩
            obtain ⟨rfl, -⟩ := append_singleton_inj.mp heq
            exact hsame rfl
          rw [if_neg hne]
          exact congrFun (update_of_ne hsame _ _) k

lemma Exclusive.grow (hexclusive : Exclusive shape t) (hb : Fresh shape t b)
    (hgrown : ∀ r' q, shape.Valid r' q →
      t'.block r' q = if r' = r ∧ q = p then b else t.block r' q) : Exclusive shape t' := by
  intro r₁ p₁ r₂ p₂ h₁ h₂ heq hne
  rw [hgrown r₁ p₁ h₁] at heq hne
  rw [hgrown r₂ p₂ h₂] at heq
  split_ifs at heq hne with hnew₁ hnew₂ hnew₂
  · exact ⟨hnew₁.1.trans hnew₂.1.symm, hnew₁.2.trans hnew₂.2.symm⟩
  · exact absurd heq.symm (hb.2 r₂ p₂ h₂)
  · exact absurd heq (hb.2 r₁ p₁ h₁)
  · exact hexclusive r₁ p₁ r₂ p₂ h₁ h₂ heq hne
end Updates
end Gloworm.TableForest
