import Mathlib

/-! The path from an ext2 inode through its block tables to a block of the file. -/
namespace Gloworm.Ext2Path

/-- `none` is the answer -1. The third level is computed as the source has it. -/
def blockCalculateTier (znum logBlocknums : ℕ) : Option (List ℕ) :=
  let blocknums := 1 <<< logBlocknums
  if znum < 12 then some [znum]
  else
    let znum := znum - 12
    if znum < blocknums then some [12, znum]
    else
      let znum := znum - blocknums
      if znum < blocknums * blocknums then
        some [13, znum >>> logBlocknums, znum &&& (blocknums - 1)]
      else
        let znum := znum - blocknums <<< 2
        if znum < blocknums * blocknums then
          some [14, znum >>> (logBlocknums <<< 2), znum >>> logBlocknums, znum &&& (blocknums - 1)]
        else none

def fileBlock (n : ℕ) : List ℕ → Option ℕ
  | [i] => if i < 12 then some i else none
  | [12, a] => some (12 + a)
  | [13, a, b] => some (12 + n + (a * n + b))
  | [14, a, b, c] => some (12 + n + n ^ 2 + (a * n ^ 2 + b * n + c))
  | _ => none

def capacity (n : ℕ) : ℕ := 12 + n + n ^ 2 + n ^ 3

lemma le_capacity (n : ℕ) : 12 ≤ capacity n := by
  unfold capacity
  omega

def InRange (n : ℕ) (path : List ℕ) : Prop :=
  1 ≤ path.length ∧ path.length ≤ 4 ∧ path.headD 0 ≤ 14 ∧ ∀ i ∈ path.tail, i < n

structure Addressed (logBlocknums znum : ℕ) : Prop where
  path : znum < capacity (2 ^ logBlocknums) → ∃ path,
    blockCalculateTier znum logBlocknums = some path ∧ InRange (2 ^ logBlocknums) path ∧
      fileBlock (2 ^ logBlocknums) path = some znum
  beyond : capacity (2 ^ logBlocknums) ≤ znum → blockCalculateTier znum logBlocknums = none

section Tiers
variable {l znum : ℕ}

lemma tier_direct (h : znum < 12) : blockCalculateTier znum l = some [znum] := by
  simp [blockCalculateTier, h]

lemma tier_single (h : znum < 2 ^ l) : blockCalculateTier (12 + znum) l = some [12, znum] := by
  simp [blockCalculateTier, Nat.shiftLeft_eq, h]

lemma tier_double (h : znum < 2 ^ l * 2 ^ l) :
    blockCalculateTier (12 + 2 ^ l + znum) l = some [13, znum / 2 ^ l, znum % 2 ^ l] := by
  simp [blockCalculateTier, Nat.shiftLeft_eq, Nat.shiftRight_eq_div_pow, add_assoc, h]

lemma tier_triple (h : 2 ^ l * 2 ^ l ≤ znum) : blockCalculateTier (12 + 2 ^ l + znum) l =
      if znum - 2 ^ l * 4 < 2 ^ l * 2 ^ l then
        some [14, (znum - 2 ^ l * 4) / 2 ^ (l * 4), (znum - 2 ^ l * 4) / 2 ^ l,
          (znum - 2 ^ l * 4) % 2 ^ l]
      else none := by
  simp [blockCalculateTier, Nat.shiftLeft_eq, Nat.shiftRight_eq_div_pow, add_assoc, h.not_gt]
end Tiers

variable {l : ℕ}

lemma addressed_direct {znum : ℕ} (h : znum < 12) : Addressed l znum where
  path := by
    intro _
    refine ⟨[znum], tier_direct h, ⟨by simp, by simp, ?_, by simp⟩, by simp [fileBlock, h]⟩
    simp
    omega
  beyond := by
    intro hle
    have hcap := le_capacity (2 ^ l)
    omega

variable {z : ℕ}

lemma addressed_single (h : z < 2 ^ l) : Addressed l (12 + z) where
  path := fun _ => ⟨[12, z], tier_single h, ⟨by simp, by simp, by simp, by simpa using h⟩,
    by simp [fileBlock]⟩
  beyond := by
    intro hle
    unfold capacity at hle
    omega

lemma addressed_double (h : z < 2 ^ l * 2 ^ l) : Addressed l (12 + 2 ^ l + z) where
  path := by
    intro _
    have hlow : z % 2 ^ l < 2 ^ l := Nat.mod_lt _ (by positivity)
    have hhigh : z / 2 ^ l < 2 ^ l := Nat.div_lt_of_lt_mul h
    refine ⟨[13, z / 2 ^ l, z % 2 ^ l], tier_double h, ⟨by simp, by simp, by simp, ?_⟩, ?_⟩
    · simp [hlow, hhigh]
    · simp [fileBlock, Nat.div_add_mod']
  beyond := by
    intro hle
    unfold capacity at hle
    rw [pow_two] at hle
    omega

lemma four_mul_lt_sq {n : ℕ} (hn : 2 ^ 8 ≤ n) : n * 4 < n * n :=
  Nat.mul_lt_mul_of_pos_left (by omega) (by omega)

lemma addressed_beyond (hl : 8 ≤ l) (h : capacity (2 ^ l) ≤ 12 + 2 ^ l + z) :
    Addressed l (12 + 2 ^ l + z) where
  path := by
    intro hlt
    omega
  beyond := by
    intro _
    have hfour := four_mul_lt_sq (Nat.pow_le_pow_right (by norm_num) hl : 2 ^ 8 ≤ 2 ^ l)
    have hcube : 2 ^ l * 2 ^ l ≤ (2 ^ l) ^ 3 := by
      rw [← pow_two]
      exact Nat.pow_le_pow_right (by positivity) (by norm_num)
    have hz : (2 ^ l) ^ 2 + (2 ^ l) ^ 3 ≤ z := by
      unfold capacity at h
      omega
    rw [pow_two] at hz
    rw [tier_triple (by omega), if_neg (by omega)]

lemma not_addressed_triple (hl : 8 ≤ l) (hz : 2 ^ l * 2 ^ l ≤ z)
    (hlt : 12 + 2 ^ l + z < capacity (2 ^ l)) : ¬Addressed l (12 + 2 ^ l + z) := by
  intro haddr
  have hfour := four_mul_lt_sq (Nat.pow_le_pow_right (by norm_num) hl : 2 ^ 8 ≤ 2 ^ l)
  obtain ⟨path, hpath, _, hblock⟩ := haddr.path hlt
  rw [tier_triple hz] at hpath
  split_ifs at hpath with hlow
  injection hpath with hpath
  subst hpath
  have hquad : (z - 2 ^ l * 4) / 2 ^ (l * 4) = 0 := by
    apply Nat.div_eq_of_lt
    calc z - 2 ^ l * 4 < 2 ^ l * 2 ^ l := hlow
      _ = 2 ^ (l + l) := (pow_add 2 l l).symm
      _ ≤ 2 ^ (l * 4) := Nat.pow_le_pow_right (by norm_num) (by omega)
  have hsplit := Nat.div_add_mod' (z - 2 ^ l * 4) (2 ^ l)
  simp only [fileBlock, hquad, Option.some.injEq] at hblock
  rw [pow_two] at hblock
  omega

/-- A path leads back to its block exactly below the third level and beyond the capacity. -/
theorem blockCalculateTier_addressed_iff {l : ℕ} (hl : 8 ≤ l ∧ l ≤ 10) (znum : ℕ) :
    Addressed l znum ↔ znum < 12 + 2 ^ l + (2 ^ l) ^ 2 ∨ capacity (2 ^ l) ≤ znum := by
  rw [pow_two]
  rcases Nat.lt_or_ge znum 12 with hdirect | hdirect
  · exact iff_of_true (addressed_direct hdirect)
      (.inl (by rw [add_assoc]; exact Nat.lt_add_right _ hdirect))
  obtain ⟨z, rfl⟩ := Nat.exists_eq_add_of_le hdirect
  rcases Nat.lt_or_ge z (2 ^ l) with hsingle | hsingle
  · exact iff_of_true (addressed_single hsingle) (.inl (by omega))
  obtain ⟨z, rfl⟩ := Nat.exists_eq_add_of_le hsingle
  rw [← add_assoc]
  rcases Nat.lt_or_ge z (2 ^ l * 2 ^ l) with hdouble | hdouble
  · exact iff_of_true (addressed_double hdouble) (.inl (by omega))
  rcases Nat.lt_or_ge (12 + 2 ^ l + z) (capacity (2 ^ l)) with hcap | hcap
  · exact iff_of_false (not_addressed_triple hl.1 hdouble hcap) (by omega)
  · exact iff_of_true (addressed_beyond hl.1 hcap) (.inr hcap)

theorem double_table_addressed :
    (8 ≤ 8 ∧ 8 ≤ 10) ∧ (Addressed 8 300 ↔ 300 < 12 + 2 ^ 8 + (2 ^ 8) ^ 2 ∨ capacity (2 ^ 8) ≤ 300) :=
  ⟨by decide, blockCalculateTier_addressed_iff (by decide) 300⟩

theorem first_triple_misplaced :
    blockCalculateTier 65804 8 = some [14, 0, 252, 0] ∧ fileBlock 256 [14, 0, 252, 0] = some 130316 ∧
      65804 = 12 + 2 ^ 8 + (2 ^ 8) ^ 2 ∧ ¬Addressed 8 65804 := by
  have hpath : blockCalculateTier 65804 8 = some [14, 0, 252, 0] := by decide +kernel
  refine ⟨hpath, by decide +kernel, by norm_num, ?_⟩
  intro haddr
  obtain ⟨path, heq, _, hblock⟩ := haddr.path (by unfold capacity; norm_num)
  rw [hpath, Option.some.injEq] at heq
  subst heq
  revert hblock
  decide +kernel

end Gloworm.Ext2Path
