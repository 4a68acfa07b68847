import Gloworm.BitmapWords
import Gloworm.MachineWords
import Gloworm.TransitionRuns

/-! The bitmaps of a minix file system: `bit_alloc`, `bit_free` and `bitmap_init` over the blocks of
a device, and the allocation of zones. The buffer cache is transparent. -/
namespace Gloworm.MinixBitmap
open Function Word Bitmap Transition

abbrev Byte := BitVec 8
abbrev Disk := ℕ → ℕ → Byte

def minixV1ZoneSize : ℕ := 1024

def bitAllocZone (disk : Disk) (start zone : ℕ) : Option (ℤ × Disk) :=
  let block := (start + zone) % 2 ^ 32
  (firstClear (disk block) minixV1ZoneSize).map fun bit =>
    (toSigned ((bit + zone * minixV1ZoneSize * 8) % 2 ^ 32),
      update disk block (setBit (disk block) bit))

def bitAllocLoop (disk : Disk) (start : ℕ) : ℕ → ℕ → ℤ × Disk
  | 0, _ => (0, disk)
  | left + 1, zone => (bitAllocZone disk start zone).getD (bitAllocLoop disk start left (zone + 1))

def bitAlloc (disk : Disk) (start size : ℕ) : ℤ × Disk := bitAllocLoop disk start size 0

/-- The byte is counted from the start of the bitmap, not of the zone. -/
def bitFree (disk : Disk) (start : ℕ) (bitnum : ℤ) : Option Disk :=
  let i := bitnum / 8
  let block := (start + toUnsigned (i / minixV1ZoneSize)) % 2 ^ 32
  if 0 ≤ i ∧ i < minixV1ZoneSize then
    some (update disk block (clearBit (disk block) bitnum.toNat))
  else none

variable {n : ℕ}

section Bits
variable {disk disk' : Disk} {start size : ℕ}

def bit (disk : Disk) (start n : ℕ) : Bool :=
  bitAt (disk ((start + n / 8192) % 2 ^ 32)) (n % 8192)

def FirstClear (disk : Disk) (start size n : ℕ) : Prop :=
  n < 8192 * size ∧ bit disk start n = false ∧ ∀ m < n, bit disk start m = true

def OnlyBit (disk disk' : Disk) (start n : ℕ) (value : Bool) : Prop :=
  ∀ block i j, j < 8 → (disk' block i).getLsbD j =
    if block = start + n / 8192 ∧ i = n % 8192 / 8 ∧ j = n % 8 then value
    else (disk block i).getLsbD j

lemma bit_zone (zone : ℕ) {b : ℕ} (hb : b < 8192) :
    bit disk start (b + zone * 8192) = bitAt (disk ((start + zone) % 2 ^ 32)) b := by
  rw [bit, Nat.add_mul_div_right _ _ (by norm_num), Nat.div_eq_of_lt hb, zero_add,
    Nat.add_mul_mod_self_right, Nat.mod_eq_of_lt hb]

lemma bit_of_firstClear_none {zone : ℕ}
    (h : firstClear (disk ((start + zone) % 2 ^ 32)) minixV1ZoneSize = none) (hn : n / 8192 = zone) :
    bit disk start n = true := by
  rw [bit, hn]
  exact firstClear_none h (Nat.mod_lt n (by decide))

lemma bitAllocLoop_spec (disk : Disk) (start left zone : ℕ)
    (hset : ∀ n < 8192 * zone, bit disk start n = true) :
    (∃ n, FirstClear disk start (zone + left) n ∧ bitAllocLoop disk start left zone =
        (toSigned (n % 2 ^ 32), update disk ((start + n / 8192) % 2 ^ 32)
          (setBit (disk ((start + n / 8192) % 2 ^ 32)) (n % 8192)))) ∨
      (∀ n < 8192 * (zone + left), bit disk start n = true) ∧
        bitAllocLoop disk start left zone = (0, disk) := by
  induction left generalizing zone with
  | zero => exact .inr ⟨by simpa using hset, by rw [bitAllocLoop]⟩
  | succ left ih =>
    rw [bitAllocLoop, bitAllocZone]
    cases hfirst : firstClear (disk ((start + zone) % 2 ^ 32)) minixV1ZoneSize with
    | some b =>
      obtain ⟨hb, hclear, hlow⟩ := firstClear_some hfirst
      have hb : b < 8192 := hb
      have hzone : (b + zone * 8192) / 8192 = zone := by omega
      have hplace : (b + zone * 8192) % 8192 = b := by omega
      have hmul : zone * minixV1ZoneSize * 8 = zone * 8192 := mul_assoc zone 1024 8
      refine .inl ⟨b + zone * 8192, ⟨by omega, ?_, ?_⟩, by
        simp only [Option.map_some, Option.getD_some, hmul, hzone, hplace]⟩
      · rw [bit_zone zone hb]
        exact hclear
      · intro m hm
        rcases Nat.lt_or_ge m (8192 * zone) with hlt | hge
        · exact hset m hlt
        · have heq : m = (m - 8192 * zone) + zone * 8192 := by omega
          rw [heq, bit_zone zone (by omega)]
          exact hlow _ (by omega)
    | none =>
      have hnext : ∀ n < 8192 * (zone + 1), bit disk start n = true := by
        intro n hn
        rcases Nat.lt_or_ge n (8192 * zone) with hlt | hge
        · exact hset n hlt
        · exact bit_of_firstClear_none hfirst (by omega)
      rw [show zone + (left + 1) = zone + 1 + left by omega]
      exact ih (zone + 1) hnext

lemma bitAlloc_spec (disk : Disk) (start size : ℕ) :
    (∃ n, FirstClear disk start size n ∧ bitAlloc disk start size =
        (toSigned (n % 2 ^ 32), update disk ((start + n / 8192) % 2 ^ 32)
          (setBit (disk ((start + n / 8192) % 2 ^ 32)) (n % 8192)))) ∨
      (∀ n < 8192 * size, bit disk start n = true) ∧ bitAlloc disk start size = (0, disk) := by
  rw [bitAlloc]
  simpa only [zero_add] using bitAllocLoop_spec disk start size 0 (by simp)

lemma FirstClear.unique {m : ℕ} (hn : FirstClear disk start size n)
    (hm : FirstClear disk start size m) : n = m := by
  obtain ⟨-, hclear, hlow⟩ := hn
  obtain ⟨-, hclear', hlow'⟩ := hm
  rcases lt_trichotomy n m with hlt | heq | hgt
  · rw [hlow' n hlt] at hclear
    cases hclear
  · exact heq
  · rw [hlow m hgt] at hclear'
    cases hclear'

lemma getLsbD_setBit (data : ℕ → Byte) (n i : ℕ) {j : ℕ} (hj : j < 8) :
    (setBit data n i).getLsbD j =
      if i = n / 8 ∧ j = n % 8 then true else (data i).getLsbD j := by
  rw [setBit, update_apply]
  by_cases hi : i = n / 8
  · rw [if_pos hi, BitVec.getLsbD_or, getLsbD_bitMask n hj, hi]
    by_cases hbit : j = n % 8 <;> simp [hbit]
  · simp [hi]

lemma getLsbD_clearBit (data : ℕ → Byte) (n i : ℕ) {j : ℕ} (hj : j < 8) :
    (clearBit data n i).getLsbD j =
      if i = n / 8 ∧ j = n % 8 then false else (data i).getLsbD j := by
  rw [clearBit, update_apply]
  by_cases hi : i = n / 8
  · rw [if_pos hi, BitVec.getLsbD_and, BitVec.getLsbD_not, getLsbD_bitMask n hj, hi]
    by_cases hbit : j = n % 8 <;> simp [hbit, hj]
  · simp [hi]

variable {data : ℕ → Byte}

lemma onlyBit_update {value : Bool} (h : ∀ i j, j < 8 → (data i).getLsbD j =
      if i = n % 8192 / 8 ∧ j = n % 8192 % 8 then value
      else (disk (start + n / 8192) i).getLsbD j) :
    OnlyBit disk (update disk (start + n / 8192) data) start n value := by
  intro block i j hj
  have hbit : n % 8192 % 8 = n % 8 := by omega
  rw [update_apply]
  by_cases hblock : block = start + n / 8192
  · rw [if_pos hblock, h i j hj, hbit, hblock]
    simp
  · simp [hblock]

lemma FirstClear.block (h : FirstClear disk start size n) (hblocks : start + size ≤ 2 ^ 32) :
    (start + n / 8192) % 2 ^ 32 = start + n / 8192 := by
  have hn := h.1
  exact Nat.mod_eq_of_lt (by omega)

lemma toSigned_of_lt (h : n < 2 ^ 31) : toSigned (n % 2 ^ 32) = n := by
  rw [Nat.mod_eq_of_lt (by omega), toSigned, if_pos h]

lemma toSigned_lt (h : n < 2 ^ 32) : toSigned n < 2 ^ 31 := by
  unfold toSigned
  split_ifs <;> omega

lemma bitFree_eq (disk : Disk) (hstart : start < 2 ^ 32) : bitFree disk start n =
      if n < 8192 then some (update disk start (clearBit (disk start) n)) else none := by
  have hsize : (minixV1ZoneSize : ℤ) = 1024 := rfl
  rw [bitFree]
  by_cases hn : n < 8192
  · have hzone : toUnsigned ((n : ℤ) / 8 / minixV1ZoneSize) = 0 := by
      have hzero : (n : ℤ) / 8 / minixV1ZoneSize = 0 := by
        rw [hsize]
        omega
      rw [hzero, toUnsigned_of_mem le_rfl (by norm_num)]
      rfl
    rw [if_pos hn, if_pos (by omega), hzone, add_zero, Nat.mod_eq_of_lt hstart, Int.toNat_natCast]
  · rw [if_neg hn, if_neg (by omega)]

lemma bitFree_some {n : ℤ} (h : bitFree disk start n = some disk') (hstart : start < 2 ^ 32) :
    ∃ m : ℕ, m < 8192 ∧ n = m ∧ disk' = update disk start (clearBit (disk start) m) := by
  have hsize : (minixV1ZoneSize : ℤ) = 1024 := rfl
  have hrange : 0 ≤ n / 8 ∧ n / 8 < 1024 := by
    rw [bitFree, hsize] at h
    split_ifs at h with hrange
    exact hrange
  obtain ⟨m, rfl⟩ : ∃ m : ℕ, n = m := ⟨n.toNat, by omega⟩
  have hm : m < 8192 := by omega
  rw [bitFree_eq disk hstart, if_pos hm, Option.some.injEq] at h
  exact ⟨m, hm, rfl, h.symm⟩

lemma clearBit_setBit (h : bitAt data n = false) : clearBit (setBit data n) n = data := by
  funext i
  apply BitVec.eq_of_getLsbD_eq
  intro j hj
  rw [getLsbD_clearBit _ n i hj, getLsbD_setBit _ n i hj]
  split_ifs with hplace
  · rw [hplace.1, hplace.2]
    exact h.symm
  · rfl
end Bits

def AllocRight (disk : Disk) (start size : ℕ) : Prop :=
  (∃ n, FirstClear disk start size n ∧ n ≠ 0 ∧ (bitAlloc disk start size).1 = n ∧
      OnlyBit disk (bitAlloc disk start size).2 start n true) ∨
    (∀ n < 8192 * size, bit disk start n = true) ∧ bitAlloc disk start size = (0, disk)

def FreeRight (disk : Disk) (start n : ℕ) : Prop :=
  ∃ disk', bitFree disk start n = some disk' ∧ OnlyBit disk disk' start n false

def Restores (disk : Disk) (start size : ℕ) : Prop :=
  (∃ n < 8192 * size, bit disk start n = false) →
    bitFree (bitAlloc disk start size).2 start (bitAlloc disk start size).1 = some disk

section Claim
variable {disk : Disk} {start size : ℕ}

lemma allocRight_iff (hblocks : start + size ≤ 2 ^ 32) (hzero : bit disk start 0 = true) :
    AllocRight disk start size ↔ ∀ n, FirstClear disk start size n → n < 2 ^ 31 := by
  constructor
  · intro hright n hn
    have hanswer : (bitAlloc disk start size).1 < 2 ^ 31 := by
      rcases bitAlloc_spec disk start size with ⟨m, -, heq⟩ | ⟨-, heq⟩
      · rw [heq]
        exact toSigned_lt (Nat.mod_lt m (by norm_num))
      · rw [heq]
        norm_num
    rcases hright with ⟨m, hm, -, heq, -⟩ | ⟨hfull, -⟩
    · rw [heq, hm.unique hn] at hanswer
      exact_mod_cast hanswer
    · exact absurd (hfull n hn.1) (by simp [hn.2.1])
  · intro hsmall
    rcases bitAlloc_spec disk start size with ⟨n, hn, heq⟩ | hfull
    · have hn' := hn.2.1
      have hpositive : n ≠ 0 := by
        rintro rfl
        simp [hzero] at hn'
      refine .inl ⟨n, hn, hpositive, ?_, ?_⟩
      · rw [heq]
        exact toSigned_of_lt (hsmall n hn)
      · rw [heq, hn.block hblocks]
        exact onlyBit_update fun i j hj => getLsbD_setBit _ _ i hj
    · exact .inr hfull

lemma freeRight_iff (hstart : start < 2 ^ 32) (n : ℕ) : FreeRight disk start n ↔ n < 8192 := by
  rw [FreeRight, bitFree_eq disk hstart]
  by_cases hn : n < 8192
  · refine iff_of_true ⟨_, if_pos hn, ?_⟩ hn
    have hzone : start + n / 8192 = start := by omega
    have honly : OnlyBit disk (update disk (start + n / 8192) (clearBit (disk start) n))
        start n false := by
      apply onlyBit_update
      intro i j hj
      rw [hzone, Nat.mod_eq_of_lt hn]
      exact getLsbD_clearBit _ n i hj
    rwa [hzone] at honly
  · refine iff_of_false ?_ hn
    rintro ⟨disk', hfree, -⟩
    rw [if_neg hn] at hfree
    cases hfree

lemma restores_iff (hblocks : start + size ≤ 2 ^ 32) :
    Restores disk start size ↔ ∀ n, FirstClear disk start size n → n < 8192 := by
  constructor
  · intro hrestores n hn
    by_contra hlarge
    have hn' := hn.1
    have hfree := hrestores ⟨n, hn.1, hn.2.1⟩
    obtain ⟨m, -, -, hdisk⟩ := bitFree_some hfree (by omega)
    rcases bitAlloc_spec disk start size with ⟨k, hk, heq⟩ | ⟨hfull, -⟩
    · obtain rfl := hk.unique hn
      have hblock : start + k / 8192 ≠ start := by omega
      have hsame : disk (start + k / 8192) = setBit (disk (start + k / 8192)) (k % 8192) := by
        conv_lhs => rw [hdisk]
        rw [update_of_ne hblock, heq, hn.block hblocks]
        exact update_self ..
      have hset : bit disk start k = true := by
        rw [bit, hn.block hblocks, hsame, bitAt_setBit (by norm_num)]
        simp
      simp [hn.2.1] at hset
    · exact absurd (hfull n hn.1) (by simp [hn.2.1])
  · rintro hsmall ⟨n₀, hn₀, hclear₀⟩
    rcases bitAlloc_spec disk start size with ⟨n, hn, heq⟩ | ⟨hfull, -⟩
    · have hlt := hsmall n hn
      have hblock : (start + n / 8192) % 2 ^ 32 = start := by
        have := hn.1
        rw [hn.block hblocks]
        omega
      have hclear : bitAt (disk start) n = false := by
        have hbit := hn.2.1
        rwa [bit, hblock, Nat.mod_eq_of_lt hlt] at hbit
      rw [heq, toSigned_of_lt (by omega), hblock, Nat.mod_eq_of_lt hlt,
        bitFree_eq _ (by omega), if_pos hlt]
      dsimp only
      rw [update_self, update_idem, clearBit_setBit hclear, update_eq_self]
    · exact absurd (hfull n₀ hn₀) (by simp [hclear₀])

/-- The search is right for bit numbers that fit into an `int`, freeing only in the first zone. -/
theorem bitmap_right_iff (hblocks : start + size ≤ 2 ^ 32) (hzero : bit disk start 0 = true)
    {b : ℕ} (hb : b < 8192 * size) :
    (AllocRight disk start size ↔ ∀ n, FirstClear disk start size n → n < 2 ^ 31) ∧
      (FreeRight disk start b ↔ b < 8192) ∧
      (Restores disk start size ↔ ∀ n, FirstClear disk start size n → n < 8192) :=
  ⟨allocRight_iff hblocks hzero, freeRight_iff (by omega) b, restores_iff hblocks⟩

def usedBelow (n : ℕ) : Disk := fun block i =>
  if (block - 3) * 1024 + i < n / 8 then 0xFF#8
  else if (block - 3) * 1024 + i = n / 8 then lowMask (n % 8) else 0#8

lemma bit_usedBelow (n m : ℕ) (hm : m < 16384) : bit (usedBelow n) 3 m = decide (m < n) := by
  have hblock : (3 + m / 8192) % 2 ^ 32 = 3 + m / 8192 := Nat.mod_eq_of_lt (by omega)
  rw [bit, hblock, bitAt, usedBelow]
  have hbyte : (3 + m / 8192 - 3) * 1024 + m % 8192 / 8 = m / 8 := by omega
  rw [hbyte]
  have hbit : m % 8192 % 8 = m % 8 := by omega
  rw [hbit]
  split_ifs with hless hequal
  · rw [show (0xFF#8 : Byte) = BitVec.allOnes 8 from rfl, BitVec.getLsbD_allOnes, decide_eq_decide]
    omega
  · rw [getLsbD_lowMask, decide_eq_decide]
    omega
  · rw [BitVec.getLsbD_zero]
    exact (decide_eq_false (by omega)).symm

lemma firstClear_usedBelow (hn : n < 16384) : FirstClear (usedBelow n) 3 2 n := by
  refine ⟨by omega, by rw [bit_usedBelow n n hn]; simp, fun m hm => ?_⟩
  rw [bit_usedBelow n m (by omega)]
  simpa using hm

theorem bitmap_right_three :
    bit (usedBelow 3) 3 0 = true ∧ AllocRight (usedBelow 3) 3 2 ∧ FreeRight (usedBelow 3) 3 3 ∧
      Restores (usedBelow 3) 3 2 := by
  have hzero : bit (usedBelow 3) 3 0 = true := by
    rw [bit_usedBelow 3 0 (by norm_num)]
    rfl
  have hfirst : ∀ n, FirstClear (usedBelow 3) 3 2 n → n = 3 :=
    fun n hn => hn.unique (firstClear_usedBelow (by norm_num))
  obtain ⟨halloc, hfree, hrestores⟩ :=
    bitmap_right_iff (show 3 + 2 ≤ 2 ^ 32 by norm_num) hzero (show 3 < 8192 * 2 by norm_num)
  refine ⟨hzero, halloc.mpr fun n hn => ?_, hfree.mpr (by norm_num), hrestores.mpr fun n hn => ?_⟩
  · rw [hfirst n hn]
    norm_num
  · rw [hfirst n hn]
    norm_num

theorem second_zone_not_freed : (bitAlloc (usedBelow 8192) 3 2).1 = 8192 ∧
      bitFree (bitAlloc (usedBelow 8192) 3 2).2 3 8192 = none := by
  refine ⟨?_, bitFree_eq _ (by norm_num)⟩
  rcases bitAlloc_spec (usedBelow 8192) 3 2 with ⟨n, hn, heq⟩ | ⟨hfull, -⟩
  · obtain rfl := hn.unique (firstClear_usedBelow (by norm_num))
    rw [heq]
    exact toSigned_of_lt (by norm_num)
  · have hset := hfull 8192 (by norm_num)
    rw [bit_usedBelow 8192 8192 (by norm_num)] at hset
    simp at hset
end Claim
end Gloworm.MinixBitmap
