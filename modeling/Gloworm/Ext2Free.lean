import Gloworm.Ext2AllocRuns

/-! Freeing the blocks of an ext2 file system: one block, and all blocks of a file. -/
namespace Gloworm.Ext2Alloc
open Function Word Bitmap

def Fs.blockBit (fs : Fs) (group bit : ℕ) : Bool :=
  bitAt (fs.disk (fs.groups group).blockBitmap) bit

def Fs.inodeBit (fs : Fs) (group bit : ℕ) : Bool :=
  bitAt (fs.disk (fs.groups group).inodeBitmap) bit

def bitFree (fs : Fs) (bitmapBlocknum bitnum : ℕ) : Option Fs :=
  if bitnum / 8 < fs.blockSize then
    some { fs with
      disk := update fs.disk bitmapBlocknum (clearBit (fs.disk bitmapBlocknum) bitnum) }
  else none

/-- The bit comes from `align_down`, which drops the place in the group. -/
def ext2FreeBlock (fs : Fs) (blocknum : ℕ) : Option Fs :=
  let group := blocknum / fs.blocksPerGroup
  (bitFree fs (fs.groups group).blockBitmap (alignDown blocknum fs.blocksPerGroup)).map fun fs =>
    { fs with
      totalUnallocBlocks := add32 fs.totalUnallocBlocks 1
      groups := update fs.groups group { fs.groups group with
        freeBlockCount := ((fs.groups group).freeBlockCount + 1) % 2 ^ 16 } }

/-- The groups cover the blocks, each with two bitmap blocks of its own. -/
structure Geometry (fs : Fs) : Prop where
  power : ∃ k, fs.blocksPerGroup = 2 ^ k
  fits : fs.blocksPerGroup ≤ fs.blockSize * 8
  cover : fs.totalBlocks ≤ fs.numGroups * fs.blocksPerGroup
  distinct : ∀ g < fs.numGroups, ∀ h < fs.numGroups,
    (fs.groups g).blockBitmap = (fs.groups h).blockBitmap → g = h
  apart : ∀ g < fs.numGroups, ∀ h < fs.numGroups,
    (fs.groups g).inodeBitmap ≠ (fs.groups h).blockBitmap

structure Restored (fs fs' : Fs) : Prop where
  blockBit : ∀ g < fs.numGroups, ∀ i < fs.blockSize * 8, fs'.blockBit g i = fs.blockBit g i
  inodeBit : ∀ g < fs.numGroups, ∀ i < fs.blockSize * 8, fs'.inodeBit g i = fs.inodeBit g i
  count : ∀ g < fs.numGroups, (fs'.groups g).freeBlockCount = (fs.groups g).freeBlockCount
  total : fs'.totalUnallocBlocks = fs.totalUnallocBlocks

section
variable {fs : Fs} {b : ℕ} (hgeo : Geometry fs)
include hgeo

lemma Geometry.group_lt (hb : b < fs.totalBlocks) : b / fs.blocksPerGroup < fs.numGroups := by
  apply Nat.div_lt_of_lt_mul
  rw [mul_comm]
  exact lt_of_lt_of_le hb hgeo.cover

lemma Geometry.blocksPerGroup_pos : 0 < fs.blocksPerGroup := by
  obtain ⟨k, hk⟩ := hgeo.power
  rw [hk]
  positivity

lemma Geometry.alignDown_eq (b : ℕ) :
    alignDown b fs.blocksPerGroup = fs.blocksPerGroup * (b / fs.blocksPerGroup) := by
  obtain ⟨k, hk⟩ := hgeo.power
  have hsplit := Nat.div_add_mod b fs.blocksPerGroup
  rw [hk] at hsplit ⊢
  rw [alignDown_two_pow]
  omega

lemma Geometry.eq_zero_of_alignDown {t : ℕ} (hgroup : t / fs.blocksPerGroup = b / fs.blocksPerGroup)
    (hbit : t % fs.blocksPerGroup = alignDown b fs.blocksPerGroup) : t = 0 := by
  rw [hgeo.alignDown_eq, ← hgroup] at hbit
  have hlt := Nat.mod_lt t hgeo.blocksPerGroup_pos
  have hsplit := Nat.div_add_mod t fs.blocksPerGroup
  have hzero : t / fs.blocksPerGroup = 0 := by
    by_contra hne
    have := Nat.le_mul_of_pos_right fs.blocksPerGroup (Nat.pos_of_ne_zero hne)
    omega
  rw [hzero, mul_zero] at hbit hsplit
  omega
end
section Free
variable {fs fs' : Fs} {b : ℕ}

lemma ext2FreeBlock_eq_some_iff :
    ext2FreeBlock fs b = some fs' ↔ alignDown b fs.blocksPerGroup / 8 < fs.blockSize ∧
      fs' = { fs with
        totalUnallocBlocks := add32 fs.totalUnallocBlocks 1
        groups := update fs.groups (b / fs.blocksPerGroup)
          { fs.groups (b / fs.blocksPerGroup) with
            freeBlockCount := ((fs.groups (b / fs.blocksPerGroup)).freeBlockCount + 1) % 2 ^ 16 }
        disk := update fs.disk (fs.groups (b / fs.blocksPerGroup)).blockBitmap
          (clearBit (fs.disk (fs.groups (b / fs.blocksPerGroup)).blockBitmap)
            (alignDown b fs.blocksPerGroup)) } := by
  rw [ext2FreeBlock, bitFree]
  split_ifs with hin
  · simp [hin, eq_comm]
  · simp [hin]

lemma blockBitmap_of_free (h : ext2FreeBlock fs b = some fs') (g : ℕ) :
    (fs'.groups g).blockBitmap = (fs.groups g).blockBitmap ∧
      (fs'.groups g).inodeBitmap = (fs.groups g).inodeBitmap := by
  obtain ⟨_, rfl⟩ := ext2FreeBlock_eq_some_iff.mp h
  by_cases hg : g = b / fs.blocksPerGroup
  · subst hg
    simp
  · simp [update_of_ne hg]

section
variable {g : ℕ} (hgeo : Geometry fs) (hb : b < fs.totalBlocks) (h : ext2FreeBlock fs b = some fs')
  (hg : g < fs.numGroups) (i : ℕ)
include hgeo hb h hg

lemma blockBit_of_free : fs'.blockBit g i = (fs.blockBit g i &&
      !decide (g = b / fs.blocksPerGroup ∧ i = alignDown b fs.blocksPerGroup)) := by
  rw [Fs.blockBit, (blockBitmap_of_free h g).1]
  obtain ⟨_, rfl⟩ := ext2FreeBlock_eq_some_iff.mp h
  by_cases hgroup : g = b / fs.blocksPerGroup
  · subst hgroup
    simp [bitAt_clearBit, Fs.blockBit]
  · have hne : (fs.groups g).blockBitmap ≠ (fs.groups (b / fs.blocksPerGroup)).blockBitmap :=
      fun heq => hgroup (hgeo.distinct g hg _ (hgeo.group_lt hb) heq)
    simp [update_of_ne hne, hgroup, Fs.blockBit]

end

lemma Geometry.of_free (hgeo : Geometry fs) (h : ext2FreeBlock fs b = some fs') :
    Geometry fs' ∧ fs'.numGroups = fs.numGroups ∧ fs'.blocksPerGroup = fs.blocksPerGroup ∧
      fs'.blockSize = fs.blockSize ∧ fs'.totalBlocks = fs.totalBlocks := by
  have hmaps := blockBitmap_of_free h
  obtain ⟨_, rfl⟩ := ext2FreeBlock_eq_some_iff.mp h
  refine ⟨⟨hgeo.power, hgeo.fits, hgeo.cover, ?_, ?_⟩, rfl, rfl, rfl, rfl⟩
  · intro g hg h' hh heq
    rw [(hmaps g).1, (hmaps h').1] at heq
    exact hgeo.distinct g hg h' hh heq
  · intro g hg h' hh
    rw [(hmaps g).2, (hmaps h').1]
    exact hgeo.apart g hg h' hh

lemma own_bit_of_free (hgeo : Geometry fs) (hb : b < fs.totalBlocks)
    (h : ext2FreeBlock fs b = some fs') {t : ℕ} (ht : t < fs.totalBlocks) (hne : t ≠ 0) :
    fs'.blockBit (t / fs.blocksPerGroup) (t % fs.blocksPerGroup) =
      fs.blockBit (t / fs.blocksPerGroup) (t % fs.blocksPerGroup) := by
  rw [blockBit_of_free hgeo hb h (hgeo.group_lt ht)]
  have hno : ¬(t / fs.blocksPerGroup = b / fs.blocksPerGroup ∧
      t % fs.blocksPerGroup = alignDown b fs.blocksPerGroup) :=
    fun hboth => hne (hgeo.eq_zero_of_alignDown hboth.1 hboth.2)
  simp [hno]
end Free

variable {fs fs' : Fs} {x : ℕ}

lemma groups_of_alloc (fs : Fs) (group g : ℕ) : ((update fs.groups group { fs.groups group with
      freeBlockCount := (fs.groups group).freeBlockCount - 1 }) g).blockBitmap =
        (fs.groups g).blockBitmap ∧
    ((update fs.groups group { fs.groups group with
      freeBlockCount := (fs.groups group).freeBlockCount - 1 }) g).inodeBitmap =
        (fs.groups g).inodeBitmap := by
  by_cases hg : g = group
  · subst hg
    simp
  · simp [update_of_ne hg]

lemma blockBit_of_alloc (h : ext2AllocBlock fs = (.ok x, fs')) {g i : ℕ}
    (hbefore : fs.blockBit g i = false) (hafter : fs'.blockBit g i = true) :
    ∃ group, chosenGroup fs = some group ∧
      firstClear (fs.disk (fs.groups group).blockBitmap) fs.blockSize = some i ∧
      (fs.groups g).blockBitmap = (fs.groups group).blockBitmap := by
  obtain ⟨group, bit, hchosen, hclear, -, rfl⟩ := ext2AllocBlock_ok h
  simp only [Fs.blockBit, (groups_of_alloc fs group g).1] at hbefore hafter
  by_cases hx : (fs.groups g).blockBitmap = x
  · simp [hx, bitAt] at hafter
  rw [update_of_ne hx] at hafter
  by_cases hb : (fs.groups g).blockBitmap = (fs.groups group).blockBitmap
  · rw [hb] at hbefore hafter
    rw [update_self, bitAt_setBit (by norm_num), hbefore, Bool.false_or,
      decide_eq_true_eq] at hafter
    exact ⟨group, hchosen, by rw [hclear, hafter], hb⟩
  · rw [update_of_ne hb, hbefore] at hafter
    cases hafter

def oneGroup : Fs where
  blockSize := 1024
  totalBlocks := 8192
  blocksPerGroup := 8192
  inodesPerGroup := 512
  numGroups := 1
  totalUnallocBlocks := 8092
  groups := fun _ => ⟨3, 4, 5, 8092⟩
  disk := fun b => if b = 3 then fun i => if i < 12 then 0xFF#8 else if i = 12 then 0x0F#8 else 0#8
    else fun _ => 0#8

lemma oneGroup_geometry : Geometry oneGroup where
  power := ⟨13, rfl⟩
  fits := by decide
  cover := by decide
  distinct := by
    intro g hg h hh _
    have hg1 : g < 1 := hg
    have hh1 : h < 1 := hh
    omega
  apart := by
    intro g _ h _ heq
    exact absurd (show 4 = 3 from heq) (by decide)

end Gloworm.Ext2Alloc
