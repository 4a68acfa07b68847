import Gloworm.ByteOrder
import Gloworm.Ext2Free

/-! Freeing all blocks of an ext2 file. The pointers of the inode are kept as they stand on the
disk, in little-endian order. -/
namespace Gloworm.Ext2Truncate
open Ext2Alloc ByteOrder List Option

def le32toh (w : ℕ) : ℕ := swap32 w

/-- The calls of `ext2_free_block`; without a buffer the function reads through the null pointer. -/
def blockFreeTable (readable : ℕ → Bool) (blocknum : ℕ) : Option (List ℕ) :=
  if blocknum = 0 then some []
  else if readable blocknum then some []
  else none

def directFrees (blocks : ℕ → ℕ) : List ℕ :=
  ((List.range 12).filter fun i => blocks i ≠ 0).map fun i => le32toh (blocks i)

def blockFreeAll (readable : ℕ → Bool) (device : Bool) (blocks : ℕ → ℕ) :
    Option (List ℕ × (ℕ → ℕ)) :=
  if device then some ([], blocks)
  else do
    let triple ← blockFreeTable readable (blocks 14)
    let double ← blockFreeTable readable (blocks 13)
    let single ← blockFreeTable readable (blocks 12)
    some (triple ++ double ++ single ++ directFrees blocks,
      fun i => if i < 15 then 0 else blocks i)

def diskPointer (fs : Fs) (table index : ℕ) : ℕ :=
  (fs.disk table (4 * index)).toNat + (fs.disk table (4 * index + 1)).toNat * 2 ^ 8 +
    (fs.disk table (4 * index + 2)).toNat * 2 ^ 16 + (fs.disk table (4 * index + 3)).toNat * 2 ^ 24

def entries (pointer : ℕ → ℕ → ℕ) (n table : ℕ) : List ℕ :=
  ((List.range n).map (pointer table)).filter fun b => b ≠ 0

def tableBlocks (pointer : ℕ → ℕ → ℕ) (n : ℕ) : ℕ → ℕ → List ℕ
  | 0, table => table :: entries pointer n table
  | levels + 1, table => table :: (entries pointer n table).flatMap (tableBlocks pointer n levels)

def indirectBlocks (pointer : ℕ → ℕ → ℕ) (n : ℕ) (blocks : ℕ → ℕ) (levels : ℕ) : List ℕ :=
  if blocks (12 + levels) = 0 then [] else tableBlocks pointer n levels (le32toh (blocks (12 + levels)))

def fileBlocks (pointer : ℕ → ℕ → ℕ) (n : ℕ) (blocks : ℕ → ℕ) : List ℕ :=
  directFrees blocks ++ (List.range 3).flatMap (indirectBlocks pointer n blocks)

def FreesEach (readable : ℕ → Bool) (pointer : ℕ → ℕ → ℕ) (n : ℕ) (blocks : ℕ → ℕ) : Prop :=
  ∃ freed blocks', blockFreeAll readable false blocks = some (freed, blocks') ∧
    freed.Perm (fileBlocks pointer n blocks) ∧ ∀ i < 15, blocks' i = 0

def ClearsBits (readable : ℕ → Bool) (fs : Fs) (n : ℕ) (blocks : ℕ → ℕ) : Prop :=
  ∃ freed blocks' fs', blockFreeAll readable false blocks = some (freed, blocks') ∧
    freed.foldlM ext2FreeBlock fs = some fs' ∧
    ∀ g < fs.numGroups, ∀ i < fs.blockSize * 8, fs'.blockBit g i = (fs.blockBit g i &&
      !decide (∃ b ∈ fileBlocks (diskPointer fs) n blocks,
        g = b / fs.blocksPerGroup ∧ i = b % fs.blocksPerGroup))

section Calls
variable {readable : ℕ → Bool} {pointer : ℕ → ℕ → ℕ} {n : ℕ} {blocks blocks' : ℕ → ℕ}
  {freed : List ℕ}

lemma blockFreeTable_nil {blocknum : ℕ} (h : blockFreeTable readable blocknum = some freed) :
    freed = [] := by
  rw [blockFreeTable] at h
  split_ifs at h
  · exact (some.inj h).symm
  · exact (some.inj h).symm

lemma blockFreeAll_some (h : blockFreeAll readable false blocks = some (freed, blocks')) :
    freed = directFrees blocks ∧ ∀ i < 15, blocks' i = 0 := by
  simp only [blockFreeAll, Bool.false_eq_true, if_false, bind_eq_bind,
    bind_eq_some_iff, some.injEq, Prod.mk.injEq] at h
  obtain ⟨triple, htriple, double, hdouble, single, hsingle, rfl, rfl⟩ := h
  rw [blockFreeTable_nil htriple, blockFreeTable_nil hdouble, blockFreeTable_nil hsingle]
  refine ⟨rfl, ?_⟩
  intro i hi
  exact if_pos hi

lemma blockFreeAll_direct (h12 : blocks 12 = 0) (h13 : blocks 13 = 0) (h14 : blocks 14 = 0) :
    blockFreeAll readable false blocks =
      some (directFrees blocks, fun i => if i < 15 then 0 else blocks i) := by
  simp [blockFreeAll, blockFreeTable, h12, h13, h14]

lemma indirectBlocks_eq_nil_iff {levels : ℕ} :
    indirectBlocks pointer n blocks levels = [] ↔ blocks (12 + levels) = 0 := by
  rw [indirectBlocks]
  split_ifs with h
  · simp [h]
  · cases levels with
    | zero => simp [tableBlocks, h]
    | succ levels => simp [tableBlocks, h]

lemma indirect_eq_nil_iff : (List.range 3).flatMap (indirectBlocks pointer n blocks) = [] ↔
      blocks 12 = 0 ∧ blocks 13 = 0 ∧ blocks 14 = 0 := by
  rw [flatMap_eq_nil_iff]
  constructor
  · intro h
    exact ⟨indirectBlocks_eq_nil_iff.mp (h 0 (by simp)), indirectBlocks_eq_nil_iff.mp (h 1 (by simp)),
      indirectBlocks_eq_nil_iff.mp (h 2 (by simp))⟩
  · rintro ⟨h12, h13, h14⟩ levels hlevels
    rw [mem_range] at hlevels
    rw [indirectBlocks_eq_nil_iff]
    interval_cases levels
    · exact h12
    · exact h13
    · exact h14

lemma freesEach_iff :
    FreesEach readable pointer n blocks ↔ blocks 12 = 0 ∧ blocks 13 = 0 ∧ blocks 14 = 0 := by
  constructor
  · rintro ⟨freed, blocks', h, hperm, -⟩
    rw [(blockFreeAll_some h).1] at hperm
    have hlength := hperm.length_eq
    rw [fileBlocks, length_append] at hlength
    have hnil : (List.range 3).flatMap (indirectBlocks pointer n blocks) = [] :=
      length_eq_zero_iff.mp (by omega)
    exact indirect_eq_nil_iff.mp hnil
  · rintro ⟨h12, h13, h14⟩
    refine ⟨_, _, blockFreeAll_direct h12 h13 h14, ?_, ?_⟩
    · rw [fileBlocks, indirect_eq_nil_iff.mpr ⟨h12, h13, h14⟩, append_nil]
    · intro i hi
      exact if_pos hi
end Calls

lemma own_bit_of_frees {fs fs' : Fs} (hgeo : Geometry fs) {freed : List ℕ}
    (hfreed : ∀ b ∈ freed, b < fs.totalBlocks) (h : freed.foldlM ext2FreeBlock fs = some fs')
    {t : ℕ} (ht : t < fs.totalBlocks) (hne : t ≠ 0) :
    fs'.blockBit (t / fs.blocksPerGroup) (t % fs.blocksPerGroup) =
      fs.blockBit (t / fs.blocksPerGroup) (t % fs.blocksPerGroup) := by
  induction freed generalizing fs with
  | nil =>
    cases h
    rfl
  | cons b freed ih =>
    simp only [foldlM_cons, bind_eq_bind, bind_eq_some_iff] at h
    obtain ⟨fs₁, hfirst, hrest⟩ := h
    obtain ⟨hgeo₁, -, hper, -, htotal⟩ := hgeo.of_free hfirst
    have hkept := own_bit_of_free hgeo (hfreed b (by simp)) hfirst ht hne
    have hlater := ih hgeo₁ (fun c hc => by rw [htotal]; exact hfreed c (by simp [hc])) hrest
      (by rw [htotal]; exact ht)
    rw [hper] at hlater
    rw [hlater, hkept]

lemma le32toh_ne_zero {w : ℕ} (hw : w < 2 ^ 32) (hne : w ≠ 0) : le32toh w ≠ 0 := by
  unfold le32toh swap32
  omega

variable {n : ℕ} {blocks : ℕ → ℕ} {pointer : ℕ → ℕ → ℕ}

lemma pointer_mem_fileBlocks {i : ℕ} (hi : i < 15) (hne : blocks i ≠ 0) :
    le32toh (blocks i) ∈ fileBlocks pointer n blocks := by
  rw [fileBlocks, mem_append]
  rcases Nat.lt_or_ge i 12 with hdirect | hindirect
  · refine .inl (List.mem_map.mpr ⟨i, ?_, rfl⟩)
    simp [hdirect, hne]
  · obtain ⟨levels, rfl⟩ := Nat.exists_eq_add_of_le hindirect
    refine .inr (mem_flatMap.mpr ⟨levels, mem_range.mpr (by omega), ?_⟩)
    rw [indirectBlocks, if_neg hne]
    cases levels with
    | zero => simp [tableBlocks]
    | succ levels => simp [tableBlocks]

lemma fileBlocks_eq_nil (hzero : ∀ i < 15, blocks i = 0) : fileBlocks pointer n blocks = [] := by
  have hdirect : directFrees blocks = [] := by
    simp only [directFrees, map_eq_nil_iff, filter_eq_nil_iff, mem_range]
    intro i hi
    simp [hzero i (by omega)]
  rw [fileBlocks, hdirect, indirect_eq_nil_iff.mpr
    ⟨hzero 12 (by norm_num), hzero 13 (by norm_num), hzero 14 (by norm_num)⟩, append_nil]

structure Allocated (fs : Fs) (n : ℕ) (blocks : ℕ → ℕ) : Prop where
  word : ∀ i < 15, blocks i < 2 ^ 32
  nodup : (fileBlocks (diskPointer fs) n blocks).Nodup
  inside : ∀ b ∈ fileBlocks (diskPointer fs) n blocks, b < fs.totalBlocks
  used : ∀ b ∈ fileBlocks (diskPointer fs) n blocks,
    fs.blockBit (b / fs.blocksPerGroup) (b % fs.blocksPerGroup) = true

lemma clearsBits_iff {readable : ℕ → Bool} {fs : Fs} (hgeo : Geometry fs)
    (hfile : Allocated fs n blocks) : ClearsBits readable fs n blocks ↔ ∀ i < 15, blocks i = 0 := by
  constructor
  · rintro ⟨freed, blocks', fs', h, hfs', hbits⟩ i hi
    by_contra hne
    have hmem : le32toh (blocks i) ∈ fileBlocks (diskPointer fs) n blocks :=
      pointer_mem_fileBlocks hi hne
    have hfreed : ∀ b ∈ freed, b < fs.totalBlocks := by
      intro b hb
      rw [(blockFreeAll_some h).1] at hb
      exact hfile.inside b (mem_append_left _ hb)
    have hkept := own_bit_of_frees hgeo hfreed hfs' (hfile.inside _ hmem)
      (le32toh_ne_zero (hfile.word i hi) hne)
    have hlt := Nat.mod_lt (le32toh (blocks i)) hgeo.blocksPerGroup_pos
    rw [hfile.used _ hmem, hbits _ (hgeo.group_lt (hfile.inside _ hmem)) _
      (lt_of_lt_of_le hlt hgeo.fits), decide_eq_true ⟨_, hmem, rfl, rfl⟩] at hkept
    simp at hkept
  · intro hzero
    have hnil : directFrees blocks = [] :=
      (append_eq_nil_iff.mp (fileBlocks_eq_nil hzero : fileBlocks (diskPointer fs) n blocks = [])).1
    have hall : blockFreeAll readable false blocks =
        some (directFrees blocks, fun i => if i < 15 then 0 else blocks i) :=
      blockFreeAll_direct (hzero 12 (by norm_num)) (hzero 13 (by norm_num)) (hzero 14 (by norm_num))
    rw [hnil] at hall
    refine ⟨[], _, fs, hall, rfl, ?_⟩
    intro g _ i _
    simp [fileBlocks_eq_nil hzero]

/-- All blocks are passed on to be freed exactly when the file has no tables, and their bits are
cleared exactly when it has no blocks. -/
theorem blockFreeAll_frees_iff {readable : ℕ → Bool} {fs : Fs} (hgeo : Geometry fs) {n : ℕ}
    {blocks : ℕ → ℕ} (hfile : Allocated fs n blocks) :
    (FreesEach readable (diskPointer fs) n blocks ↔ blocks 12 = 0 ∧ blocks 13 = 0 ∧ blocks 14 = 0) ∧
    (ClearsBits readable fs n blocks ↔ ∀ i < 15, blocks i = 0) :=
  ⟨freesEach_iff, clearsBits_iff hgeo hfile⟩

def onePointer (place w i : ℕ) : ℕ := if i = place then w else 0

/-- The numbers 50 and 51, as they are stored on the disk. -/
def twoPointers (i : ℕ) : ℕ := if i = 0 then 0x32000000 else if i = 5 then 0x33000000 else 0

lemma allocated_of_blocks {blocks : ℕ → ℕ} {list : List ℕ} (hword : ∀ i, blocks i < 2 ^ 32)
    (hblocks : fileBlocks (diskPointer oneGroup) 256 blocks = list) (hnodup : list.Nodup)
    (hused : ∀ b ∈ list, b < 100 ∧ oneGroup.blockBit (b / 8192) (b % 8192) = true) :
    Allocated oneGroup 256 blocks where
  word i _ := hword i
  nodup := hblocks ▸ hnodup
  inside := by
    intro c hc
    rw [hblocks] at hc
    have hlt := (hused c hc).1
    have htotal : oneGroup.totalBlocks = 8192 := rfl
    omega
  used := by
    intro c hc
    rw [hblocks] at hc
    exact (hused c hc).2

theorem direct_blocks_freed : Geometry oneGroup ∧ Allocated oneGroup 256 twoPointers ∧
      fileBlocks (diskPointer oneGroup) 256 twoPointers = [50, 51] ∧
      FreesEach (fun _ => true) (diskPointer oneGroup) 256 twoPointers := by
  have hblocks : fileBlocks (diskPointer oneGroup) 256 twoPointers = [50, 51] := by decide +kernel
  have hfile : Allocated oneGroup 256 twoPointers := by
    refine allocated_of_blocks ?_ hblocks (by decide) (by decide +kernel)
    intro i
    rw [twoPointers]
    split_ifs <;> norm_num
  exact ⟨oneGroup_geometry, hfile, hblocks,
    (blockFreeAll_frees_iff oneGroup_geometry hfile).1.mpr ⟨rfl, rfl, rfl⟩⟩

/-- The block of an indirect table is not freed. -/
theorem table_leaked : Geometry oneGroup ∧ Allocated oneGroup 256 (onePointer 12 0x32000000) ∧
      fileBlocks (diskPointer oneGroup) 256 (onePointer 12 0x32000000) = [50] ∧
      (∃ blocks', blockFreeAll (fun _ => true) false (onePointer 12 0x32000000) =
        some ([], blocks') ∧ blocks' 12 = 0) ∧
      ¬FreesEach (fun _ => true) (diskPointer oneGroup) 256 (onePointer 12 0x32000000) := by
  have hblocks : fileBlocks (diskPointer oneGroup) 256 (onePointer 12 0x32000000) = [50] := by
    decide +kernel
  have hall : blockFreeAll (fun _ => true) false (onePointer 12 0x32000000) =
      some ([], fun i => if i < 15 then 0 else onePointer 12 0x32000000 i) := rfl
  have hword : ∀ i, onePointer 12 0x32000000 i < 2 ^ 32 := by
    intro i
    rw [onePointer]
    split_ifs <;> norm_num
  refine ⟨oneGroup_geometry, allocated_of_blocks hword hblocks (by decide) (by decide +kernel),
    hblocks, ⟨_, hall, rfl⟩, ?_⟩
  rintro ⟨freed, blocks', h, hperm, -⟩
  rw [hall] at h
  cases h
  rw [hblocks] at hperm
  simp at hperm

end Gloworm.Ext2Truncate
