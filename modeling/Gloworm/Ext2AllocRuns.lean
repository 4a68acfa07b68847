import Gloworm.BitmapWords
import Gloworm.MachineWords
import Gloworm.TransitionRuns

/-! Making an ext2 file system and allocating its blocks. The device is a map from block
numbers to bytes; the buffer cache is transparent. -/
namespace Gloworm.Ext2Alloc
open List Option Function Word Bitmap Transition

abbrev Byte := BitVec 8

structure Options where
  logBlockSize : ℕ
  blocks : ℕ
  logBlockSize_ge : 10 ≤ logBlockSize
  blocks_lt : blocks < 2 ^ 32

def roundupNextPow2 (value : ℕ) : ℕ := 2 ^ ((value - 1).log2 + 1)

namespace Options
variable (o : Options)

def blockSize : ℕ := 2 ^ o.logBlockSize

def blocksPerGroup : ℕ :=
  if o.blockSize * 8 ≤ o.blocks then o.blockSize * 8 else roundupNextPow2 o.blocks

def inodesPerGroup : ℕ :=
  if o.logBlockSize < 14 then o.blocksPerGroup / 2 ^ (14 - o.logBlockSize)
  else o.blocksPerGroup * 2 ^ (o.logBlockSize - 14) % 2 ^ 32

def superblockBlocknum : ℕ := if o.blockSize = 1024 then 1 else 0

def numGroups : ℕ :=
  o.blocks / o.blocksPerGroup + if o.blocks % o.blocksPerGroup ≠ 0 then 1 else 0

def inodeTableBlocks : ℕ := o.inodesPerGroup * 256 % 2 ^ 32 / o.blockSize

def groupDescriptorBlocks : ℕ := alignUp (32 * o.numGroups) o.blockSize / o.blockSize

def descriptorEnd : ℕ := o.superblockBlocknum + 1 + o.groupDescriptorBlocks

def reservedBlocks : ℕ := o.descriptorEnd + 2 + o.inodeTableBlocks

def minimumBlocks : ℕ := o.reservedBlocks * 2
end Options

structure Group where
  blockBitmap : ℕ
  inodeBitmap : ℕ
  inodeTable : ℕ
  freeBlockCount : ℕ

structure Fs where
  blockSize : ℕ
  totalBlocks : ℕ
  blocksPerGroup : ℕ
  inodesPerGroup : ℕ
  numGroups : ℕ
  totalUnallocBlocks : ℕ
  groups : ℕ → Group
  disk : ℕ → ℕ → Byte

def reserveLoop : ℕ → (ℕ → Byte) → ℕ → ℕ → ℕ → Byte
  | 0, block, _, _ => block
  | fuel + 1, block, i, reserve =>
    if 8 < reserve then reserveLoop fuel (update block i 0xFF#8) (i + 1) (reserve - 8)
    else update block i (lowMask reserve)

/-- Clear the bits of the entries, set the bytes behind them, and set the reserved bits. -/
def bitmapInit (blockSize : ℕ) (block : ℕ → Byte) (numEntries reserve : ℕ) : ℕ → Byte :=
  let lastByte := numEntries / 8
  let lastBits := numEntries % 8
  let block : ℕ → Byte := fun i =>
    if i < lastByte then 0#8
    else if i = lastByte ∧ lastByte < blockSize then lowMask lastBits
    else if i < blockSize then 0xFF#8
    else block i
  reserveLoop (reserve + 1) block 0 reserve

def sub16 (a b : ℕ) : ℕ := (a + 2 ^ 16 - b % 2 ^ 16) % 2 ^ 16

def Options.initialFreeBlocks (o : Options) (group : ℕ) : ℕ :=
  (if o.blocks < group * o.blocksPerGroup + o.blocksPerGroup
    then o.blocks - group * o.blocksPerGroup else o.blocksPerGroup) % 2 ^ 16

def Options.bitmapBlock (o : Options) (group : ℕ) : ℕ := group * o.blocksPerGroup + o.descriptorEnd

/-- The descriptor and the bitmaps of one group. -/
def initGroup (o : Options) (fs : Fs) (group : ℕ) : Option Fs :=
  let blockBitmap := o.bitmapBlock group
  let inodeBitmap := blockBitmap + 1
  let inodeTable := blockBitmap + 2
  let freeBlockCount := o.initialFreeBlocks group
  if o.blocks < inodeTable + o.inodeTableBlocks then none
  else
    let disk := update fs.disk blockBitmap
      (bitmapInit o.blockSize (fs.disk blockBitmap) freeBlockCount o.reservedBlocks)
    let disk := update disk inodeBitmap
      (bitmapInit o.blockSize (disk inodeBitmap) (o.inodesPerGroup % 2 ^ 16)
        (if group = 0 then 11 else 0))
    let disk : ℕ → ℕ → Byte := fun b =>
      if inodeTable ≤ b ∧ b < inodeTable + o.inodeTableBlocks then fun _ => 0#8 else disk b
    some { fs with
      totalUnallocBlocks := sub32 fs.totalUnallocBlocks o.reservedBlocks
      groups := update fs.groups group
        ⟨blockBitmap, inodeBitmap, inodeTable, sub16 freeBlockCount o.reservedBlocks⟩
      disk := disk }

def initGroups (o : Options) (fs : Fs) : ℕ → Option Fs
  | 0 => some fs
  | group + 1 => (initGroups o fs group).bind fun fs => initGroup o fs group

inductive AllocError
  | enospc
  | null
  | eio
  deriving DecidableEq

/-- Set the first clear bit; 0 is also the answer for a full bitmap. -/
def bitAlloc (fs : Fs) (bitmapBlocknum : ℕ) : ℕ × Fs :=
  match firstClear (fs.disk bitmapBlocknum) fs.blockSize with
  | none => (0, fs)
  | some bit => (bit, { fs with
    disk := update fs.disk bitmapBlocknum (setBit (fs.disk bitmapBlocknum) bit) })

/-- The first group that says it has a free block. -/
def chosenGroup (fs : Fs) : Option ℕ :=
  (List.range fs.numGroups).find? fun group => 0 < (fs.groups group).freeBlockCount

/-- Take a block of the chosen group; its number is computed with the wrong factor. -/
def ext2AllocBlock (fs : Fs) : Except AllocError ℕ × Fs :=
  match chosenGroup fs with
  | none => (.error .enospc, fs)
  | some group =>
    let res := bitAlloc fs (fs.groups group).blockBitmap
    if res.1 = 0 then (.error .null, res.2)
    else
      let blocknum := (fs.inodesPerGroup * group + res.1) % 2 ^ 32
      (.ok blocknum, { res.2 with
        totalUnallocBlocks := sub32 fs.totalUnallocBlocks 1
        groups := update fs.groups group { fs.groups group with
          freeBlockCount := (fs.groups group).freeBlockCount - 1 }
        disk := update res.2.disk blocknum fun _ => 0#8 })

def formatGroups (o : Options) (disk : ℕ → ℕ → Byte) : Option Fs :=
  if o.blocks < o.minimumBlocks then none
  else
    initGroups o ⟨o.blockSize, o.blocks, o.blocksPerGroup, o.inodesPerGroup, o.numGroups, o.blocks,
      fun _ => ⟨0, 0, 0, 0⟩, disk⟩ o.numGroups

structure Mount where
  fs : Fs
  returned : List ℕ

inductive Call
  | allocBlock

def perform (s : Mount) : Call → Mount
  | .allocBlock => match ext2AllocBlock s.fs with
    | (.ok blocknum, fs) => ⟨fs, blocknum :: s.returned⟩
    | (.error _, fs) => ⟨fs, s.returned⟩

/-- `later` is what the blocks other than the bitmaps hold in the end. -/
def ext2Mkfs (fs : Fs) (later : ℕ → ℕ → Byte) : Mount :=
  let s := perform (perform ⟨fs, []⟩ .allocBlock) .allocBlock
  { s with fs := { s.fs with disk := fun b =>
    if ∃ group < s.fs.numGroups, b = (s.fs.groups group).blockBitmap ∨
      b = (s.fs.groups group).inodeBitmap then s.fs.disk b else later b } }

def Step (s : Mount) (call : Call) (t : Mount) : Prop := perform s call = t

def Options.groupBlocks (o : Options) (group : ℕ) : ℕ :=
  min o.blocksPerGroup (o.blocks - group * o.blocksPerGroup)

/-- A block of the descriptors, the bitmaps or the inode table of a group. -/
def Options.Metadata (o : Options) (b : ℕ) : Prop :=
  ∃ group < o.numGroups, group * o.blocksPerGroup ≤ b ∧
    b < group * o.blocksPerGroup + o.reservedBlocks

/-- The group is the first, or has as many inodes as blocks, and its bitmap a clear bit or none. -/
def InPlace (o : Options) (fs : Fs) : Prop :=
  ∀ group ∈ chosenGroup fs, (group = 0 ∨ fs.inodesPerGroup = fs.blocksPerGroup) ∧
    ((∃ b < o.groupBlocks group, bitAt (fs.disk (fs.groups group).blockBitmap) b = false) ∨
      ∀ b < fs.blockSize * 8, bitAt (fs.disk (fs.groups group).blockBitmap) b = true)

variable {n b reserve g group x : ℕ} {disk : ℕ → ℕ → Byte} {fs fs' : Fs}

lemma reserveLoop_below (fuel : ℕ) (block : ℕ → Byte) (i reserve : ℕ) (hn : n < i * 8) :
    bitAt (reserveLoop fuel block i reserve) n = bitAt block n := by
  have hi : n / 8 ≠ i := by omega
  induction fuel generalizing block i reserve with
  | zero => rfl
  | succ fuel ih =>
    rw [reserveLoop]
    split_ifs with hr
    · rw [ih _ _ _ (by omega) (by omega), bitAt_update, if_neg hi]
    · rw [bitAt_update, if_neg hi]

lemma getLsbD_full (hb : b < 8) : (0xFF#8).getLsbD b = true := by
  interval_cases b <;> rfl

lemma reserveLoop_set (fuel : ℕ) (block : ℕ → Byte) (i reserve : ℕ) (hfuel : reserve < fuel)
    (hlow : i * 8 ≤ n) (hn : n < i * 8 + reserve) :
    bitAt (reserveLoop fuel block i reserve) n = true := by
  induction fuel generalizing block i reserve with
  | zero => omega
  | succ fuel ih =>
    rw [reserveLoop]
    split_ifs with hr
    · by_cases hbyte : n < (i + 1) * 8
      · rw [reserveLoop_below _ _ _ _ hbyte, bitAt_update, if_pos (by omega),
          getLsbD_full (by omega)]
      · exact ih _ _ _ (by omega) (by omega) (by omega)
    · rw [bitAt_update, if_pos (by omega), getLsbD_lowMask]
      exact decide_eq_true (by omega)

lemma reserveLoop_clear (fuel : ℕ) (block : ℕ → Byte) (i reserve : ℕ) (hn : i * 8 + reserve ≤ n)
    (hclear : bitAt block n = false) : bitAt (reserveLoop fuel block i reserve) n = false := by
  induction fuel generalizing block i reserve with
  | zero => exact hclear
  | succ fuel ih =>
    rw [reserveLoop]
    split_ifs with hr
    · refine ih _ _ _ (by omega) ?_
      rw [bitAt_update, if_neg (by omega)]
      exact hclear
    · rw [bitAt_update]
      split_ifs with hbyte
      · rw [getLsbD_lowMask]
        exact decide_eq_false (by omega)
      · exact hclear

lemma bitmapInit_set (blockSize : ℕ) (block : ℕ → Byte) (numEntries : ℕ) (hn : n < reserve) :
    bitAt (bitmapInit blockSize block numEntries reserve) n = true :=
  reserveLoop_set _ _ _ _ (by omega) (by omega) (by omega)

lemma bitmapInit_clear (blockSize : ℕ) (block : ℕ → Byte) (numEntries : ℕ) (hreserve : reserve ≤ n)
    (hn : n < numEntries / 8 * 8) :
    bitAt (bitmapInit blockSize block numEntries reserve) n = false := by
  refine reserveLoop_clear _ _ _ _ (by omega) ?_
  simp only [bitAt]
  rw [if_pos (by omega)]
  simp

def Initialised (blockSize numEntries reserve : ℕ) (block : ℕ → Byte) : Prop :=
  ∀ i < blockSize * 8, bitAt block i = decide (i < reserve ∨ numEntries ≤ i)

lemma bitmapInit_past_clear {blockSize numEntries : ℕ} (block : ℕ → Byte)
    (hn : numEntries < blockSize * 8) (hreserve : reserve ≤ numEntries) :
    bitAt (bitmapInit blockSize block numEntries reserve) numEntries = false := by
  refine reserveLoop_clear _ _ _ _ (by omega) ?_
  have hbyte : numEntries / 8 < blockSize := by omega
  simp [bitAt, hbyte, getLsbD_lowMask]

/-- Only a bitmap without bits behind its entries is initialised right. -/
theorem bitmapInit_initialised_iff {blockSize numEntries reserve : ℕ} (block : ℕ → Byte)
    (hn : numEntries ≤ blockSize * 8) (hreserve : reserve ≤ numEntries) :
    Initialised blockSize numEntries reserve (bitmapInit blockSize block numEntries reserve) ↔
      numEntries = blockSize * 8 := by
  constructor
  · intro hinit
    by_contra hne
    have hpast := hinit numEntries (by omega)
    rw [bitmapInit_past_clear block (by omega) hreserve] at hpast
    simp at hpast
  · intro hfull i hi
    rcases Nat.lt_or_ge i reserve with hlt | hge
    · rw [bitmapInit_set _ _ _ hlt]
      simp [hlt]
    · rw [bitmapInit_clear _ _ _ hge (by omega)]
      simp
      omega

theorem full_block_initialised : 8192 ≤ 1024 * 8 ∧ 11 ≤ 8192 ∧
      (Initialised 1024 8192 11 (bitmapInit 1024 (fun _ => 0#8) 8192 11) ↔ 8192 = 1024 * 8) :=
  ⟨by decide, by decide, bitmapInit_initialised_iff _ (by decide) (by decide)⟩

theorem twenty_entries_misfilled : bitAt (bitmapInit 1024 (fun _ => 0#8) 20 1) 16 = true ∧
      bitAt (bitmapInit 1024 (fun _ => 0#8) 20 1) 20 = false ∧
      ¬Initialised 1024 20 1 (bitmapInit 1024 (fun _ => 0#8) 20 1) := by
  have hlow : bitAt (bitmapInit 1024 (fun _ => 0#8) 20 1) 16 = true := by decide +kernel
  refine ⟨hlow, by decide +kernel, ?_⟩
  intro hinit
  have h16 := hinit 16 (by norm_num)
  rw [hlow] at h16
  simp at h16

namespace Options
variable (o : Options)

lemma blockSize_ge : 1024 ≤ o.blockSize :=
  calc 1024 = 2 ^ 10 := by norm_num
    _ ≤ 2 ^ o.logBlockSize := Nat.pow_le_pow_right (by norm_num) o.logBlockSize_ge

lemma blocksPerGroup_pos : 0 < o.blocksPerGroup := by
  have hb := o.blockSize_ge
  rw [blocksPerGroup]
  split_ifs
  · omega
  · exact Nat.two_pow_pos _

lemma bitmapBlock_lt (h : g < n) : o.bitmapBlock g < o.bitmapBlock n := by
  have hmul : g * o.blocksPerGroup < n * o.blocksPerGroup :=
    Nat.mul_lt_mul_of_pos_right h o.blocksPerGroup_pos
  rw [bitmapBlock, bitmapBlock]
  omega

lemma bitmapBlock_inj (h : o.bitmapBlock g = o.bitmapBlock n) : g = n := by
  rcases lt_trichotomy g n with hlt | heq | hgt
  · have := o.bitmapBlock_lt hlt
    omega
  · exact heq
  · have := o.bitmapBlock_lt hgt
    omega

lemma group_bit_unique {m : ℕ} (hb : b < o.blocksPerGroup) (hm : m < o.blocksPerGroup)
    (h : g * o.blocksPerGroup + b = n * o.blocksPerGroup + m) : g = n ∧ b = m := by
  have hdiv := congrArg (· / o.blocksPerGroup) h
  have hmod := congrArg (· % o.blocksPerGroup) h
  simp only [Nat.mul_comm _ o.blocksPerGroup, Nat.mul_add_div o.blocksPerGroup_pos,
    Nat.mul_add_mod, Nat.div_eq_of_lt hb, Nat.div_eq_of_lt hm, Nat.mod_eq_of_lt hb,
    Nat.mod_eq_of_lt hm] at hdiv hmod
  exact ⟨by omega, hmod⟩
end Options
section Format
variable {o : Options}

lemma initGroup_some (h : initGroup o fs group = some fs') :
    fs'.blockSize = fs.blockSize ∧ fs'.blocksPerGroup = fs.blocksPerGroup ∧
      fs'.inodesPerGroup = fs.inodesPerGroup ∧ fs'.numGroups = fs.numGroups ∧
      fs'.groups = update fs.groups group
        ⟨o.bitmapBlock group, o.bitmapBlock group + 1, o.bitmapBlock group + 2,
          sub16 (o.initialFreeBlocks group) o.reservedBlocks⟩ ∧
      (∀ b < o.bitmapBlock group, fs'.disk b = fs.disk b) ∧
      fs'.disk (o.bitmapBlock group) = bitmapInit o.blockSize (fs.disk (o.bitmapBlock group))
        (o.initialFreeBlocks group) o.reservedBlocks := by
  simp only [initGroup] at h
  by_cases hsmall : o.blocks < o.bitmapBlock group + 2 + o.inodeTableBlocks
  · rw [if_pos hsmall] at h
    exact absurd h (by simp)
  rw [if_neg hsmall] at h
  rw [← some.inj h]
  refine ⟨rfl, rfl, rfl, rfl, rfl, fun b hb => ?_, ?_⟩
  · simp only
    rw [if_neg (by omega), update_of_ne (by omega), update_of_ne (by omega)]
  · simp only
    rw [if_neg (by omega), update_of_ne (by omega), update_self]

/-- What the format has written for the first `n` groups. -/
structure Formatted (o : Options) (n : ℕ) (fs : Fs) : Prop where
  blockSize : fs.blockSize = o.blockSize
  blocksPerGroup : fs.blocksPerGroup = o.blocksPerGroup
  inodesPerGroup : fs.inodesPerGroup = o.inodesPerGroup
  numGroups : fs.numGroups = o.numGroups
  groups : ∀ g < n, fs.groups g = ⟨o.bitmapBlock g, o.bitmapBlock g + 1, o.bitmapBlock g + 2,
    sub16 (o.initialFreeBlocks g) o.reservedBlocks⟩
  bitmaps : ∀ g < n, ∃ block, fs.disk (o.bitmapBlock g) =
    bitmapInit o.blockSize block (o.initialFreeBlocks g) o.reservedBlocks

lemma Formatted.initGroup (hf : Formatted o n fs) (h : Ext2Alloc.initGroup o fs n = some fs') :
    Formatted o (n + 1) fs' := by
  obtain ⟨hsize, hblocks, hinodes, hnum, hgroups, hbelow, hmap⟩ := initGroup_some h
  refine ⟨hsize.trans hf.blockSize, hblocks.trans hf.blocksPerGroup,
    hinodes.trans hf.inodesPerGroup, hnum.trans hf.numGroups, fun g hg => ?_, fun g hg => ?_⟩
  · rcases Nat.lt_succ_iff_lt_or_eq.mp hg with hlt | rfl
    · rw [hgroups, update_of_ne (by omega), hf.groups g hlt]
    · rw [hgroups, update_self]
  · rcases Nat.lt_succ_iff_lt_or_eq.mp hg with hlt | rfl
    · rw [hbelow _ (o.bitmapBlock_lt hlt)]
      exact hf.bitmaps g hlt
    · exact ⟨_, hmap⟩

lemma Formatted.initGroups (hf : Formatted o 0 fs) (h : Ext2Alloc.initGroups o fs n = some fs') :
    Formatted o n fs' := by
  induction n generalizing fs' with
  | zero => exact some.inj h ▸ hf
  | succ n ih =>
    obtain ⟨fs₁, h₁, h₂⟩ := bind_eq_some_iff.mp h
    exact (ih h₁).initGroup h₂

lemma formatGroups_spec (h : formatGroups o disk = some fs) : Formatted o o.numGroups fs := by
  rw [formatGroups] at h
  split_ifs at h with hmin
  refine Formatted.initGroups ⟨rfl, rfl, rfl, rfl, ?_, ?_⟩ h
  · exact fun g hg => absurd hg (by omega)
  · exact fun g hg => absurd hg (by omega)
end Format

lemma chosenGroup_lt (h : chosenGroup fs = some group) : group < fs.numGroups :=
  mem_range.mp (List.mem_of_find?_eq_some h)

lemma ext2AllocBlock_ok (h : ext2AllocBlock fs = (.ok x, fs')) :
    ∃ group bit, chosenGroup fs = some group ∧
      firstClear (fs.disk (fs.groups group).blockBitmap) fs.blockSize = some bit ∧
      x = (fs.inodesPerGroup * group + bit) % 2 ^ 32 ∧ fs' = { fs with
        totalUnallocBlocks := sub32 fs.totalUnallocBlocks 1
        groups := update fs.groups group { fs.groups group with
          freeBlockCount := (fs.groups group).freeBlockCount - 1 }
        disk := update (update fs.disk (fs.groups group).blockBitmap
          (setBit (fs.disk (fs.groups group).blockBitmap) bit)) x fun _ => 0#8 } := by
  rw [ext2AllocBlock] at h
  cases hc : chosenGroup fs with
  | none => simp [hc] at h
  | some group =>
    simp only [hc] at h
    cases hbit : firstClear (fs.disk (fs.groups group).blockBitmap) fs.blockSize with
    | none => simp [bitAlloc, hbit] at h
    | some bit =>
      simp only [bitAlloc, hbit] at h
      by_cases hzero : bit = 0
      · rw [if_pos hzero] at h
        exact absurd (Prod.mk.inj h).1 (by simp)
      rw [if_neg hzero] at h
      obtain ⟨hx, hfs⟩ := Prod.mk.inj h
      rw [Except.ok.injEq] at hx
      subst hx
      exact ⟨group, bit, rfl, hbit, rfl, hfs.symm⟩

lemma ext2AllocBlock_of_clear {bit blockBitmap : ℕ} (hchosen : chosenGroup fs = some group)
    (hbitmap : (fs.groups group).blockBitmap = blockBitmap)
    (hclear : firstClear (fs.disk blockBitmap) fs.blockSize = some bit) (hne : bit ≠ 0)
    (hx : (fs.inodesPerGroup * group + bit) % 2 ^ 32 = x) :
    ∃ fs', ext2AllocBlock fs = (.ok x, fs') ∧ fs'.blockSize = fs.blockSize ∧
      fs'.inodesPerGroup = fs.inodesPerGroup ∧ fs'.numGroups = fs.numGroups ∧
      fs'.groups = update fs.groups group { fs.groups group with
        freeBlockCount := (fs.groups group).freeBlockCount - 1 } ∧
      fs'.disk = update (update fs.disk blockBitmap
        (setBit (fs.disk blockBitmap) bit)) x fun _ => 0#8 := by
  subst hbitmap hx
  simp only [ext2AllocBlock, hchosen, bitAlloc, hclear, if_neg hne]
  exact ⟨_, rfl, rfl, rfl, rfl, rfl, rfl⟩

lemma ext2AllocBlock_error {e : AllocError} (h : ext2AllocBlock fs = (.error e, fs')) :
    fs' = fs ∨ ∃ group, chosenGroup fs = some group ∧
      firstClear (fs.disk (fs.groups group).blockBitmap) fs.blockSize = some 0 := by
  rw [ext2AllocBlock] at h
  cases hc : chosenGroup fs with
  | none =>
    simp only [hc] at h
    exact .inl (Prod.mk.inj h).2.symm
  | some group =>
    simp only [hc] at h
    cases hbit : firstClear (fs.disk (fs.groups group).blockBitmap) fs.blockSize with
    | none =>
      simp only [bitAlloc, hbit, if_true] at h
      exact .inl (Prod.mk.inj h).2.symm
    | some bit =>
      simp only [bitAlloc, hbit] at h
      by_cases hzero : bit = 0
      · exact .inr ⟨group, rfl, by rw [hbit, hzero]⟩
      · rw [if_neg hzero] at h
        exact absurd (Prod.mk.inj h).1 (by simp)

/-- The bitmaps stand where they were put, with reserved and returned blocks set. -/
structure Marked (o : Options) (s : Mount) : Prop where
  blockSize : s.fs.blockSize = o.blockSize
  blocksPerGroup : s.fs.blocksPerGroup = o.blocksPerGroup
  numGroups : s.fs.numGroups = o.numGroups
  bitmap : ∀ g < o.numGroups, (s.fs.groups g).blockBitmap = o.bitmapBlock g
  reserved : ∀ g < o.numGroups, ∀ b < o.reservedBlocks,
    bitAt (s.fs.disk (o.bitmapBlock g)) b = true
  returned : ∀ x ∈ s.returned, ∃ g < o.numGroups, ∃ b, x = g * o.blocksPerGroup + b ∧
    o.reservedBlocks ≤ b ∧ b < o.groupBlocks g ∧ bitAt (s.fs.disk (o.bitmapBlock g)) b = true

section Alloc
variable {o : Options} {s : Mount}

lemma groupBlocks_le (g : ℕ) : o.groupBlocks g ≤ o.blocksPerGroup := Nat.min_le_left _ _

lemma reservedBlocks_pos : 0 < o.reservedBlocks := by
  rw [Options.reservedBlocks]
  omega

lemma bitmapBlock_metadata (hg : g < o.numGroups) : o.Metadata (o.bitmapBlock g) :=
  ⟨g, hg, Nat.le_add_right _ _, by simp only [Options.bitmapBlock, Options.reservedBlocks]; omega⟩

lemma not_metadata (hres : o.reservedBlocks ≤ b) (hb : b < o.groupBlocks g) :
    ¬ o.Metadata (g * o.blocksPerGroup + b) := by
  rintro ⟨n, hn, hle, hlt⟩
  have hgroup := groupBlocks_le (o := o) g
  obtain ⟨-, heq⟩ := o.group_bit_unique (g := g) (n := n) (b := b)
    (m := g * o.blocksPerGroup + b - n * o.blocksPerGroup) (by omega) (by omega) (by omega)
  omega

lemma Marked.alloc_ok (hm : Marked o s) (hplace : InPlace o s.fs)
    (h : ext2AllocBlock s.fs = (.ok x, fs')) :
    ∃ g < o.numGroups, ∃ b, x = g * o.blocksPerGroup + b ∧ o.reservedBlocks ≤ b ∧
      b < o.groupBlocks g ∧ bitAt (s.fs.disk (o.bitmapBlock g)) b = false ∧ fs' = { s.fs with
        totalUnallocBlocks := sub32 s.fs.totalUnallocBlocks 1
        groups := update s.fs.groups g { s.fs.groups g with
          freeBlockCount := (s.fs.groups g).freeBlockCount - 1 }
        disk := update (update s.fs.disk (o.bitmapBlock g)
          (setBit (s.fs.disk (o.bitmapBlock g)) b)) x fun _ => 0#8 } := by
  obtain ⟨g, b, hchosen, hclear, hx, hfs⟩ := ext2AllocBlock_ok h
  have hg : g < o.numGroups := hm.numGroups ▸ chosenGroup_lt hchosen
  obtain ⟨hstride, hroom⟩ := hplace g hchosen
  rw [hm.bitmap g hg] at hclear hroom hfs
  obtain ⟨hsize, hzero, hlow⟩ := firstClear_some hclear
  have hres : o.reservedBlocks ≤ b := by
    by_contra hlt
    rw [hm.reserved g hg b (by omega)] at hzero
    exact absurd hzero (by simp)
  have hin : b < o.groupBlocks g := by
    rcases hroom with ⟨c, hc, hcc⟩ | hfull
    · by_contra hge
      rw [hlow c (by omega)] at hcc
      exact absurd hcc (by simp)
    · rw [hfull b hsize] at hzero
      exact absurd hzero (by simp)
  have hxval : x = g * o.blocksPerGroup + b := by
    have hvalue : s.fs.inodesPerGroup * g + b = g * o.blocksPerGroup + b := by
      rcases hstride with rfl | heq
      · simp
      · rw [heq, hm.blocksPerGroup, Nat.mul_comm]
    have hlt := o.blocks_lt
    rw [Options.groupBlocks] at hin
    rw [hx, hvalue, Nat.mod_eq_of_lt (by omega)]
  exact ⟨g, hg, b, hxval, hres, hin, hzero, hfs⟩

lemma bitAt_alloc (disk : ℕ → ℕ → Byte) (hx : ¬ o.Metadata x) (hn : n < o.numGroups) (c : ℕ) :
    bitAt (update (update disk (o.bitmapBlock g)
      (setBit (disk (o.bitmapBlock g)) b)) x (fun _ => 0#8) (o.bitmapBlock n)) c =
      (bitAt (disk (o.bitmapBlock n)) c || decide (n = g ∧ c = b)) := by
  have hne : o.bitmapBlock n ≠ x := by
    rintro rfl
    exact hx (bitmapBlock_metadata hn)
  rw [update_of_ne hne]
  by_cases hng : n = g
  · subst hng
    rw [update_self, bitAt_setBit (by norm_num)]
    simp
  · rw [update_of_ne fun heq => hng (o.bitmapBlock_inj heq)]
    simp [hng]

lemma Marked.not_returned (hm : Marked o s) (hb : b < o.groupBlocks g)
    (hclear : bitAt (s.fs.disk (o.bitmapBlock g)) b = false) :
    g * o.blocksPerGroup + b ∉ s.returned := by
  intro hmem
  obtain ⟨n, hn, c, hx, hres, hc, hset⟩ := hm.returned _ hmem
  have hgb := groupBlocks_le (o := o) g
  have hgc := groupBlocks_le (o := o) n
  obtain ⟨rfl, rfl⟩ := o.group_bit_unique (by omega) (by omega) hx
  rw [hclear] at hset
  exact absurd hset (by simp)

lemma Marked.mark (hm : Marked o s) (hg : g < o.numGroups) (hres : o.reservedBlocks ≤ b)
    (hb : b < o.groupBlocks g) (hsize : fs'.blockSize = s.fs.blockSize)
    (hblocks : fs'.blocksPerGroup = s.fs.blocksPerGroup) (hnum : fs'.numGroups = s.fs.numGroups)
    (hbitmap : ∀ n, (fs'.groups n).blockBitmap = (s.fs.groups n).blockBitmap)
    (hbits : ∀ n < o.numGroups, ∀ c, bitAt (fs'.disk (o.bitmapBlock n)) c =
      (bitAt (s.fs.disk (o.bitmapBlock n)) c || decide (n = g ∧ c = b))) :
    Marked o ⟨fs', (g * o.blocksPerGroup + b) :: s.returned⟩ where
  blockSize := hsize.trans hm.blockSize
  blocksPerGroup := hblocks.trans hm.blocksPerGroup
  numGroups := hnum.trans hm.numGroups
  bitmap n hn := (hbitmap n).trans (hm.bitmap n hn)
  reserved n hn c hc := by rw [hbits n hn c, hm.reserved n hn c hc, Bool.true_or]
  returned y hy := by
    rcases mem_cons.mp hy with rfl | hold
    · exact ⟨g, hg, b, rfl, hres, hb, by rw [hbits g hg b]; simp⟩
    · obtain ⟨n, hn, c, hx, hrc, hc, hset⟩ := hm.returned y hold
      exact ⟨n, hn, c, hx, hrc, hc, by rw [hbits n hn c, hset, Bool.true_or]⟩

lemma blockBitmap_update (groups : ℕ → Group) (g count n : ℕ) :
    (update groups g { groups g with freeBlockCount := count } n).blockBitmap =
      (groups n).blockBitmap := by
  by_cases hng : n = g
  · rw [hng, update_self]
  · rw [update_of_ne hng]

lemma Marked.perform (hm : Marked o s) (hplace : InPlace o s.fs) (call : Call) :
    Marked o (Ext2Alloc.perform s call) := by
  cases call with
  | allocBlock =>
    rw [Ext2Alloc.perform]
    cases hres : ext2AllocBlock s.fs with
    | mk result fs' =>
      cases result with
      | error e =>
        rcases ext2AllocBlock_error hres with rfl | ⟨g, hchosen, hzero⟩
        · exact hm
        · have hg : g < o.numGroups := hm.numGroups ▸ chosenGroup_lt hchosen
          obtain ⟨-, hclear, -⟩ := firstClear_some hzero
          rw [hm.bitmap g hg, hm.reserved g hg 0 reservedBlocks_pos] at hclear
          exact absurd hclear (by simp)
      | ok x =>
        obtain ⟨g, hg, b, hx, hresv, hb, hclear, hfs⟩ := hm.alloc_ok hplace hres
        have hmeta : ¬ o.Metadata x := hx ▸ not_metadata hresv hb
        subst hfs
        rw [hx]
        refine hm.mark hg hresv hb rfl rfl rfl (blockBitmap_update _ _ _) fun n hn c => ?_
        exact hx ▸ bitAt_alloc _ hmeta hn c

lemma perform_fs (s : Mount) : (perform s .allocBlock).fs = (ext2AllocBlock s.fs).2 := by
  simp only [perform]
  rcases ext2AllocBlock s.fs with ⟨_ | _, fs⟩ <;> rfl

lemma Formatted.marked (hf : Formatted o o.numGroups fs) : Marked o ⟨fs, []⟩ := by
  refine ⟨hf.blockSize, hf.blocksPerGroup, hf.numGroups, fun g hg => ?_, fun g hg b hb => ?_, ?_⟩
  · rw [hf.groups g hg]
  · obtain ⟨block, hblock⟩ := hf.bitmaps g hg
    simp only
    rw [hblock]
    exact bitmapInit_set _ _ _ hb
  · exact fun x hx => absurd hx (not_mem_nil)

lemma Marked.write (hm : Marked o s)
    (hdisk : ∀ g < o.numGroups, disk (o.bitmapBlock g) = s.fs.disk (o.bitmapBlock g)) :
    Marked o ⟨{ s.fs with disk := disk }, s.returned⟩ := by
  refine ⟨hm.blockSize, hm.blocksPerGroup, hm.numGroups, hm.bitmap, fun g hg => ?_, fun x hx => ?_⟩
  · simp only
    rw [hdisk g hg]
    exact hm.reserved g hg
  · obtain ⟨g, hg, b, hxb, hres, hb, hset⟩ := hm.returned x hx
    exact ⟨g, hg, b, hxb, hres, hb, by simp only; rw [hdisk g hg, hset]⟩

lemma Marked.mkfs (hf : Formatted o o.numGroups fs) (hbad : InPlace o fs)
    (hroot : InPlace o (ext2AllocBlock fs).2) (later : ℕ → ℕ → Byte) :
    Marked o (ext2Mkfs fs later) := by
  have h₁ := hf.marked.perform hbad .allocBlock
  have h₂ := h₁.perform (by rw [perform_fs]; exact hroot) .allocBlock
  refine h₂.write fun g hg => ?_
  rw [if_pos]
  exact ⟨g, h₂.numGroups ▸ hg, .inl (h₂.bitmap g hg).symm⟩
end Alloc

/-- In every run of allocations in place each returned block is new, in the group whose bit was set,
and no metadata. -/
theorem ext2_alloc_in_place {o : Options} {disk : ℕ → ℕ → Byte} {fs : Fs}
    (hformat : formatGroups o disk = some fs) (hbad : InPlace o fs)
    (hroot : InPlace o (ext2AllocBlock fs).2) {later : ℕ → ℕ → Byte} {calls : List Call} {s : Mount}
    (hrun : Run (Guarded (fun s _ => InPlace o s.fs) Step) (ext2Mkfs fs later) calls s)
    (hplace : InPlace o s.fs) {x : ℕ} {fs' : Fs} (h : ext2AllocBlock s.fs = (.ok x, fs')) :
    ∃ g < o.numGroups, ∃ b < o.groupBlocks g, x = g * o.blocksPerGroup + b ∧
      bitAt (s.fs.disk (s.fs.groups g).blockBitmap) b = false ∧
      bitAt (fs'.disk (fs'.groups g).blockBitmap) b = true ∧ x ∉ s.returned ∧ ¬ o.Metadata x := by
  have hf := formatGroups_spec hformat
  have hm : Marked o s := by
    refine hrun.preserves (Marked.mkfs hf hbad hroot later) ?_
    rintro s call t hs ⟨hin, rfl⟩
    exact hs.perform hin call
  obtain ⟨g, hg, b, hx, hres, hb, hclear, hfs⟩ := hm.alloc_ok hplace h
  have hmeta : ¬ o.Metadata x := hx ▸ not_metadata hres hb
  refine ⟨g, hg, b, hb, hx, by rw [hm.bitmap g hg, hclear], ?_,
    hx ▸ hm.not_returned hb hclear, hmeta⟩
  rw [hfs, blockBitmap_update, hm.bitmap g hg, bitAt_alloc _ hmeta hg]
  simp

section TwoGroups

def twoGroups : Options := ⟨10, 16384, by norm_num, by norm_num⟩

structure Filling (m : ℕ) (s : Mount) : Prop where
  blockSize : s.fs.blockSize = 1024
  inodesPerGroup : s.fs.inodesPerGroup = 512
  numGroups : s.fs.numGroups = 2
  bitmap₀ : (s.fs.groups 0).blockBitmap = 3
  bitmap₁ : (s.fs.groups 1).blockBitmap = 8195
  free₀ : (s.fs.groups 0).freeBlockCount = 8192 - m
  free₁ : (s.fs.groups 1).freeBlockCount = 8059
  bits₀ : ∀ b < 8192, bitAt (s.fs.disk 3) b = decide (b < m)
  bits₁ : ∀ b < 8192, bitAt (s.fs.disk 8195) b = decide (b < 133)
  returned : ∀ b, 133 ≤ b → b < m → b ∈ s.returned

variable {m : ℕ} {s : Mount}

section
variable (hs : Filling m s)
include hs

lemma Filling.chosen (hm : m < 8192) : chosenGroup s.fs = some 0 := by
  have hfree : 0 < (s.fs.groups 0).freeBlockCount := by
    rw [hs.free₀]
    omega
  simp [chosenGroup, hs.numGroups, range_succ, hfree]

lemma Filling.allocates (hlow : 133 ≤ m) (hm : m < 8192) :
    ∃ fs', ext2AllocBlock s.fs = (.ok m, fs') ∧ fs'.blockSize = s.fs.blockSize ∧
      fs'.inodesPerGroup = s.fs.inodesPerGroup ∧ fs'.numGroups = s.fs.numGroups ∧
      fs'.groups = update s.fs.groups 0 { s.fs.groups 0 with
        freeBlockCount := (s.fs.groups 0).freeBlockCount - 1 } ∧
      fs'.disk = update (update s.fs.disk 3
        (setBit (s.fs.disk 3) m)) m fun _ => 0#8 := by
  have hclear : firstClear (s.fs.disk 3) s.fs.blockSize = some m := by
    rw [hs.blockSize]
    refine firstClear_eq (by omega) ?_ fun b hb => ?_
    · rw [hs.bits₀ m hm]
      simp
    · rw [hs.bits₀ b (by omega)]
      simpa using hb
  have hx : (s.fs.inodesPerGroup * 0 + m) % 2 ^ 32 = m := by
    rw [Nat.mul_zero, Nat.zero_add, Nat.mod_eq_of_lt (by omega)]
  exact ext2AllocBlock_of_clear (hs.chosen hm) hs.bitmap₀ hclear (by omega) hx

lemma Filling.alloc (hlow : 133 ≤ m) (hm : m < 8192) : Filling (m + 1) (perform s .allocBlock) := by
  obtain ⟨fs', halloc, hsize, hinodes, hnum, hgroups, hdisk⟩ := hs.allocates hlow hm
  simp only [perform, halloc]
  constructor
  · exact hsize.trans hs.blockSize
  · exact hinodes.trans hs.inodesPerGroup
  · exact hnum.trans hs.numGroups
  · rw [hgroups, blockBitmap_update, hs.bitmap₀]
  · rw [hgroups, blockBitmap_update, hs.bitmap₁]
  · rw [hgroups, update_self]
    simp only [hs.free₀]
    omega
  · rw [hgroups, update_of_ne one_ne_zero, hs.free₁]
  · intro b hb
    rw [hdisk, update_of_ne (by omega), update_self, bitAt_setBit (by norm_num),
      hs.bits₀ b hb, ← Bool.decide_or, decide_eq_decide]
    omega
  · intro b hb
    rw [hdisk, update_of_ne (by omega), update_of_ne (by omega), hs.bits₁ b hb]
  · intro b hb hbm
    rcases Nat.lt_succ_iff_lt_or_eq.mp hbm with hlt | rfl
    · exact mem_cons_of_mem _ (hs.returned b hb hlt)
    · exact mem_cons_self

lemma Filling.inPlace (hm : m < 8192) : InPlace twoGroups s.fs := by
  intro g hg
  rw [mem_def, hs.chosen hm, some.injEq] at hg
  subst hg
  refine ⟨.inl rfl, .inl ⟨m, ?_, ?_⟩⟩
  · have : twoGroups.groupBlocks 0 = 8192 := by decide +kernel
    omega
  · rw [hs.bitmap₀, hs.bits₀ m hm]
    simp

lemma Filling.fill (hlow : 133 ≤ m) (hm : m ≤ 8192) :
    ∃ calls t, Run Step s calls t ∧ Filling 8192 t := by
  induction hk : 8192 - m generalizing m s with
  | zero =>
    obtain rfl : m = 8192 := by omega
    exact ⟨[], s, .nil s, hs⟩
  | succ k ih =>
    obtain ⟨calls, t, hrun, ht⟩ := ih (hs.alloc hlow (by omega)) (by omega) (by omega) (by omega)
    exact ⟨_, t, (Run.one rfl).trans hrun, ht⟩
end

lemma Filling.full (hs : Filling 8192 s) :
    ∃ fs', ext2AllocBlock s.fs = (.ok 645, fs') ∧ 645 ∈ s.returned := by
  have hchosen : chosenGroup s.fs = some 1 := by
    simp [chosenGroup, hs.numGroups, range_succ, hs.free₀, hs.free₁]
  have hclear : firstClear (s.fs.disk 8195) s.fs.blockSize = some 133 := by
    rw [hs.blockSize]
    refine firstClear_eq (by norm_num) ?_ fun b hb => ?_
    · rw [hs.bits₁ 133 (by norm_num)]
      simp
    · rw [hs.bits₁ b (by omega)]
      simpa using hb
  obtain ⟨fs', halloc, -⟩ := ext2AllocBlock_of_clear hchosen hs.bitmap₁ hclear (by norm_num)
    (x := 645) (by rw [hs.inodesPerGroup]; norm_num)
  exact ⟨fs', halloc, hs.returned 645 (by norm_num) (by norm_num)⟩

lemma twoGroups_numGroups : twoGroups.numGroups = 2 := by decide +kernel

lemma formatGroups_twoGroups : ∃ fs, formatGroups twoGroups (fun _ _ => 0#8) = some fs := by
  have hmin : ¬ twoGroups.blocks < twoGroups.minimumBlocks := by decide +kernel
  have hroom : ∀ g < 2, ¬ twoGroups.blocks <
      twoGroups.bitmapBlock g + 2 + twoGroups.inodeTableBlocks := by decide +kernel
  rw [formatGroups, if_neg hmin, twoGroups_numGroups, initGroups, initGroups, initGroups]
  simp only [bind_some, initGroup]
  rw [if_neg (hroom 0 (by norm_num)), bind_some, if_neg (hroom 1 (by norm_num))]
  exact ⟨_, rfl⟩

lemma Filling.format (h : formatGroups twoGroups disk = some fs) : Filling 133 ⟨fs, []⟩ := by
  have hf := formatGroups_spec h
  rw [twoGroups_numGroups] at hf
  have hbit : ∀ g < 2, ∀ b < 8192,
      bitAt (fs.disk (twoGroups.bitmapBlock g)) b = decide (b < 133) := by
    intro g hg b hb
    obtain ⟨block, hblock⟩ := hf.bitmaps g hg
    have hfree : ∀ g < 2, twoGroups.initialFreeBlocks g = 8192 := by decide +kernel
    have hres : twoGroups.reservedBlocks = 133 := by decide +kernel
    rw [hblock, hfree g hg, hres]
    by_cases hlt : b < 133
    · rw [bitmapInit_set _ _ _ hlt, decide_eq_true hlt]
    · rw [bitmapInit_clear _ _ _ (by omega) (by omega), decide_eq_false hlt]
  have hmap₀ : twoGroups.bitmapBlock 0 = 3 := by decide +kernel
  have hmap₁ : twoGroups.bitmapBlock 1 = 8195 := by decide +kernel
  have hfree : ∀ g < 2, sub16 (twoGroups.initialFreeBlocks g) twoGroups.reservedBlocks = 8059 := by
    decide +kernel
  have hsize : twoGroups.blockSize = 1024 := by decide +kernel
  have hinodes : twoGroups.inodesPerGroup = 512 := by decide +kernel
  constructor
  · exact hf.blockSize.trans hsize
  · exact hf.inodesPerGroup.trans hinodes
  · exact hf.numGroups.trans twoGroups_numGroups
  · rw [hf.groups 0 (by norm_num), hmap₀]
  · rw [hf.groups 1 (by norm_num), hmap₁]
  · rw [hf.groups 0 (by norm_num), hfree 0 (by norm_num)]
  · rw [hf.groups 1 (by norm_num), hfree 1 (by norm_num)]
  · rw [← hmap₀]
    exact hbit 0 (by norm_num)
  · rw [← hmap₁]
    exact hbit 1 (by norm_num)
  · intro b hlow hb
    omega

lemma Filling.write (hs : Filling m s) (h₀ : disk 3 = s.fs.disk 3) (h₁ : disk 8195 = s.fs.disk 8195) :
    Filling m ⟨{ s.fs with disk := disk }, s.returned⟩ :=
  ⟨hs.blockSize, hs.inodesPerGroup, hs.numGroups, hs.bitmap₀, hs.bitmap₁, hs.free₀, hs.free₁,
    by simpa only [h₀] using hs.bits₀, by simpa only [h₁] using hs.bits₁, hs.returned⟩

lemma Filling.mkfs (hs : Filling 133 ⟨fs, []⟩) (later : ℕ → ℕ → Byte) :
    Filling 135 (ext2Mkfs fs later) := by
  have h₂ := (hs.alloc (by norm_num) (by norm_num)).alloc (by norm_num) (by norm_num)
  refine h₂.write ?_ ?_
  · rw [if_pos ⟨0, by rw [h₂.numGroups]; norm_num, .inl h₂.bitmap₀.symm⟩]
  · rw [if_pos ⟨1, by rw [h₂.numGroups]; norm_num, .inl h₂.bitmap₁.symm⟩]

/-- The second group hands out numbers of blocks of the first. -/
theorem second_group_returns_block_again : ∃ fs calls s fs' x,
    formatGroups twoGroups (fun _ _ => 0#8) = some fs ∧
      Run Step (ext2Mkfs fs fun _ _ => 0#8) calls s ∧
      ext2AllocBlock s.fs = (.ok x, fs') ∧ x ∈ s.returned := by
  obtain ⟨fs, hformat⟩ := formatGroups_twoGroups
  obtain ⟨calls, s, hrun, hs⟩ :=
    ((Filling.format hformat).mkfs fun _ _ => 0#8).fill (by norm_num) (by norm_num)
  obtain ⟨fs', halloc, hmem⟩ := hs.full
  exact ⟨fs, calls, s, fs', 645, hformat, hrun, halloc, hmem⟩

theorem ext2_alloc_in_place_first : ∃ fs fs', formatGroups twoGroups (fun _ _ => 0#8) = some fs ∧
    ext2AllocBlock (ext2Mkfs fs fun _ _ => 0#8).fs = (.ok 135, fs') ∧ ¬ twoGroups.Metadata 135 := by
  obtain ⟨fs, hformat⟩ := formatGroups_twoGroups
  have hbad := Filling.format hformat
  have hroot := hbad.alloc (by norm_num) (by norm_num)
  have hs := hbad.mkfs fun _ _ => 0#8
  obtain ⟨fs', halloc, -⟩ := hs.allocates (by norm_num) (by norm_num)
  have hplace : InPlace twoGroups (ext2AllocBlock fs).2 := by
    rw [← perform_fs ⟨fs, []⟩]
    exact hroot.inPlace (by norm_num)
  obtain ⟨g, hg, b, hb, -, -, -, -, hnew⟩ := ext2_alloc_in_place hformat (hbad.inPlace (by norm_num))
    hplace (.nil _) (hs.inPlace (by norm_num)) halloc
  exact ⟨fs, fs', hformat, halloc, hnew⟩
end TwoGroups
end Gloworm.Ext2Alloc
