import Gloworm.Ext2InodeModel

/-! Allocating blocks and inodes of an ext2 file system whose counts of free entries are those
of its bitmaps. -/
namespace Gloworm.Ext2Inode
open Function Word Bitmap ByteOrder Ext2Alloc Option

/-- `ext2_alloc_block` on a device that cannot read every block. The new block is read after its bit
is set and the counts are lowered. -/
def ext2AllocBlockOn (readable : ℕ → Bool) (fs : Fs) : Except AllocError ℕ × Fs :=
  match chosenGroup fs with
  | none => (.error .enospc, fs)
  | some group =>
    if readable (fs.groups group).blockBitmap then
      let res := bitAlloc fs (fs.groups group).blockBitmap
      if res.1 = 0 then (.error .null, res.2)
      else
        let blocknum := (fs.inodesPerGroup * group + res.1) % 2 ^ 32
        let counted : Fs := { res.2 with
          totalUnallocBlocks := sub32 fs.totalUnallocBlocks 1
          groups := update fs.groups group { fs.groups group with
            freeBlockCount := (fs.groups group).freeBlockCount - 1 } }
        if readable blocknum then
          (.ok blocknum, { counted with disk := update res.2.disk blocknum fun _ => 0#8 })
        else (.error .null, counted)
    else (.error .null, fs)

structure Counted (v : Volume) : Prop where
  blockCounts : ∀ g < v.fs.numGroups, (v.fs.groups g).freeBlockCount =
    clearCount (v.fs.disk (v.fs.groups g).blockBitmap) (v.fs.blockSize * 8)
  inodeCounts : ∀ g < v.fs.numGroups, v.freeInodeCount g =
    clearCount (v.fs.disk (v.fs.groups g).inodeBitmap) (v.fs.blockSize * 8)

/-- A clear bit stands for an entry of its group, and the bitmaps are blocks of their own. -/
structure Sound (v : Volume) : Prop extends Tables v, Counted v where
  geometry : Geometry v.fs
  inodePadding : ∀ g < v.fs.numGroups, ∀ i, v.fs.inodesPerGroup ≤ i → i < v.fs.blockSize * 8 →
    v.fs.inodeBit g i = true
  blockPadding : ∀ g < v.fs.numGroups, ∀ i < v.fs.blockSize * 8, v.fs.blockBit g i = false →
    i < v.fs.blocksPerGroup ∧ v.fs.blocksPerGroup * g + i < v.fs.totalBlocks
  bitmapsUsed : ∀ g < v.fs.numGroups, ∀ x,
    x = (v.fs.groups g).blockBitmap ∨ x = (v.fs.groups g).inodeBitmap →
      v.fs.blockBit (x / v.fs.blocksPerGroup) (x % v.fs.blocksPerGroup) = true
  inodeDistinct : ∀ g < v.fs.numGroups, ∀ h < v.fs.numGroups,
    (v.fs.groups g).inodeBitmap = (v.fs.groups h).inodeBitmap → g = h

structure Unchanged (v v' : Volume) : Prop where
  restored : Restored v.fs v'.fs
  freeInodes : v'.freeInodeCount = v.freeInodeCount
  usedDirs : v'.usedDirsCount = v.usedDirsCount
  totalInodes : v'.totalUnallocInodes = v.totalUnallocInodes

def NewBlock (fs fs' : Fs) (x : ℕ) : Prop :=
  x < fs.totalBlocks ∧ fs.blockBit (x / fs.blocksPerGroup) (x % fs.blocksPerGroup) = false ∧
    fs'.blockBit (x / fs.blocksPerGroup) (x % fs.blocksPerGroup) = true

def NewInode (fs fs' : Fs) (ino : ℕ) : Prop :=
  1 ≤ ino ∧ (ino - 1) / fs.inodesPerGroup < fs.numGroups ∧
    fs.inodeBit ((ino - 1) / fs.inodesPerGroup) ((ino - 1) % fs.inodesPerGroup) = false ∧
    fs'.inodeBit ((ino - 1) / fs.inodesPerGroup) ((ino - 1) % fs.inodesPerGroup) = true

/-- A new entry exactly when one is free, nothing changed by a failure, and right counts. -/
structure Allocates (v : Volume) (isNew : ℕ → Prop) (free : Prop)
    (result : Except AllocError ℕ × Volume) : Prop where
  found : (∃ x, result.1 = .ok x ∧ isNew x) ↔ free
  failed : ∀ e, result.1 = .error e → Unchanged v result.2
  counted : ∀ x, result.1 = .ok x → Counted result.2

def FreeBlock (fs : Fs) : Prop :=
  ∃ g < fs.numGroups, ∃ i < fs.blockSize * 8, fs.blockBit g i = false

def FreeInode (fs : Fs) : Prop :=
  ∃ g < fs.numGroups, ∃ i < fs.blockSize * 8, fs.inodeBit g i = false

def AllocatesBlock (readable : ℕ → Bool) (v : Volume) : Prop :=
  Allocates v (NewBlock v.fs (ext2AllocBlockOn readable v.fs).2) (FreeBlock v.fs)
    ((ext2AllocBlockOn readable v.fs).1, { v with fs := (ext2AllocBlockOn readable v.fs).2 })

def AllocatesInode (readable : ℕ → Bool) (v : Volume) (mode uid gid rdev time : ℕ) : Prop :=
  Allocates v (NewInode v.fs (allocInode readable v mode uid gid rdev time).2.fs) (FreeInode v.fs)
    (allocInode readable v mode uid gid rdev time)

/-- The first clear bit is not bit 0, counting inodes for blocks gives its block, and the bitmap and
that block can be read. -/
def BlockReady (readable : ℕ → Bool) (fs : Fs) : Prop :=
  ∀ g ∈ chosenGroup fs, readable (fs.groups g).blockBitmap = true ∧
    ∀ bit ∈ firstClear (fs.disk (fs.groups g).blockBitmap) fs.blockSize, bit ≠ 0 ∧
      (fs.inodesPerGroup * g + bit) % 2 ^ 32 = fs.blocksPerGroup * g + bit ∧
      readable (fs.blocksPerGroup * g + bit) = true

/-- The first clear bit is not bit 0, and the bitmap and the block of its inode can be read. -/
def InodeReady (readable : ℕ → Bool) (v : Volume) : Prop :=
  ∀ g ∈ chosenInodeGroup v, readable (v.fs.groups g).inodeBitmap = true ∧
    ∀ bit ∈ firstClear (v.fs.disk (v.fs.groups g).inodeBitmap) v.fs.blockSize,
      bit ≠ 0 ∧ readable (v.slot g bit).1 = true

lemma not_allocates_of_error {v : Volume} {isNew : ℕ → Prop} {free : Prop} {e : AllocError}
    {result : Except AllocError ℕ × Volume} (hfree : free) (he : result.1 = .error e) :
    ¬Allocates v isNew free result := by
  intro halloc
  obtain ⟨x, hx, -⟩ := halloc.found.mpr hfree
  rw [he] at hx
  cases hx

lemma Unchanged.refl (v : Volume) : Unchanged v v :=
  ⟨⟨fun _ _ _ _ => rfl, fun _ _ _ _ => rfl, fun _ _ => rfl, rfl⟩, rfl, rfl, rfl⟩

variable {g k m : ℕ}

section Search
variable {v : Volume} (hv : Counted v)

include hv

lemma not_freeBlock_of_none (h : chosenGroup v.fs = none) : ¬FreeBlock v.fs := by
  rintro ⟨g, hg, i, hi, hclear⟩
  have hzero := List.find?_eq_none.mp h g (List.mem_range.mpr hg)
  rw [decide_eq_true_eq, hv.blockCounts g hg] at hzero
  exact hzero (clearCount_pos_iff.mpr ⟨i, hi, hclear⟩)

lemma not_freeInode_of_none (h : chosenInodeGroup v = none) : ¬FreeInode v.fs := by
  rintro ⟨g, hg, i, hi, hclear⟩
  have hzero := List.find?_eq_none.mp h g (List.mem_range.mpr hg)
  rw [decide_eq_true_eq, hv.inodeCounts g hg] at hzero
  exact hzero (clearCount_pos_iff.mpr ⟨i, hi, hclear⟩)

lemma firstClear_of_chosen (h : chosenGroup v.fs = some g) :
    ∃ bit, firstClear (v.fs.disk (v.fs.groups g).blockBitmap) v.fs.blockSize = some bit := by
  have hpos : 0 < (v.fs.groups g).freeBlockCount := by simpa using List.find?_some h
  rw [hv.blockCounts g (chosenGroup_lt h), clearCount_pos_iff] at hpos
  obtain ⟨i, hi, hclear⟩ := hpos
  cases hfirst : firstClear (v.fs.disk (v.fs.groups g).blockBitmap) v.fs.blockSize with
  | none => simp [firstClear_none hfirst hi] at hclear
  | some bit => exact ⟨bit, rfl⟩

lemma firstClear_of_chosenInode (h : chosenInodeGroup v = some g) :
    ∃ bit, firstClear (v.fs.disk (v.fs.groups g).inodeBitmap) v.fs.blockSize = some bit := by
  have hpos : 0 < v.freeInodeCount g := by simpa using List.find?_some h
  rw [hv.inodeCounts g (chosenInodeGroup_lt h), clearCount_pos_iff] at hpos
  obtain ⟨i, hi, hclear⟩ := hpos
  cases hfirst : firstClear (v.fs.disk (v.fs.groups g).inodeBitmap) v.fs.blockSize with
  | none => simp [firstClear_none hfirst hi] at hclear
  | some bit => exact ⟨bit, rfl⟩
end Search
section Blocks
variable {readable : ℕ → Bool} {v : Volume} {bit : ℕ}

lemma allocatesBlock_none (hv : Counted v) (h : chosenGroup v.fs = none) :
    AllocatesBlock readable v := by
  have hres : ext2AllocBlockOn readable v.fs = (.error .enospc, v.fs) := by
    simp [ext2AllocBlockOn, h]
  rw [AllocatesBlock, hres]
  refine ⟨iff_of_false ?_ (not_freeBlock_of_none hv h), fun _ _ => Unchanged.refl v, ?_⟩
  · rintro ⟨x, hx, -⟩
    cases hx
  · intro x hx
    cases hx

lemma freeBlock_of_firstClear (hg : g < v.fs.numGroups)
    (hclear : firstClear (v.fs.disk (v.fs.groups g).blockBitmap) v.fs.blockSize = some bit) :
    FreeBlock v.fs := by
  obtain ⟨hlt, hbit, -⟩ := firstClear_some hclear
  exact ⟨g, hg, bit, hlt, hbit⟩

section
variable (h : chosenGroup v.fs = some g)
include h

lemma ext2AllocBlockOn_eq (hmap : readable (v.fs.groups g).blockBitmap = true)
    (hclear : firstClear (v.fs.disk (v.fs.groups g).blockBitmap) v.fs.blockSize = some bit)
    (hread : readable ((v.fs.inodesPerGroup * g + bit) % 2 ^ 32) = true) :
    ext2AllocBlockOn readable v.fs = ext2AllocBlock v.fs := by
  simp only [ext2AllocBlockOn, ext2AllocBlock, h, if_pos hmap, bitAlloc, hclear, if_pos hread]

/-- A block or the bitmap that cannot be read, or bit 0, makes the call fail. -/
lemma ext2AllocBlockOn_error
    (hclear : firstClear (v.fs.disk (v.fs.groups g).blockBitmap) v.fs.blockSize = some bit)
    (hbad : ¬ (readable (v.fs.groups g).blockBitmap = true ∧ bit ≠ 0 ∧
      readable ((v.fs.inodesPerGroup * g + bit) % 2 ^ 32) = true)) :
    (ext2AllocBlockOn readable v.fs).1 = .error .null := by
  by_cases hmap : readable (v.fs.groups g).blockBitmap = true
  · by_cases hzero : bit = 0
    · simp [ext2AllocBlockOn, h, hmap, bitAlloc, hclear, hzero]
    · have hread : ¬ readable ((v.fs.inodesPerGroup * g + bit) % 2 ^ 32) = true :=
        fun hread => hbad ⟨hmap, hzero, hread⟩
      simp only [ext2AllocBlockOn, h, if_pos hmap, bitAlloc, hclear, if_neg hzero, if_neg hread]
  · simp only [ext2AllocBlockOn, h, if_neg hmap]
end

lemma block_of_newBlock (hv : Sound v) {x : ℕ} {fs' : Fs} (h : chosenGroup v.fs = some g)
    (hclear : firstClear (v.fs.disk (v.fs.groups g).blockBitmap) v.fs.blockSize = some bit)
    (hres : ext2AllocBlock v.fs = (.ok x, fs')) (hnew : NewBlock v.fs fs' x) :
    x = v.fs.blocksPerGroup * g + bit := by
  obtain ⟨hx, hbefore, hafter⟩ := hnew
  obtain ⟨group, hchosen, hfirst, hmap⟩ := blockBit_of_alloc hres hbefore hafter
  rw [h, some.injEq] at hchosen
  subst hchosen
  rw [hclear, some.injEq] at hfirst
  have hgroup := hv.geometry.distinct _ (hv.geometry.group_lt hx) g (chosenGroup_lt h) hmap
  rw [← hgroup, hfirst, Nat.div_add_mod]

lemma place_in_group {n : ℕ} (g : ℕ) (h : bit < n) :
    (n * g + bit) / n = g ∧ (n * g + bit) % n = bit :=
  ⟨by rw [Nat.mul_add_div (by omega), Nat.div_eq_of_lt h, add_zero],
    by rw [Nat.mul_add_mod, Nat.mod_eq_of_lt h]⟩

lemma Sound.ne_bitmap (hv : Sound v) (hg : g < v.fs.numGroups)
    (hlt : bit < v.fs.blockSize * 8) (hbit : v.fs.blockBit g bit = false) {h : ℕ}
    (hh : h < v.fs.numGroups) : (v.fs.groups h).blockBitmap ≠ v.fs.blocksPerGroup * g + bit ∧
      (v.fs.groups h).inodeBitmap ≠ v.fs.blocksPerGroup * g + bit := by
  have hin := (hv.blockPadding g hg bit hlt hbit).1
  obtain ⟨hdiv, hmod⟩ := place_in_group g hin
  have hused := hv.bitmapsUsed h hh (v.fs.blocksPerGroup * g + bit)
  rw [hdiv, hmod, hbit] at hused
  constructor
  · intro heq
    exact absurd (hused (.inl heq.symm)) (by decide)
  · intro heq
    exact absurd (hused (.inr heq.symm)) (by decide)

lemma newBlock_of_ready (hv : Sound v) (hg : g < v.fs.numGroups)
    (hclear : firstClear (v.fs.disk (v.fs.groups g).blockBitmap) v.fs.blockSize = some bit)
    {fs' : Fs} (hsize : fs'.blockSize = v.fs.blockSize) (hnum : fs'.numGroups = v.fs.numGroups)
    (hgroups : fs'.groups = update v.fs.groups g { v.fs.groups g with
      freeBlockCount := (v.fs.groups g).freeBlockCount - 1 })
    (hdisk : fs'.disk = update (update v.fs.disk (v.fs.groups g).blockBitmap
      (setBit (v.fs.disk (v.fs.groups g).blockBitmap) bit)) (v.fs.blocksPerGroup * g + bit)
        fun _ => 0#8) :
    NewBlock v.fs fs' (v.fs.blocksPerGroup * g + bit) ∧ Counted { v with fs := fs' } := by
  obtain ⟨hlt, hbit, -⟩ := firstClear_some hclear
  obtain ⟨hin, htotal⟩ := hv.blockPadding g hg bit hlt hbit
  obtain ⟨hdiv, hmod⟩ := place_in_group g hin
  refine ⟨⟨htotal, ?_, ?_⟩, ⟨?_, ?_⟩⟩
  · rw [hdiv, hmod]
    exact hbit
  · rw [hdiv, hmod, Fs.blockBit, hgroups, (groups_of_alloc v.fs g g).1, hdisk,
      update_of_ne (hv.ne_bitmap hg hlt hbit hg).1, update_self,
      bitAt_setBit (by norm_num)]
    simp
  · simp only [hsize, hnum, hgroups, hdisk]
    intro k hk
    rw [(groups_of_alloc v.fs g k).1, update_of_ne (hv.ne_bitmap hg hlt hbit hk).1]
    by_cases hkg : k = g
    · subst hkg
      rw [update_self, update_self, clearCount_setBit (by norm_num) hlt hbit, hv.blockCounts k hk]
    · have hmaps : (v.fs.groups k).blockBitmap ≠ (v.fs.groups g).blockBitmap :=
        fun heq => hkg (hv.geometry.distinct k hk g hg heq)
      rw [update_of_ne hmaps, update_of_ne hkg, hv.blockCounts k hk]
  · simp only [hsize, hnum, hgroups, hdisk]
    intro k hk
    rw [(groups_of_alloc v.fs g k).2, update_of_ne (hv.ne_bitmap hg hlt hbit hk).2,
      update_of_ne (hv.geometry.apart k hk g hg)]
    exact hv.inodeCounts k hk

lemma allocatesBlock_iff (hv : Sound v) : AllocatesBlock readable v ↔ BlockReady readable v.fs := by
  cases hchosen : chosenGroup v.fs with
  | none =>
    refine iff_of_true (allocatesBlock_none hv.toCounted hchosen) ?_
    simp [BlockReady, hchosen]
  | some g =>
    obtain ⟨bit, hclear⟩ := firstClear_of_chosen hv.toCounted hchosen
    have hfree := freeBlock_of_firstClear (chosenGroup_lt hchosen) hclear
    have hready : BlockReady readable v.fs ↔ readable (v.fs.groups g).blockBitmap = true ∧
        bit ≠ 0 ∧ (v.fs.inodesPerGroup * g + bit) % 2 ^ 32 = v.fs.blocksPerGroup * g + bit ∧
        readable (v.fs.blocksPerGroup * g + bit) = true := by
      simp [BlockReady, hchosen, hclear]
    rw [hready]
    by_cases hgood : readable (v.fs.groups g).blockBitmap = true ∧ bit ≠ 0 ∧
        readable ((v.fs.inodesPerGroup * g + bit) % 2 ^ 32) = true
    · obtain ⟨hmap, hne, hread⟩ := hgood
      obtain ⟨fs', hres, hsize, -, hnum, hgroups, hdisk⟩ :=
        ext2AllocBlock_of_clear hchosen rfl hclear hne rfl
      rw [AllocatesBlock, ext2AllocBlockOn_eq hchosen hmap hclear hread, hres]
      constructor
      · intro halloc
        obtain ⟨x, hx, hnew⟩ := halloc.found.mpr hfree
        rw [Except.ok.injEq] at hx
        subst hx
        have hplace := block_of_newBlock hv hchosen hclear hres hnew
        exact ⟨hmap, hne, hplace, hplace ▸ hread⟩
      · rintro ⟨-, -, hplace, -⟩
        rw [hplace] at hdisk ⊢
        obtain ⟨hnew, hcounted⟩ :=
          newBlock_of_ready hv (chosenGroup_lt hchosen) hclear hsize hnum hgroups hdisk
        refine ⟨iff_of_true ⟨_, rfl, hnew⟩ hfree, ?_, fun _ _ => hcounted⟩
        intro e he
        cases he
    · refine iff_of_false
        (not_allocates_of_error hfree (ext2AllocBlockOn_error hchosen hclear hgood)) ?_
      rintro ⟨hmap, hne, hplace, hread⟩
      exact hgood ⟨hmap, hne, hplace ▸ hread⟩
end Blocks
section Inodes
variable {readable : ℕ → Bool} {v : Volume} {mode uid gid rdev time : ℕ} {bit : ℕ}

lemma freeInode_of_firstClear (hg : g < v.fs.numGroups)
    (hclear : firstClear (v.fs.disk (v.fs.groups g).inodeBitmap) v.fs.blockSize = some bit) :
    FreeInode v.fs := by
  obtain ⟨hlt, hbit, -⟩ := firstClear_some hclear
  exact ⟨g, hg, bit, hlt, hbit⟩

lemma allocatesInode_none (hv : Counted v) (h : chosenInodeGroup v = none) :
    AllocatesInode readable v mode uid gid rdev time := by
  have hres : allocInode readable v mode uid gid rdev time = (.error .enospc, v) := by
    simp [allocInode, h]
  rw [AllocatesInode, hres]
  refine ⟨iff_of_false ?_ (not_freeInode_of_none hv h), fun _ _ => Unchanged.refl v, ?_⟩
  · rintro ⟨x, hx, -⟩
    cases hx
  · intro x hx
    cases hx

/-- A block of the table or the bitmap that cannot be read, or bit 0, makes the call fail. -/
lemma allocInode_error (h : chosenInodeGroup v = some g)
    (hclear : firstClear (v.fs.disk (v.fs.groups g).inodeBitmap) v.fs.blockSize = some bit)
    (hbad : ¬ (readable (v.fs.groups g).inodeBitmap = true ∧ bit ≠ 0 ∧
      readable (v.slot g bit).1 = true)) :
    ∃ e, (allocInode readable v mode uid gid rdev time).1 = .error e := by
  by_cases hmap : readable (v.fs.groups g).inodeBitmap = true
  · by_cases hzero : bit = 0
    · exact ⟨.enospc, by simp [allocInode, h, hmap, bitAlloc, hclear, hzero]⟩
    · have hread : ¬ readable (v.slot g bit).1 = true := fun hread => hbad ⟨hmap, hzero, hread⟩
      refine ⟨.eio, ?_⟩
      simp only [allocInode, h, if_pos hmap, bitAlloc, hclear, if_neg hzero, if_neg hread]
  · refine ⟨.enospc, ?_⟩
    simp only [allocInode, h, if_neg hmap]

lemma Sound.bit_lt (hv : Sound v) (hg : g < v.fs.numGroups)
    (hclear : firstClear (v.fs.disk (v.fs.groups g).inodeBitmap) v.fs.blockSize = some bit) :
    bit < v.fs.inodesPerGroup := by
  obtain ⟨hlt, hbit, -⟩ := firstClear_some hclear
  by_contra hge
  have hset := hv.inodePadding g hg bit (by omega) hlt
  rw [Fs.inodeBit, hbit] at hset
  cases hset

lemma newInode_of_alloc (hv : Sound v) {v' : Volume} {ino : ℕ}
    (hres : allocInode readable v mode uid gid rdev time = (.ok ino, v')) :
    NewInode v.fs v'.fs ino ∧ Counted v' := by
  obtain ⟨g, bit, h, hclear, -, hino, rfl⟩ := allocInode_ok hres
  have hg := chosenInodeGroup_lt h
  obtain ⟨hlt, hbit, -⟩ := firstClear_some hclear
  have hin := hv.bit_lt hg hclear
  rw [Nat.mod_eq_of_lt (hv.number_lt hg hin)] at hino
  have hdiv : (ino - 1) / v.fs.inodesPerGroup = g := by
    rw [hino, Nat.add_sub_cancel, Nat.mul_add_div (by omega), Nat.div_eq_of_lt hin, add_zero]
  have hmod : (ino - 1) % v.fs.inodesPerGroup = bit := by
    rw [hino, Nat.add_sub_cancel, Nat.mul_add_mod, Nat.mod_eq_of_lt hin]
  refine ⟨⟨by omega, by rw [hdiv]; exact hg, ?_, ?_⟩, ⟨?_, ?_⟩⟩
  · rw [hdiv, hmod]
    exact hbit
  · rw [hdiv, hmod]
    simp only [Fs.inodeBit]
    rw [update_of_ne (hv.inodeBitmaps g hg g hg bit hin).symm, update_self,
      bitAt_setBit (by norm_num)]
    simp
  · intro k hk
    have hk' : k < v.fs.numGroups := hk
    simp only
    rw [update_of_ne (hv.blockBitmaps g hg k hk' bit hin).symm,
      update_of_ne (hv.geometry.apart g hg k hk').symm]
    exact hv.blockCounts k hk'
  · intro k hk
    have hk' : k < v.fs.numGroups := hk
    simp only
    rw [update_of_ne (hv.inodeBitmaps g hg k hk' bit hin).symm]
    by_cases hkg : k = g
    · subst hkg
      rw [update_self, update_self, clearCount_setBit (by norm_num) hlt hbit, hv.inodeCounts k hk']
    · have hmaps : (v.fs.groups k).inodeBitmap ≠ (v.fs.groups g).inodeBitmap :=
        fun heq => hkg (hv.inodeDistinct k hk' g hg heq)
      rw [update_of_ne hmaps, update_of_ne hkg, hv.inodeCounts k hk']

lemma allocatesInode_iff (hv : Sound v) :
    AllocatesInode readable v mode uid gid rdev time ↔ InodeReady readable v := by
  cases hchosen : chosenInodeGroup v with
  | none =>
    refine iff_of_true (allocatesInode_none hv.toCounted hchosen) ?_
    simp [InodeReady, hchosen]
  | some g =>
    obtain ⟨bit, hclear⟩ := firstClear_of_chosenInode hv.toCounted hchosen
    have hfree := freeInode_of_firstClear (chosenInodeGroup_lt hchosen) hclear
    have hready : InodeReady readable v ↔ readable (v.fs.groups g).inodeBitmap = true ∧
        bit ≠ 0 ∧ readable (v.slot g bit).1 = true := by
      simp [InodeReady, hchosen, hclear]
    rw [hready]
    by_cases hgood : readable (v.fs.groups g).inodeBitmap = true ∧ bit ≠ 0 ∧
        readable (v.slot g bit).1 = true
    · refine iff_of_true ?_ hgood
      obtain ⟨hmap, hne, hread⟩ := hgood
      obtain ⟨ino, v', hres⟩ :
          ∃ ino v', allocInode readable v mode uid gid rdev time = (.ok ino, v') := by
        simp only [allocInode, hchosen, if_pos hmap, bitAlloc, hclear, if_neg hne, if_pos hread]
        exact ⟨_, _, rfl⟩
      obtain ⟨hnew, hcounted⟩ := newInode_of_alloc hv hres
      rw [AllocatesInode, hres]
      refine ⟨iff_of_true ⟨ino, rfl, hnew⟩ hfree, ?_, fun _ _ => hcounted⟩
      intro e he
      cases he
    · have hfails : ∃ e, (allocInode readable v mode uid gid rdev time).1 = .error e :=
        allocInode_error hchosen hclear hgood
      obtain ⟨e, he⟩ := hfails
      exact iff_of_false (not_allocates_of_error hfree he) hgood
end Inodes

/-- Both allocations are exact when the first clear bit of the chosen group is not bit 0, a block
number comes out in place, and the blocks in question can be read. -/
theorem allocation_exact (readable : ℕ → Bool) {v : Volume} (hv : Sound v)
    (mode uid gid rdev time : ℕ) :
    (AllocatesBlock readable v ↔ BlockReady readable v.fs) ∧
      (AllocatesInode readable v mode uid gid rdev time ↔ InodeReady readable v) :=
  ⟨allocatesBlock_iff hv, allocatesInode_iff hv⟩

def allBut (k : ℕ) : ℕ → Byte := clearBit (fun _ => 0xFF#8) k

lemma bitAt_allBut (k i : ℕ) : bitAt (allBut k) i = !decide (i = k) := by
  rw [allBut, bitAt_clearBit (by norm_num), bitAt, getLsbD_full (Nat.mod_lt i (by norm_num)),
    Bool.true_and]

lemma clearCount_allBut {n : ℕ} (hk : k < n) : clearCount (allBut k) n = 1 := by
  rw [clearCount, Finset.card_eq_one]
  refine ⟨k, ?_⟩
  ext i
  simp only [Finset.mem_filter, Finset.mem_range, bitAt_allBut, Finset.mem_singleton,
    Bool.not_eq_false', decide_eq_true_eq]
  constructor
  · exact And.right
  · rintro rfl
    exact ⟨hk, rfl⟩

lemma firstClear_allBut (hk : k < 8192) : firstClear (allBut k) 1024 = some k := by
  refine firstClear_eq (by omega) (by simp [bitAt_allBut]) ?_
  intro i hi
  simp [bitAt_allBut, hi.ne]

def oneFree (k m : ℕ) : Volume where
  fs :=
    { blockSize := 1024
      totalBlocks := 64
      blocksPerGroup := 64
      inodesPerGroup := 8
      numGroups := 1
      totalUnallocBlocks := 1
      groups := fun _ => ⟨3, 4, 5, 1⟩
      disk := fun b => if b = 3 then allBut k else if b = 4 then allBut m else fun _ => 0#8 }
  freeInodeCount := fun _ => 1
  usedDirsCount := fun _ => 1
  totalUnallocInodes := 1
  logInodeSize := 7
  logInodesPerBlock := 3
  logInodesPerGroup := 3

lemma oneFree_blockBitmap (k m g : ℕ) :
    (oneFree k m).fs.disk ((oneFree k m).fs.groups g).blockBitmap = allBut k := rfl

lemma oneFree_inodeBitmap (k m g : ℕ) :
    (oneFree k m).fs.disk ((oneFree k m).fs.groups g).inodeBitmap = allBut m := rfl

lemma oneFree_blockSize (k m : ℕ) : (oneFree k m).fs.blockSize = 1024 := rfl

lemma oneFree_slot (k m : ℕ) {i : ℕ} (hi : i < 8) : ((oneFree k m).slot g i).1 = 5 := by
  rw [slot_eq]
  show 5 + i / 8 = 5
  omega

lemma oneFree_group {h : ℕ} (hg : g < (oneFree k m).fs.numGroups)
    (hh : h < (oneFree k m).fs.numGroups) : g = h := by
  have hg1 : g < 1 := hg
  have hh1 : h < 1 := hh
  omega

lemma oneFree_tables (k m : ℕ) : Tables (oneFree k m) where
  perGroup := by
    have hper : (oneFree k m).fs.inodesPerGroup = 8 := rfl
    have hlog : (oneFree k m).logInodesPerGroup = 3 := rfl
    rw [hper, hlog]
    norm_num
  perBlock := by
    have hsize : (oneFree k m).logInodeSize = 7 := rfl
    have hlog : (oneFree k m).logInodesPerBlock = 3 := rfl
    rw [oneFree_blockSize, hsize, hlog]
    norm_num
  inodeSize := le_rfl
  inodes := by
    have hcount : (oneFree k m).fs.numGroups * (oneFree k m).fs.inodesPerGroup = 8 := rfl
    rw [hcount]
    norm_num
  tables := fun _ hg _ hh _ _ _ _ _ => oneFree_group hg hh
  inodeBitmaps := by
    intro g _ h _ i hi
    rw [oneFree_slot k m hi]
    show 5 ≠ 4
    decide
  blockBitmaps := by
    intro g _ h _ i hi
    rw [oneFree_slot k m hi]
    show 5 ≠ 3
    decide

lemma oneFree_counted (hk : k < 64) (hm : m < 8) : Counted (oneFree k m) where
  blockCounts := by
    intro g _
    rw [oneFree_blockBitmap, oneFree_blockSize, clearCount_allBut (by omega)]
    rfl
  inodeCounts := by
    intro g _
    rw [oneFree_inodeBitmap, oneFree_blockSize, clearCount_allBut (by omega)]
    rfl

lemma oneFree_geometry (k m : ℕ) : Geometry (oneFree k m).fs where
  power := ⟨6, rfl⟩
  fits := by
    show 64 ≤ 1024 * 8
    norm_num
  cover := le_rfl
  distinct := fun _ hg _ hh _ => oneFree_group hg hh
  apart := by
    intro g _ h _
    show 4 ≠ 3
    decide

lemma oneFree_sound (hk : 5 ≤ k ∨ k = 0) (hk' : k < 64) (hm : m < 8) : Sound (oneFree k m) where
  toTables := oneFree_tables k m
  toCounted := oneFree_counted hk' hm
  geometry := oneFree_geometry k m
  inodePadding := by
    intro g _ i hlo _
    have hlo' : 8 ≤ i := hlo
    rw [Fs.inodeBit, oneFree_inodeBitmap, bitAt_allBut, Bool.not_eq_true', decide_eq_false_iff_not]
    omega
  blockPadding := by
    intro g hg i _ hclear
    have hzero : g = 0 := Nat.lt_one_iff.mp hg
    rw [Fs.blockBit, oneFree_blockBitmap, bitAt_allBut, Bool.not_eq_false',
      decide_eq_true_eq] at hclear
    have hper : (oneFree k m).fs.blocksPerGroup = 64 := rfl
    have htotal : (oneFree k m).fs.totalBlocks = 64 := rfl
    rw [hper, htotal]
    omega
  bitmapsUsed := by
    intro g _ x hx
    have hx' : x = 3 ∨ x = 4 := hx
    have hper : (oneFree k m).fs.blocksPerGroup = 64 := rfl
    rw [Fs.blockBit, oneFree_blockBitmap, bitAt_allBut, Bool.not_eq_true', decide_eq_false_iff_not,
      hper]
    omega
  inodeDistinct := fun _ hg _ hh _ => oneFree_group hg hh

lemma oneFree_ready (hk : k < 64) (hkne : k ≠ 0) (hm : m < 8) (hmne : m ≠ 0) :
    BlockReady (· < 64) (oneFree k m).fs ∧ InodeReady (· < 64) (oneFree k m) := by
  have hchosen : chosenGroup (oneFree k m).fs = some 0 := rfl
  have hinode : chosenInodeGroup (oneFree k m) = some 0 := rfl
  constructor
  · intro g hg
    rw [hchosen, mem_some_iff] at hg
    subst hg
    refine ⟨rfl, fun bit hbit => ?_⟩
    rw [oneFree_blockBitmap, oneFree_blockSize, firstClear_allBut (by omega), mem_some_iff] at hbit
    subst hbit
    rw [mul_zero, mul_zero, decide_eq_true_iff]
    omega
  · intro g hg
    rw [hinode, mem_some_iff] at hg
    subst hg
    refine ⟨rfl, fun bit hbit => ?_⟩
    rw [oneFree_inodeBitmap, oneFree_blockSize, firstClear_allBut (by omega), mem_some_iff] at hbit
    subst hbit
    rw [oneFree_slot k m hm]
    exact ⟨hmne, rfl⟩

theorem one_free_allocated : Sound (oneFree 8 3) ∧ AllocatesBlock (· < 64) (oneFree 8 3) ∧
      AllocatesInode (· < 64) (oneFree 8 3) 0o100644 0 0 0 1000 := by
  have hsound : Sound (oneFree 8 3) := oneFree_sound (by norm_num) (by norm_num) (by norm_num)
  obtain ⟨hblock, hinode⟩ := allocation_exact (· < 64) hsound 0o100644 0 0 0 1000
  obtain ⟨hready, hready'⟩ := oneFree_ready (k := 8) (m := 3) (by norm_num) (by norm_num)
    (by norm_num) (by norm_num)
  exact ⟨hsound, hblock.mpr hready, hinode.mpr hready'⟩

/-- The last free inode or block has bit 0. -/
theorem free_bit_zero_lost : (Sound (oneFree 8 0) ∧ FreeInode (oneFree 8 0).fs ∧
      ∃ v', allocInode (· < 64) (oneFree 8 0) 0o100644 0 0 0 1000 = (.error .enospc, v') ∧
        v'.fs.inodeBit 0 0 = true ∧ v'.freeInodeCount 0 = 1) ∧
    Sound (oneFree 0 3) ∧ FreeBlock (oneFree 0 3).fs ∧
      ∃ fs', ext2AllocBlockOn (· < 64) (oneFree 0 3).fs = (.error .null, fs') ∧
        fs'.blockBit 0 0 = true ∧ (fs'.groups 0).freeBlockCount = 1 := by
  have hinode : firstClear ((oneFree 8 0).fs.disk ((oneFree 8 0).fs.groups 0).inodeBitmap)
      (oneFree 8 0).fs.blockSize = some 0 := by
    rw [oneFree_inodeBitmap, oneFree_blockSize, firstClear_allBut (by norm_num)]
  have hblock : firstClear ((oneFree 0 3).fs.disk ((oneFree 0 3).fs.groups 0).blockBitmap)
      (oneFree 0 3).fs.blockSize = some 0 := by
    rw [oneFree_blockBitmap, oneFree_blockSize, firstClear_allBut (by norm_num)]
  have hset (data : ℕ → Byte) : bitAt (setBit data 0) 0 = true := by
    rw [bitAt_setBit (by norm_num)]
    simp
  have hchosen : chosenInodeGroup (oneFree 8 0) = some 0 := rfl
  have hgroup : chosenGroup (oneFree 0 3).fs = some 0 := rfl
  have hmap : decide (((oneFree 8 0).fs.groups 0).inodeBitmap < 64) = true := rfl
  have hmap' : decide (((oneFree 0 3).fs.groups 0).blockBitmap < 64) = true := rfl
  refine ⟨⟨oneFree_sound (by norm_num) (by norm_num) (by norm_num),
    freeInode_of_firstClear (by decide) hinode, ?_⟩,
    oneFree_sound (by norm_num) (by norm_num) (by norm_num),
    freeBlock_of_firstClear (by decide) hblock, ?_⟩
  · simp only [allocInode, hchosen, if_pos hmap, bitAlloc, hinode, if_true]
    refine ⟨_, rfl, ?_, rfl⟩
    simp only [Fs.inodeBit, update_self]
    exact hset _
  · simp only [ext2AllocBlockOn, hgroup, if_pos hmap', bitAlloc, hblock, if_true]
    refine ⟨_, rfl, ?_, rfl⟩
    simp only [Fs.blockBit, update_self]
    exact hset _

end Gloworm.Ext2Inode
