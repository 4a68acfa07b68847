import Gloworm.Ext2InodeModel

/-! A new ext2 inode and a written one as they are read back, beside the other inodes. -/
namespace Gloworm.Ext2Inode
open Function Word Bitmap ByteOrder Ext2Alloc

structure Created (inode : Inode) (mode uid gid rdev time : ℕ) : Prop where
  mode_eq : inode.mode = mode
  uid_eq : inode.uid = uid
  gid_eq : inode.gid = gid
  size_eq : inode.size = 0
  mtime_eq : inode.mtime = time
  rdev_eq : isDev mode → inode.rdev = rdev
  blocks_eq : isDev mode = false → ∀ j < 15, inode.blocks j = 0

def SameInode (v v' : Volume) (ino : ℕ) : Prop :=
  ∀ k < 2 ^ v.logInodeSize,
    v'.fs.disk (getInodeBlockAndOffset v ino).1 ((getInodeBlockAndOffset v ino).2 + k) =
      v.fs.disk (getInodeBlockAndOffset v ino).1 ((getInodeBlockAndOffset v ino).2 + k)

lemma Stored.created_iff {inode : Inode} {mode uid gid rdev time : ℕ}
    (h : Stored inode mode uid gid rdev time) :
    Created inode mode uid gid rdev time ↔ swap16 gid = gid ∧ (isDev mode → rdev = 0) := by
  constructor
  · intro hcreated
    refine ⟨h.gid_eq.symm.trans hcreated.gid_eq, ?_⟩
    intro hdev
    exact (hcreated.rdev_eq hdev).symm.trans h.rdev_eq
  · rintro ⟨hgid, hrdev⟩
    refine ⟨h.mode_eq, h.uid_eq, h.gid_eq.trans hgid, h.size_eq, h.mtime_eq, ?_, ?_⟩
    · intro hdev
      rw [h.rdev_eq, hrdev hdev]
    · intro hdev j hj
      have hchr : isChr mode = false := (Bool.or_eq_false_iff.mp hdev).1
      rw [h.blocks_eq j hj, hchr]
      simp

section Alloc
variable {readable : ℕ → Bool} {v v' : Volume} {mode uid gid rdev time ino : ℕ}

lemma readInode_of_alloc (hv : Tables v) (hfree : FreeInGroup v) (hmode : mode < 2 ^ 16)
    (huid : uid < 2 ^ 16) (hgid : gid < 2 ^ 16) (htime : time < 2 ^ 32)
    (h : allocInode readable v mode uid gid rdev time = (.ok ino, v')) :
    Stored (readInode v' ino) mode uid gid rdev time := by
  obtain ⟨group, bit, hchosen, hclear, -, hino, hv'⟩ := allocInode_ok h
  have hgroup := chosenInodeGroup_lt hchosen
  have hbit := hfree group hchosen bit hclear
  rw [Nat.mod_eq_of_lt (hv.number_lt hgroup hbit)] at hino
  have hplace : getInodeBlockAndOffset v' ino = v.slot group bit := by
    rw [location_congr v (by rw [hv']) (by rw [hv']) (by rw [hv']) (by rw [hv']) (by rw [hv']),
      hino, location_of_bit hv hgroup hbit]
  rw [readInode, hplace, hv']
  simp only [update_self]
  exact loadInode_initInode hmode huid hgid htime

lemma sameInode_of_alloc (hv : Tables v) (hfree : FreeInGroup v)
    (h : allocInode readable v mode uid gid rdev time = (.ok ino, v')) {other : ℕ} (hpos : 1 ≤ other) (hle : other ≤ v.fs.numGroups * v.fs.inodesPerGroup)
    (hne : other ≠ ino) : SameInode v v' other := by
  obtain ⟨group, bit, hchosen, hclear, -, rfl, rfl⟩ := allocInode_ok h
  have hgroup := chosenInodeGroup_lt hchosen
  have hbit := hfree group hchosen bit hclear
  rw [Nat.mod_eq_of_lt (hv.number_lt hgroup hbit)] at hne
  obtain ⟨g, i, hg, hi, rfl⟩ := exists_bit hpos hle
  intro k hk
  rw [location_of_bit hv hg hi]
  have hmap := hv.inodeBitmaps g hg group hgroup i hi
  by_cases hblock : (v.slot g i).1 = (v.slot group bit).1
  · have heq := hv.tables g hg group hgroup i hi bit hbit hblock
    subst heq
    have hneBit : i ≠ bit := by
      rintro rfl
      exact hne rfl
    have hsize : 2 ^ 7 ≤ 2 ^ v.logInodeSize := Nat.pow_le_pow_right (by norm_num) hv.inodeSize
    have hapart := slot_apart hneBit hblock
    simp only [hblock, update_self]
    rw [initInode_apply (by omega), ← hblock, update_of_ne hmap]
  · simp only [update_of_ne hblock, update_of_ne hmap]
end Alloc

/-- A new inode is read back with 256 links, and otherwise as asked for exactly when its group has
two equal bytes and a device has number 0. -/
theorem new_inode_reads_back {readable : ℕ → Bool} {v v' : Volume} (hv : Tables v)
    (hfree : FreeInGroup v) {mode uid gid rdev time ino : ℕ}
    (hmode : mode < 2 ^ 16) (huid : uid < 2 ^ 16) (hgid : gid < 2 ^ 16) (htime : time < 2 ^ 32)
    (h : allocInode readable v mode uid gid rdev time = (.ok ino, v')) : (readInode v' ino).nlinks = 256 ∧
      (Created (readInode v' ino) mode uid gid rdev time ↔
        swap16 gid = gid ∧ (isDev mode → rdev = 0)) ∧
      ∀ other, 1 ≤ other → other ≤ v.fs.numGroups * v.fs.inodesPerGroup → other ≠ ino →
        SameInode v v' other := by
  have hstored := readInode_of_alloc hv hfree hmode huid hgid htime h
  refine ⟨hstored.nlinks_eq, hstored.created_iff, ?_⟩
  intro other hpos hle hne
  exact sameInode_of_alloc hv hfree h hpos hle hne

def smallVolume : Volume where
  fs :=
    { blockSize := 1024
      totalBlocks := 64
      blocksPerGroup := 64
      inodesPerGroup := 8
      numGroups := 1
      totalUnallocBlocks := 50
      groups := fun _ => ⟨3, 4, 5, 50⟩
      disk := fun b i => if b = 4 then if i = 0 then 0x07#8 else 0#8 else 0#8 }
  freeInodeCount := fun _ => 5
  usedDirsCount := fun _ => 1
  totalUnallocInodes := 5
  logInodeSize := 7
  logInodesPerBlock := 3
  logInodesPerGroup := 3

lemma smallVolume_slot {g i : ℕ} (hi : i < 8) : (smallVolume.slot g i).1 = 5 := by
  rw [slot_eq]
  show 5 + i / 8 = 5
  omega

lemma smallVolume_tables : Tables smallVolume where
  perGroup := rfl
  perBlock := rfl
  inodeSize := le_rfl
  inodes := by decide
  tables := by
    intro g hg h hh _ _ _ _ _
    have hg1 : g < 1 := hg
    have hh1 : h < 1 := hh
    omega
  inodeBitmaps := by
    intro g _ h _ i hi
    rw [smallVolume_slot hi]
    show 5 ≠ 4
    decide
  blockBitmaps := by
    intro g _ h _ i hi
    rw [smallVolume_slot hi]
    show 5 ≠ 3
    decide

lemma smallVolume_clear : chosenInodeGroup smallVolume = some 0 ∧
    firstClear (smallVolume.fs.disk (smallVolume.fs.groups 0).inodeBitmap)
      smallVolume.fs.blockSize = some 3 := by
  refine ⟨by decide, ?_⟩
  apply firstClear_eq
  · decide
  · decide
  · decide

lemma smallVolume_free : FreeInGroup smallVolume := by
  obtain ⟨hchosen, hclear⟩ := smallVolume_clear
  intro group hgroup bit hbit
  rw [hchosen, Option.mem_some_iff] at hgroup
  subst hgroup
  rw [hclear, Option.mem_some_iff] at hbit
  subst hbit
  decide

lemma smallVolume_alloc (mode uid gid rdev time : ℕ) :
    ∃ v', allocInode (fun _ => true) smallVolume mode uid gid rdev time = (.ok 4, v') := by
  obtain ⟨hchosen, hclear⟩ := smallVolume_clear
  simp only [allocInode, hchosen, bitAlloc, hclear, if_neg (by decide : ¬(3 = 0)), if_true]
  exact ⟨_, rfl⟩

theorem root_file_created :
    Tables smallVolume ∧ FreeInGroup smallVolume ∧
      ∃ v', allocInode (fun _ => true) smallVolume 0o100644 0 0 0 1000 = (.ok 4, v') ∧
      (readInode v' 4).nlinks = 256 ∧ Created (readInode v' 4) 0o100644 0 0 0 1000 := by
  obtain ⟨v', h⟩ := smallVolume_alloc 0o100644 0 0 0 1000
  obtain ⟨hlinks, hcreated, -⟩ := new_inode_reads_back smallVolume_tables smallVolume_free
    (by norm_num) (by norm_num) (by norm_num) (by norm_num) h
  exact ⟨smallVolume_tables, smallVolume_free, v', h, hlinks, hcreated.mpr ⟨rfl, fun _ => rfl⟩⟩

/-- Fields that are stored without exchanging bytes are read with it. -/
theorem terminal_misread : Tables smallVolume ∧ FreeInGroup smallVolume ∧
      ∃ v', allocInode (fun _ => true) smallVolume 0o020666 1 100 0x0502 1000 = (.ok 4, v') ∧
        (readInode v' 4).gid = 25600 ∧ (readInode v' 4).rdev = 0 ∧ (readInode v' 4).nlinks ≠ 1 := by
  obtain ⟨v', h⟩ := smallVolume_alloc 0o020666 1 100 0x0502 1000
  have hstored := readInode_of_alloc smallVolume_tables smallVolume_free (by norm_num) (by norm_num)
    (by norm_num) (by norm_num) h
  refine ⟨smallVolume_tables, smallVolume_free, v', h, hstored.gid_eq, hstored.rdev_eq, ?_⟩
  rw [hstored.nlinks_eq]
  decide

def extendShort (w : ℕ) : ℕ := if w < 2 ^ 15 then w else w + (2 ^ 32 - 2 ^ 16)

def Inode.withDevice (inode : Inode) : Inode :=
  if isDev inode.mode then
    { inode with blocks := update inode.blocks 0 (swap32 (extendShort inode.rdev)) }
  else inode

def storeInode (blockSize : ℕ) (block : Memory) (offset : ℕ) (inode : Inode) : Memory :=
  let block := store16 block offset (swap16 inode.mode)
  let block := store16 block (offset + 2) (swap16 inode.uid)
  let block := store32 block (offset + 4) (swap32 inode.size)
  let nblocks := (inode.size >>> 9 + if inode.size &&& (blockSize - 1) ≠ 0 then 1 else 0) % 2 ^ 32
  let block := store32 block (offset + 28) (swap32 nblocks)
  let block := store32 block (offset + 8) (swap32 inode.atime)
  let block := store32 block (offset + 16) (swap32 inode.mtime)
  let block := store32 block (offset + 12) (swap32 inode.ctime)
  let block := store16 block (offset + 24) (swap16 inode.gid)
  let block := store16 block (offset + 26) (swap16 inode.nlinks)
  (List.range 15).foldl
    (fun block j => store32 block (offset + 40 + 4 * j) (inode.withDevice.blocks j)) block

def writeInode (v : Volume) (inode : Inode) (ino : ℕ) : Volume :=
  let place := getInodeBlockAndOffset v ino
  { v with fs := { v.fs with
      disk := update v.fs.disk place.1
        (storeInode v.fs.blockSize (v.fs.disk place.1) place.2 inode) } }

/-- The geometry that places the inodes: powers of two, and tables of their own for the groups. -/
structure Geometry (v : Volume) : Prop where
  perGroup : v.fs.inodesPerGroup = 2 ^ v.logInodesPerGroup
  inodeSize : 7 ≤ v.logInodeSize
  inodes : v.fs.numGroups * v.fs.inodesPerGroup < 2 ^ 32
  tables : ∀ g < v.fs.numGroups, ∀ h < v.fs.numGroups, ∀ i < v.fs.inodesPerGroup,
    ∀ j < v.fs.inodesPerGroup, (v.slot g i).1 = (v.slot h j).1 → g = h

structure Fits (inode : Inode) : Prop where
  mode : inode.mode < 2 ^ 16
  uid : inode.uid < 2 ^ 16
  gid : inode.gid < 2 ^ 16
  nlinks : inode.nlinks < 2 ^ 16
  rdev : inode.rdev < 2 ^ 16
  size : inode.size < 2 ^ 32
  atime : inode.atime < 2 ^ 32
  mtime : inode.mtime < 2 ^ 32
  ctime : inode.ctime < 2 ^ 32
  blocks : ∀ j < 15, inode.blocks j < 2 ^ 32

structure Agree (a b : Inode) : Prop where
  mode : a.mode = b.mode
  uid : a.uid = b.uid
  gid : a.gid = b.gid
  nlinks : a.nlinks = b.nlinks
  size : a.size = b.size
  atime : a.atime = b.atime
  mtime : a.mtime = b.mtime
  ctime : a.ctime = b.ctime
  blocks : ∀ j < 15, a.blocks j = b.blocks j

@[simp] lemma withDevice_mode (inode : Inode) : inode.withDevice.mode = inode.mode := by
  rw [Inode.withDevice]
  split_ifs <;> rfl

lemma extendShort_lt {w : ℕ} (hw : w < 2 ^ 16) : extendShort w < 2 ^ 32 := by
  rw [extendShort]
  split_ifs <;> omega

lemma extendShort_mod {w : ℕ} (hw : w < 2 ^ 16) : extendShort w % 2 ^ 16 = w := by
  rw [extendShort]
  split_ifs <;> omega

lemma Fits.pointer_lt {inode : Inode} (h : Fits inode) {j : ℕ} (hj : j < 15) :
    inode.withDevice.blocks j < 2 ^ 32 := by
  rw [Inode.withDevice]
  split_ifs
  · cases j with
    | zero => exact swap32_lt _
    | succ j => exact h.blocks _ hj
  · exact h.blocks j hj

section Fields
variable {blockSize offset : ℕ} {block : Memory} {inode : Inode}

lemma storeInode_apply {i : ℕ} (h : i < offset ∨ offset + 100 ≤ i) :
    storeInode blockSize block offset inode i = block i := by
  simp only [storeInode]
  rw [storePointers_apply _ 15 (by omega)]
  simp (disch := omega) only [store16_apply, store32_apply]

lemma storePointers_fields (pointers : ℕ → ℕ) {a : ℕ} (h : a + 2 ≤ offset + 40) :
    load16 ((List.range 15).foldl
      (fun block j => store32 block (offset + 40 + 4 * j) (pointers j)) block) a =
      load16 block a := by
  apply load16_congr
  intro i _ _
  exact storePointers_apply pointers 15 (by omega)

lemma storePointers_words (pointers : ℕ → ℕ) {a : ℕ} (h : a + 4 ≤ offset + 40) :
    load32 ((List.range 15).foldl
      (fun block j => store32 block (offset + 40 + 4 * j) (pointers j)) block) a =
      load32 block a := by
  rw [load32, load32, storePointers_fields _ (by omega), storePointers_fields _ (by omega)]

lemma agree_storeInode (h : Fits inode) :
    Agree (loadInode (storeInode blockSize block offset inode) offset) inode.withDevice := by
  have hfields : inode.withDevice = { inode with blocks := inode.withDevice.blocks } := by
    rw [Inode.withDevice]
    split_ifs <;> rfl
  rw [hfields]
  constructor
  all_goals simp only [loadInode, storeInode]
  case blocks =>
    intro j hj
    exact load32_storePointers _ hj (h.pointer_lt hj)
  all_goals
    simp (disch := omega) only [storePointers_fields, storePointers_words, load16_store16_of_apart,
      load16_store32_of_apart, load32_store16_of_apart, load32_store32_of_apart]
  · rw [load16_store16 (swap16_lt _), swap16_swap16 h.mode]
  · rw [load16_store16 (swap16_lt _), swap16_swap16 h.uid]
  · rw [load16_store16 (swap16_lt _), swap16_swap16 h.gid]
  · rw [load16_store16 (swap16_lt _), swap16_swap16 h.nlinks]
  · rw [load32_store32 (swap32_lt _), swap32_swap32 h.size]
  · rw [load32_store32 (swap32_lt _), swap32_swap32 h.atime]
  · rw [load32_store32 (swap32_lt _), swap32_swap32 h.mtime]
  · rw [load32_store32 (swap32_lt _), swap32_swap32 h.ctime]

lemma rdev_storeInode (h : Fits inode) :
    (loadInode (storeInode blockSize block offset inode) offset).rdev =
      if isDev inode.mode then inode.rdev else 0 := by
  have hagree : Agree (loadInode (storeInode blockSize block offset inode) offset)
      inode.withDevice := agree_storeInode h
  have hmode := hagree.mode
  have hfirst := hagree.blocks 0 (by norm_num)
  rw [withDevice_mode] at hmode
  simp only [loadInode, mul_zero, add_zero] at hmode hfirst ⊢
  rw [hmode, hfirst, Inode.withDevice]
  split_ifs with hdev
  · simp only [update_self]
    rw [swap32_swap32 (extendShort_lt h.rdev), extendShort_mod h.rdev]
  · rfl
end Fields

variable {v : Volume}

lemma Geometry.location (hv : Geometry v) {group i : ℕ}
    (hgroup : group < v.fs.numGroups) (hi : i < v.fs.inodesPerGroup) :
    getInodeBlockAndOffset v (v.fs.inodesPerGroup * group + i + 1) = v.slot group i :=
  location_of_number hv.perGroup hgroup hi ((number_le hgroup hi).trans_lt hv.inodes)

lemma readInode_writeInode (v : Volume) (inode : Inode) (ino : ℕ) :
    readInode (writeInode v inode ino) ino =
      loadInode (storeInode v.fs.blockSize (v.fs.disk (getInodeBlockAndOffset v ino).1)
        (getInodeBlockAndOffset v ino).2 inode) (getInodeBlockAndOffset v ino).2 := by
  have hplace : getInodeBlockAndOffset (writeInode v inode ino) ino =
      getInodeBlockAndOffset v ino := location_congr v rfl rfl rfl rfl rfl ino
  rw [readInode, hplace]
  simp only [writeInode, update_self]

lemma sameInode_of_write (hv : Geometry v) (inode : Inode) {ino other : ℕ}
    (hpos : 1 ≤ ino) (hle : ino ≤ v.fs.numGroups * v.fs.inodesPerGroup) (hpos' : 1 ≤ other)
    (hle' : other ≤ v.fs.numGroups * v.fs.inodesPerGroup) (hne : other ≠ ino) :
    SameInode v (writeInode v inode ino) other := by
  obtain ⟨g, i, hg, hi, rfl⟩ := exists_bit hpos hle
  obtain ⟨h, j, hh, hj, rfl⟩ := exists_bit hpos' hle'
  intro k hk
  simp only [writeInode, hv.location hg hi, hv.location hh hj]
  by_cases hblock : (v.slot h j).1 = (v.slot g i).1
  · obtain rfl := hv.tables h hh g hg j hj i hi hblock
    have hneBit : j ≠ i := by
      rintro rfl
      exact hne rfl
    have hsize : 2 ^ 7 ≤ 2 ^ v.logInodeSize := Nat.pow_le_pow_right (by norm_num) hv.inodeSize
    have hapart := slot_apart hneBit hblock
    simp only [hblock, update_self]
    exact storeInode_apply (by omega)
  · rw [update_of_ne hblock]

lemma loadInode_congr {block block' : Memory} {offset : ℕ}
    (h : ∀ k < 100, block' (offset + k) = block (offset + k)) :
    Agree (loadInode block' offset) (loadInode block offset) ∧
      (loadInode block' offset).rdev = (loadInode block offset).rdev := by
  have h16 : ∀ o ≤ 98, load16 block' (offset + o) = load16 block (offset + o) := by
    intro o ho
    rw [load16, load16, h o (by omega), add_assoc, h (o + 1) (by omega)]
  have h32 : ∀ o ≤ 96, load32 block' (offset + o) = load32 block (offset + o) := by
    intro o ho
    rw [load32, load32, h16 o (by omega), add_assoc, h16 (o + 2) (by omega)]
  have hmode := h16 0 (by norm_num)
  rw [add_zero] at hmode
  constructor
  · constructor
    all_goals simp (disch := norm_num) only [loadInode, hmode, h16, h32]
    intro j hj
    rw [add_assoc]
    exact h32 (40 + 4 * j) (by omega)
  · simp only [loadInode, hmode, h32 40 (by norm_num)]

lemma SameInode.read {v' : Volume} {ino : ℕ} (h : SameInode v v' ino)
    (hplace : getInodeBlockAndOffset v' ino = getInodeBlockAndOffset v ino)
    (hsize : 7 ≤ v.logInodeSize) : Agree (readInode v' ino) (readInode v ino) ∧
      (readInode v' ino).rdev = (readInode v ino).rdev := by
  have hbytes : 2 ^ 7 ≤ 2 ^ v.logInodeSize := Nat.pow_le_pow_right (by norm_num) hsize
  rw [readInode, readInode, hplace]
  apply loadInode_congr
  intro k hk
  exact h k (by omega)

/-- An inode is read back as it was written, but for the device number of other files. -/
theorem inode_persists {v : Volume} (hv : Geometry v) {inode : Inode} (hinode : Fits inode)
    {ino : ℕ} (hpos : 1 ≤ ino) (hle : ino ≤ v.fs.numGroups * v.fs.inodesPerGroup) :
    Agree (readInode (writeInode v inode ino) ino) inode.withDevice ∧
      ((readInode (writeInode v inode ino) ino).rdev =
        if isDev inode.mode then inode.rdev else 0) ∧
      ∀ other, 1 ≤ other → other ≤ v.fs.numGroups * v.fs.inodesPerGroup → other ≠ ino →
        Agree (readInode (writeInode v inode ino) other) (readInode v other) ∧
          (readInode (writeInode v inode ino) other).rdev = (readInode v other).rdev := by
  rw [readInode_writeInode]
  refine ⟨agree_storeInode hinode, rdev_storeInode hinode, ?_⟩
  intro other hpos' hle' hne
  have hsame := sameInode_of_write hv inode hpos hle hpos' hle' hne
  exact hsame.read (location_congr v rfl rfl rfl rfl rfl other) hv.inodeSize

lemma smallVolume_geometry : Geometry smallVolume :=
  ⟨rfl, le_rfl, by decide, smallVolume_tables.tables⟩

def emptyVnode (mode rdev : ℕ) : Inode where
  mode := mode
  uid := 0
  size := 0
  atime := 0
  mtime := 0
  ctime := 0
  gid := 0
  nlinks := 1
  rdev := rdev
  blocks := fun _ => 0

lemma emptyVnode_fits {mode rdev : ℕ} (hmode : mode < 2 ^ 16) (hrdev : rdev < 2 ^ 16) :
    Fits (emptyVnode mode rdev) := by
  constructor
  case mode => exact hmode
  case rdev => exact hrdev
  all_goals simp [emptyVnode]

theorem terminal_persists :
    (readInode (writeInode smallVolume (emptyVnode 0o020666 0x0502) 3) 3).rdev = 0x0502 :=
  (inode_persists smallVolume_geometry (emptyVnode_fits (by norm_num) (by norm_num))
    (by decide) (by decide)).2.1

theorem regular_file_loses_rdev : Geometry smallVolume ∧ Fits (emptyVnode 0o100644 5) ∧
      (readInode (writeInode smallVolume (emptyVnode 0o100644 5) 3) 3).rdev ≠
        (emptyVnode 0o100644 5).rdev := by
  have hfits : Fits (emptyVnode 0o100644 5) := emptyVnode_fits (by norm_num) (by norm_num)
  refine ⟨smallVolume_geometry, hfits, ?_⟩
  rw [readInode_writeInode, rdev_storeInode hfits]
  decide

end Gloworm.Ext2Inode
