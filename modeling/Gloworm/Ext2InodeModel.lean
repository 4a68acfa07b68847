import Gloworm.ByteOrder
import Gloworm.Ext2Free

/-! The inodes of an ext2 file system: where they stand in the tables of the groups, how one is
allocated and filled in, and how it is read. -/
namespace Gloworm.Ext2Inode
open Function Word Bitmap ByteOrder Ext2Alloc List

def isDir (mode : ℕ) : Bool := mode &&& 0o170000 = 0o040000

def isChr (mode : ℕ) : Bool := mode &&& 0o170000 = 0o020000

def isBlk (mode : ℕ) : Bool := mode &&& 0o170000 = 0o060000

def isDev (mode : ℕ) : Bool := isChr mode || isBlk mode

structure Volume where
  fs : Fs
  freeInodeCount : ℕ → ℕ
  usedDirsCount : ℕ → ℕ
  totalUnallocInodes : ℕ
  logInodeSize : ℕ
  logInodesPerBlock : ℕ
  logInodesPerGroup : ℕ

def Volume.slot (v : Volume) (group groupInode : ℕ) : ℕ × ℕ :=
  ((v.fs.groups group).inodeTable + groupInode >>> v.logInodesPerBlock,
    alignRemainder groupInode (1 <<< v.logInodesPerBlock) <<< v.logInodeSize)

def getInodeBlockAndOffset (v : Volume) (ino : ℕ) : ℕ × ℕ :=
  let group := sub32 ino 1 >>> v.logInodesPerGroup
  if v.fs.numGroups ≤ group then (2 ^ 32 - 22, 0)
  else v.slot group (alignRemainder (sub32 ino 1) (1 <<< v.logInodesPerGroup))

/-- The group and the number of links are stored without an exchange of bytes. -/
def initInode (block : Memory) (offset mode uid gid rdev time : ℕ) : Memory :=
  let block := store16 block offset (swap16 mode)
  let block := store16 block (offset + 2) (swap16 uid)
  let block := store32 block (offset + 4) 0
  let block := store16 block (offset + 24) gid
  let block := store16 block (offset + 26) 1
  let block := store32 block (offset + 16) (swap32 time)
  let block := (List.range 15).foldl (fun block j => store32 block (offset + 40 + 4 * j) 0) block
  if isChr mode then store32 block (offset + 40) (swap16 rdev) else block

def chosenInodeGroup (v : Volume) : Option ℕ :=
  (List.range v.fs.numGroups).find? fun group => 0 < v.freeInodeCount group

/-- `alloc_inode`; `get_block` answers the blocks that are `readable`. When that of the new inode is
not, its bit is set and the counts are lowered all the same. -/
def allocInode (readable : ℕ → Bool) (v : Volume) (mode uid gid rdev time : ℕ) :
    Except AllocError ℕ × Volume :=
  match chosenInodeGroup v with
  | none => (.error .enospc, v)
  | some group =>
    if readable (v.fs.groups group).inodeBitmap then
      let res := bitAlloc v.fs (v.fs.groups group).inodeBitmap
      if res.1 = 0 then (.error .enospc, { v with fs := res.2 })
      else
        let place := v.slot group res.1
        let counted : Volume := { v with
          freeInodeCount := update v.freeInodeCount group (v.freeInodeCount group - 1)
          totalUnallocInodes := sub32 v.totalUnallocInodes 1
          usedDirsCount := if isDir mode
            then update v.usedDirsCount group ((v.usedDirsCount group + 1) % 2 ^ 16)
            else v.usedDirsCount
          fs := res.2 }
        if readable place.1 then
          (.ok ((v.fs.inodesPerGroup * group + res.1 + 1) % 2 ^ 32),
            { counted with fs := { res.2 with
              disk := update res.2.disk place.1
                (initInode (res.2.disk place.1) place.2 mode uid gid rdev time) } })
        else (.error .eio, counted)
    else (.error .enospc, v)

structure Inode where
  mode : ℕ
  uid : ℕ
  size : ℕ
  atime : ℕ
  mtime : ℕ
  ctime : ℕ
  gid : ℕ
  nlinks : ℕ
  rdev : ℕ
  blocks : ℕ → ℕ

def loadInode (block : Memory) (offset : ℕ) : Inode :=
  let mode := swap16 (load16 block offset)
  { mode := mode
    uid := swap16 (load16 block (offset + 2))
    size := swap32 (load32 block (offset + 4))
    atime := swap32 (load32 block (offset + 8))
    mtime := swap32 (load32 block (offset + 16))
    ctime := swap32 (load32 block (offset + 12))
    gid := swap16 (load16 block (offset + 24))
    nlinks := swap16 (load16 block (offset + 26))
    rdev := swap32 (if isDev mode then load32 block (offset + 40) else 0) % 2 ^ 16
    blocks := fun j => load32 block (offset + 40 + 4 * j) }

def readInode (v : Volume) (ino : ℕ) : Inode :=
  let place := getInodeBlockAndOffset v ino
  loadInode (v.fs.disk place.1) place.2

/-- The tables are blocks of their own, and inodes do not cross the end of a block. -/
structure Tables (v : Volume) : Prop where
  perGroup : v.fs.inodesPerGroup = 2 ^ v.logInodesPerGroup
  perBlock : v.fs.blockSize = 2 ^ (v.logInodeSize + v.logInodesPerBlock)
  inodeSize : 7 ≤ v.logInodeSize
  inodes : v.fs.numGroups * v.fs.inodesPerGroup < 2 ^ 32
  tables : ∀ g < v.fs.numGroups, ∀ h < v.fs.numGroups, ∀ i < v.fs.inodesPerGroup,
    ∀ j < v.fs.inodesPerGroup, (v.slot g i).1 = (v.slot h j).1 → g = h
  inodeBitmaps : ∀ g < v.fs.numGroups, ∀ h < v.fs.numGroups, ∀ i < v.fs.inodesPerGroup,
    (v.slot g i).1 ≠ (v.fs.groups h).inodeBitmap
  blockBitmaps : ∀ g < v.fs.numGroups, ∀ h < v.fs.numGroups, ∀ i < v.fs.inodesPerGroup,
    (v.slot g i).1 ≠ (v.fs.groups h).blockBitmap

lemma slot_eq (v : Volume) (group i : ℕ) :
    v.slot group i = ((v.fs.groups group).inodeTable + i / 2 ^ v.logInodesPerBlock,
      i % 2 ^ v.logInodesPerBlock * 2 ^ v.logInodeSize) := by
  simp only [Volume.slot, Nat.shiftRight_eq_div_pow, Nat.shiftLeft_eq, one_mul,
    alignRemainder_two_pow]

variable {i j group bit : ℕ} {v : Volume}

section Fields
variable {block : Memory} {offset mode uid gid rdev time : ℕ}

lemma storePointers_apply (pointers : ℕ → ℕ) (n : ℕ) (h : i < offset + 40 ∨ offset + 40 + 4 * n ≤ i) :
    (List.range n).foldl (fun block j => store32 block (offset + 40 + 4 * j) (pointers j)) block i =
      block i := by
  induction n with
  | zero => rfl
  | succ n ih =>
    rw [range_succ, foldl_append, foldl_cons, foldl_nil, store32_apply (by omega), ih (by omega)]

lemma load32_storePointers (pointers : ℕ → ℕ) {n : ℕ} (hj : j < n) (hword : pointers j < 2 ^ 32) :
    load32 ((List.range n).foldl
      (fun block j => store32 block (offset + 40 + 4 * j) (pointers j)) block)
      (offset + 40 + 4 * j) = pointers j := by
  induction n with
  | zero => omega
  | succ n ih =>
    rw [range_succ, foldl_append, foldl_cons, foldl_nil]
    rcases Nat.lt_or_ge j n with hlt | hge
    · rw [load32_store32_of_apart (by omega), ih hlt]
    · have heq : j = n := by omega
      subst heq
      exact load32_store32 hword

lemma initInode_apply (h : i < offset ∨ offset + 100 ≤ i) :
    initInode block offset mode uid gid rdev time i = block i := by
  simp only [initInode]
  split_ifs
  · rw [store32_apply (by omega), storePointers_apply (fun _ => 0) 15 (by omega), store32_apply (by omega),
      store16_apply (by omega), store16_apply (by omega), store32_apply (by omega),
      store16_apply (by omega), store16_apply (by omega)]
  · rw [storePointers_apply (fun _ => 0) 15 (by omega), store32_apply (by omega),
      store16_apply (by omega), store16_apply (by omega), store32_apply (by omega),
      store16_apply (by omega), store16_apply (by omega)]

lemma load16_initInode {a : ℕ} (hlo : offset ≤ a) (hhi : a + 2 ≤ offset + 40) :
    load16 (initInode block offset mode uid gid rdev time) a =
      load16 (store32 (store16 (store16 (store32 (store16 (store16 block offset (swap16 mode))
        (offset + 2) (swap16 uid)) (offset + 4) 0) (offset + 24) gid) (offset + 26) 1)
        (offset + 16) (swap32 time)) a := by
  apply load16_congr
  intro i _ _
  simp only [initInode]
  split_ifs
  · rw [store32_apply (by omega), storePointers_apply (fun _ => 0) 15 (by omega)]
  · rw [storePointers_apply (fun _ => 0) 15 (by omega)]

lemma load32_initInode {a : ℕ} (hlo : offset ≤ a) (hhi : a + 4 ≤ offset + 40) :
    load32 (initInode block offset mode uid gid rdev time) a =
      load32 (store32 (store16 (store16 (store32 (store16 (store16 block offset (swap16 mode))
        (offset + 2) (swap16 uid)) (offset + 4) 0) (offset + 24) gid) (offset + 26) 1)
        (offset + 16) (swap32 time)) a := by
  rw [load32, load32, load16_initInode hlo (by omega), load16_initInode (by omega) (by omega)]

lemma load32_pointer (hj : j < 15) :
    load32 (initInode block offset mode uid gid rdev time) (offset + 40 + 4 * j) =
      if isChr mode ∧ j = 0 then swap16 rdev else 0 := by
  have hswap := swap16_lt rdev
  simp only [initInode]
  split_ifs with hchr hboth hboth
  · obtain ⟨_, rfl⟩ := hboth
    exact load32_store32 (by omega)
  · have hne : j ≠ 0 := fun hj => hboth ⟨hchr, hj⟩
    rw [load32_store32_of_apart (by omega)]
    exact load32_storePointers (fun _ => 0) hj (by norm_num)
  · exact absurd hboth.1 hchr
  · exact load32_storePointers (fun _ => 0) hj (by norm_num)

lemma swap32_short {w : ℕ} (hw : w < 2 ^ 16) : swap32 w % 2 ^ 16 = 0 := by
  have hthird : w / 65536 = 0 := by omega
  have hfourth : w / 16777216 = 0 := by omega
  rw [swap32, hthird, hfourth]
  omega

structure Stored (inode : Inode) (mode uid gid rdev time : ℕ) : Prop where
  mode_eq : inode.mode = mode
  uid_eq : inode.uid = uid
  size_eq : inode.size = 0
  mtime_eq : inode.mtime = time
  gid_eq : inode.gid = swap16 gid
  nlinks_eq : inode.nlinks = 256
  rdev_eq : inode.rdev = 0
  blocks_eq : ∀ j < 15, inode.blocks j = if isChr mode ∧ j = 0 then swap16 rdev else 0

lemma loadInode_initInode (hmode : mode < 2 ^ 16) (huid : uid < 2 ^ 16) (hgid : gid < 2 ^ 16)
    (htime : time < 2 ^ 32) :
    Stored (loadInode (initInode block offset mode uid gid rdev time) offset)
      mode uid gid rdev time := by
  have hloaded : swap16 (load16 (initInode block offset mode uid gid rdev time) offset) = mode := by
    rw [load16_initInode le_rfl (by omega)]
    simp (disch := omega) only [load16_store32_of_apart, load16_store16_of_apart]
    rw [load16_store16 (swap16_lt mode), swap16_swap16 hmode]
  refine ⟨hloaded, ?_, ?_, ?_, ?_, ?_, ?_, fun j hj => load32_pointer hj⟩
  · simp only [loadInode]
    rw [load16_initInode (by omega) (by omega)]
    simp (disch := omega) only [load16_store32_of_apart, load16_store16_of_apart]
    rw [load16_store16 (swap16_lt uid), swap16_swap16 huid]
  · simp only [loadInode]
    rw [load32_initInode (by omega) (by omega)]
    simp (disch := omega) only [load32_store32_of_apart, load32_store16_of_apart]
    rw [load32_store32 (by norm_num)]
    rfl
  · simp only [loadInode]
    rw [load32_initInode (by omega) (by omega), load32_store32 (swap32_lt time),
      swap32_swap32 htime]
  · simp only [loadInode]
    rw [load16_initInode (by omega) (by omega)]
    simp (disch := omega) only [load16_store32_of_apart, load16_store16_of_apart]
    rw [load16_store16 hgid]
  · simp only [loadInode]
    rw [load16_initInode (by omega) (by omega)]
    simp (disch := omega) only [load16_store32_of_apart]
    rw [load16_store16 (by norm_num)]
    rfl
  · simp only [loadInode, hloaded]
    have hpointer : load32 (initInode block offset mode uid gid rdev time) (offset + 40) =
        if isChr mode ∧ (0 : ℕ) = 0 then swap16 rdev else 0 :=
      load32_pointer (j := 0) (by norm_num)
    rw [hpointer]
    split_ifs
    · exact swap32_short (swap16_lt rdev)
    · rfl
    · rfl
end Fields

lemma number_le {groups perGroup : ℕ} (hgroup : group < groups) (hbit : bit < perGroup) :
    perGroup * group + bit + 1 ≤ groups * perGroup := by
  have hnext : (group + 1) * perGroup ≤ groups * perGroup := Nat.mul_le_mul_right _ hgroup
  rw [Nat.succ_mul, mul_comm group] at hnext
  omega

lemma Tables.number_lt (hv : Tables v) (hgroup : group < v.fs.numGroups)
    (hbit : bit < v.fs.inodesPerGroup) : v.fs.inodesPerGroup * group + bit + 1 < 2 ^ 32 :=
  (number_le hgroup hbit).trans_lt hv.inodes

lemma location_of_number (hper : v.fs.inodesPerGroup = 2 ^ v.logInodesPerGroup)
    (hgroup : group < v.fs.numGroups) (hi : i < v.fs.inodesPerGroup)
    (hword : v.fs.inodesPerGroup * group + i + 1 < 2 ^ 32) :
    getInodeBlockAndOffset v (v.fs.inodesPerGroup * group + i + 1) = v.slot group i := by
  have hsub : sub32 (v.fs.inodesPerGroup * group + i + 1) 1 = v.fs.inodesPerGroup * group + i := by
    rw [sub32_of_le (by omega) (by omega)]
    omega
  have hdiv : (v.fs.inodesPerGroup * group + i) / 2 ^ v.logInodesPerGroup = group := by
    rw [← hper, Nat.mul_add_div (by omega), Nat.div_eq_of_lt hi, add_zero]
  have hmod : (v.fs.inodesPerGroup * group + i) % 2 ^ v.logInodesPerGroup = i := by
    rw [← hper, Nat.mul_add_mod, Nat.mod_eq_of_lt hi]
  simp only [getInodeBlockAndOffset, hsub, Nat.shiftRight_eq_div_pow, hdiv, Nat.shiftLeft_eq,
    one_mul, alignRemainder_two_pow, hmod]
  rw [if_neg (by omega)]

lemma location_of_bit (hv : Tables v) (hgroup : group < v.fs.numGroups)
    (hi : i < v.fs.inodesPerGroup) :
    getInodeBlockAndOffset v (v.fs.inodesPerGroup * group + i + 1) = v.slot group i :=
  location_of_number hv.perGroup hgroup hi (hv.number_lt hgroup hi)

lemma exists_bit {groups perGroup ino : ℕ} (hpos : 1 ≤ ino) (hle : ino ≤ groups * perGroup) :
    ∃ g i, g < groups ∧ i < perGroup ∧ ino = perGroup * g + i + 1 := by
  have hper : 0 < perGroup := by
    rcases Nat.eq_zero_or_pos perGroup with rfl | h
    · omega
    · exact h
  refine ⟨(ino - 1) / perGroup, (ino - 1) % perGroup, ?_, Nat.mod_lt _ hper, ?_⟩
  · apply Nat.div_lt_of_lt_mul
    rw [mul_comm]
    omega
  · rw [Nat.div_add_mod]
    omega

lemma location_congr (v : Volume) {v' : Volume} (hgroups : v'.fs.groups = v.fs.groups)
    (hnum : v'.fs.numGroups = v.fs.numGroups) (hsize : v'.logInodeSize = v.logInodeSize)
    (hblock : v'.logInodesPerBlock = v.logInodesPerBlock)
    (hgroup : v'.logInodesPerGroup = v.logInodesPerGroup) (ino : ℕ) :
    getInodeBlockAndOffset v' ino = getInodeBlockAndOffset v ino := by
  simp only [getInodeBlockAndOffset, Volume.slot, hgroups, hnum, hsize, hblock, hgroup]

lemma slot_apart (hne : i ≠ j) (hblock : (v.slot group i).1 = (v.slot group j).1) :
    (v.slot group i).2 + 2 ^ v.logInodeSize ≤ (v.slot group j).2 ∨
      (v.slot group j).2 + 2 ^ v.logInodeSize ≤ (v.slot group i).2 := by
  simp only [slot_eq] at hblock ⊢
  have hi := Nat.div_add_mod i (2 ^ v.logInodesPerBlock)
  have hj := Nat.div_add_mod j (2 ^ v.logInodesPerBlock)
  have hdiv : i / 2 ^ v.logInodesPerBlock = j / 2 ^ v.logInodesPerBlock := by omega
  rw [hdiv] at hi
  have hmod : i % 2 ^ v.logInodesPerBlock ≠ j % 2 ^ v.logInodesPerBlock := by omega
  rcases Nat.lt_or_gt_of_ne hmod with hlt | hlt
  · left
    rw [← Nat.succ_mul]
    exact Nat.mul_le_mul_right _ hlt
  · right
    rw [← Nat.succ_mul]
    exact Nat.mul_le_mul_right _ hlt

lemma allocInode_ok {readable : ℕ → Bool} {v' : Volume} {mode uid gid rdev time ino : ℕ}
    (h : allocInode readable v mode uid gid rdev time = (.ok ino, v')) :
    ∃ group bit, chosenInodeGroup v = some group ∧
      firstClear (v.fs.disk (v.fs.groups group).inodeBitmap) v.fs.blockSize = some bit ∧ bit ≠ 0 ∧
      ino = (v.fs.inodesPerGroup * group + bit + 1) % 2 ^ 32 ∧ v' = { v with
        freeInodeCount := update v.freeInodeCount group (v.freeInodeCount group - 1)
        totalUnallocInodes := sub32 v.totalUnallocInodes 1
        usedDirsCount := if isDir mode
          then update v.usedDirsCount group ((v.usedDirsCount group + 1) % 2 ^ 16)
          else v.usedDirsCount
        fs := { v.fs with
          disk := update (update v.fs.disk (v.fs.groups group).inodeBitmap
              (setBit (v.fs.disk (v.fs.groups group).inodeBitmap) bit)) (v.slot group bit).1
            (initInode (update v.fs.disk (v.fs.groups group).inodeBitmap
              (setBit (v.fs.disk (v.fs.groups group).inodeBitmap) bit) (v.slot group bit).1)
              (v.slot group bit).2 mode uid gid rdev time) } } := by
  rw [allocInode] at h
  cases hc : chosenInodeGroup v with
  | none => simp [hc] at h
  | some group =>
    simp only [hc] at h
    by_cases hmap : readable (v.fs.groups group).inodeBitmap = true
    · rw [if_pos hmap] at h
      cases hbit : firstClear (v.fs.disk (v.fs.groups group).inodeBitmap) v.fs.blockSize with
      | none => simp [bitAlloc, hbit] at h
      | some bit =>
        simp only [bitAlloc, hbit] at h
        by_cases hzero : bit = 0
        · rw [if_pos hzero] at h
          exact absurd (Prod.mk.inj h).1 (by simp)
        rw [if_neg hzero] at h
        by_cases hread : readable (v.slot group bit).1 = true
        · rw [if_pos hread] at h
          obtain ⟨hino, hv'⟩ := Prod.mk.inj h
          exact ⟨group, bit, rfl, hbit, hzero, (Except.ok.inj hino).symm, hv'.symm⟩
        · rw [if_neg hread] at h
          exact absurd (Prod.mk.inj h).1 (by simp)
    · rw [if_neg hmap] at h
      exact absurd (Prod.mk.inj h).1 (by simp)

lemma chosenInodeGroup_lt (h : chosenInodeGroup v = some group) : group < v.fs.numGroups :=
  mem_range.mp (List.mem_of_find?_eq_some h)

/-- The first clear bit of the chosen group stands for an inode of the group. -/
def FreeInGroup (v : Volume) : Prop :=
  ∀ group ∈ chosenInodeGroup v,
    ∀ bit ∈ firstClear (v.fs.disk (v.fs.groups group).inodeBitmap) v.fs.blockSize,
      bit < v.fs.inodesPerGroup

end Gloworm.Ext2Inode
