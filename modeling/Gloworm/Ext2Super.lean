import Gloworm.ByteOrder
import Gloworm.MachineWords

/-! Writing and loading the superblock and the group descriptors of an ext2 file system on a
big-endian machine. The device is its bytes, seen after the cache in front of it was written. -/
namespace Gloworm.Ext2Super
open Option Word ByteOrder

/-- The fields of a group descriptor. -/
structure Descriptor where
  blockBitmap : ℕ
  inodeBitmap : ℕ
  inodeTable : ℕ
  freeBlockCount : ℕ
  freeInodeCount : ℕ
  usedDirsCount : ℕ
  deriving DecidableEq

/-- The superblock as it is kept in memory, with the group descriptors. -/
structure Super where
  super : Memory
  numGroups : ℤ
  groups : ℕ → Descriptor

namespace Super
variable (s : Super)

def totalBlocks : ℕ := load32 s.super 4

def superblockBlock : ℕ := load32 s.super 20

def logBlockSize : ℕ := load32 s.super 24

def logFragmentSize : ℕ := load32 s.super 28

def blocksPerGroup : ℕ := load32 s.super 32

def magic : ℕ := load16 s.super 56

def incompatFeatures : ℕ := load32 s.super 96
end Super

variable {n base i k a : ℕ}

/-- The offset and the width of each field. -/
def superFields : List (ℕ × ℕ) :=
  [(0, 4), (4, 4), (8, 4), (12, 4), (16, 4), (20, 4), (24, 4), (28, 4), (32, 4), (36, 4), (40, 4),
    (44, 4), (48, 4), (52, 2), (54, 2), (56, 2), (58, 2), (60, 2), (62, 2), (64, 4), (68, 4),
    (72, 4), (76, 4), (80, 2), (82, 2), (84, 4), (88, 2), (90, 2), (92, 4), (96, 4), (100, 4)]

def convertField (base : ℕ) (m : Memory) (field : ℕ × ℕ) : Memory :=
  if field.2 = 4 then store32 m (base + field.1) (swap32 (load32 m (base + field.1)))
  else store16 m (base + field.1) (swap16 (load16 m (base + field.1)))

/-- Exchange the bytes of every field. -/
def superblockToFromLe (base : ℕ) (m : Memory) : Memory := superFields.foldl (convertField base) m

def memcpy (m : Memory) (base n : ℕ) (bytes : Memory) : Memory := fun i =>
  if base ≤ i ∧ i < base + n then bytes (i - base) else m i

def advance (blockSize : ℕ) (p : ℕ × ℕ) : ℕ × ℕ :=
  if blockSize ≤ p.2 then (p.1 + 1, 0) else p

def storeDescriptor (m : Memory) (a : ℕ) (d : Descriptor) : Memory :=
  let m := store32 m a (swap32 d.blockBitmap)
  let m := store32 m (a + 4) (swap32 d.inodeBitmap)
  let m := store32 m (a + 8) (swap32 d.inodeTable)
  let m := store16 m (a + 12) (swap16 d.freeBlockCount)
  let m := store16 m (a + 14) (swap16 d.freeInodeCount)
  store16 m (a + 16) (swap16 d.usedDirsCount)

def bufcacheMax : ℕ := 100

/-- The cached blocks, all of them dirty, from the last to the first used, and whether block 0 was
lost. -/
structure Cache where
  blocks : List ℕ
  lost : Bool

/-- `get_block`, where `_find_free_entry` recycles the first used block of a full cache and writes
it first unless its number is 0. -/
def getBlock (cache : Cache) (num : ℕ) : Cache :=
  if num ∈ cache.blocks then ⟨num :: cache.blocks.erase num, cache.lost⟩
  else if cache.blocks.length < bufcacheMax then ⟨num :: cache.blocks, cache.lost⟩
  else ⟨num :: cache.blocks.dropLast, cache.lost || cache.blocks.getLast? == some 0⟩

structure WellFormed (blockSize : ℕ) (s : Super) : Prop where
  magic : s.magic = 0xEF53
  logBlockSize : s.logBlockSize ≤ 2
  blockSize_eq : blockSize = 1024 <<< s.logBlockSize
  fragment : s.logFragmentSize = s.logBlockSize
  features : s.incompatFeatures &&& (2 ^ 32 - 1 - 2) = 0
  perGroup : ∃ k, s.blocksPerGroup = 2 ^ k
  numGroups_eq : s.numGroups = ((s.totalBlocks + s.blocksPerGroup - 1) / s.blocksPerGroup : ℕ)
  blockBitmap_lt : ∀ group, (s.groups group).blockBitmap < 2 ^ 32
  inodeBitmap_lt : ∀ group, (s.groups group).inodeBitmap < 2 ^ 32
  inodeTable_lt : ∀ group, (s.groups group).inodeTable < 2 ^ 32
  freeBlockCount_lt : ∀ group, (s.groups group).freeBlockCount < 2 ^ 16
  freeInodeCount_lt : ∀ group, (s.groups group).freeInodeCount < 2 ^ 16
  usedDirsCount_lt : ∀ group, (s.groups group).usedDirsCount < 2 ^ 16

structure Placed (blockSize : ℕ) (s : Super) : Prop extends WellFormed blockSize s where
  place : s.superblockBlock = if blockSize = 1024 then 1 else 0

/-- Byte `i` of the device belongs to the superblock or to a descriptor. -/
def Owned (blockSize : ℕ) (s : Super) (i : ℕ) : Prop :=
  (1024 ≤ i ∧ i < 1024 + 204) ∨ ∃ group : ℕ, (group : ℤ) < s.numGroups ∧
    (s.superblockBlock + 1) * blockSize + 32 * group ≤ i ∧
    i < (s.superblockBlock + 1) * blockSize + 32 * group + 18

variable {fields : List (ℕ × ℕ)}

section Loads
variable (m : Memory)

end Loads
section Places
variable {c superblockBlock : ℕ}

end Places
section Caching
variable {sb d : ℕ}

/-- The cache after the superblock in block `sb` and `d` blocks of descriptors. -/
def filled (sb d : ℕ) : Cache where
  blocks := (List.range (min (d + 1) bufcacheMax)).map (sb + d - ·)
  lost := decide (sb = 0 ∧ bufcacheMax ≤ d)

variable {c superblockBlock : ℕ}

end Caching
section Descriptors
variable {m m' : Memory} {d : Descriptor}

structure Descriptor.Fits (d : Descriptor) : Prop where
  blockBitmap : d.blockBitmap < 2 ^ 32
  inodeBitmap : d.inodeBitmap < 2 ^ 32
  inodeTable : d.inodeTable < 2 ^ 32
  freeBlockCount : d.freeBlockCount < 2 ^ 16
  freeInodeCount : d.freeInodeCount < 2 ^ 16
  usedDirsCount : d.usedDirsCount < 2 ^ 16

def storeGroups (base : ℕ) (groups : ℕ → Descriptor) (n : ℕ) (m : Memory) : Memory :=
  (List.range n).foldl (fun m group => storeDescriptor m (base + 32 * group) (groups group)) m

variable {groups : ℕ → Descriptor}

end Descriptors
section Count
variable {total : ℕ}

end Count
section RoundTrip
variable {blockSize : ℕ} {s : Super}

lemma Placed.places (h : Placed blockSize s) :
    (if s.superblockBlock = 0 then 1024 else 0) + 204 ≤ blockSize ∧
    s.superblockBlock * blockSize + (if s.superblockBlock = 0 then 1024 else 0) = 1024 ∧
    1024 + 204 ≤ (s.superblockBlock + 1) * blockSize := by
  have hlog := h.logBlockSize
  have hsize := h.blockSize_eq
  have hplace := h.place
  generalize s.logBlockSize = l at hlog hsize
  generalize s.superblockBlock = b at hplace ⊢
  interval_cases l
  all_goals
    subst hsize
    simp at hplace
    subst hplace
    decide

lemma WellFormed.fits (h : WellFormed blockSize s) (group : ℕ) : (s.groups group).Fits :=
  ⟨h.blockBitmap_lt group, h.inodeBitmap_lt group, h.inodeTable_lt group, h.freeBlockCount_lt group,
    h.freeInodeCount_lt group, h.usedDirsCount_lt group⟩

def synced (blockSize : ℕ) (s : Super) (device : Memory) : Memory :=
  storeGroups ((s.superblockBlock + 1) * blockSize) s.groups s.numGroups.toNat
    (superblockToFromLe 1024 (memcpy device 1024 204 s.super))

/-- The superblock stays in the cache until it is written. -/
def Kept (blockSize : ℕ) (s : Super) : Prop :=
  s.superblockBlock = 0 → s.numGroups ≤ 99 * (blockSize / 32 : ℕ)

section
variable (h : Placed blockSize s) (device : Memory)
include h

end

section
variable (h : WellFormed blockSize s)
  (hplace : s.superblockBlock ≠ if blockSize = 1024 then 1 else 0)
include h hplace

end

end RoundTrip

section PlainVolume
variable {total : ℕ}

end PlainVolume
end Gloworm.Ext2Super
