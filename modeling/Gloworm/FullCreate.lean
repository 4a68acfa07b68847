import Gloworm.ErrorNumbers
import Gloworm.Ext2DirInsert
import Gloworm.Ext2InodeModel

/-! Creating a file on a minix or an ext2 file system without a free inode. -/
namespace Gloworm.FullCreate
open Word Bitmap Ext2Alloc Ext2Inode

/-- `undefined` after an access outside of an object. -/
inductive Outcome (D : Type)
  | undefined
  | returned (error : ℤ) (dir : D) (loaded : List (ℕ × ℕ))
  deriving DecidableEq

/-- What a call depends on besides the file system: whether a vnode can be allocated, which blocks
`get_block` answers, and whether `dir_setup` succeeds. -/
structure Environment where
  memory : Bool
  readable : ℕ → Bool
  setup : Bool

/-- The parts in which the file systems differ. -/
structure FileSystem (D P : Type) where
  maxFilename : ℕ
  dirAllocEntry : List Byte → D → Option (D × Option P)
  setDirent : P → ℕ → ℕ → D → D
  location : ℕ → ℕ × ℕ
  freeInode : ℕ → Bool

namespace FileSystem
variable {D P : Type} (fs : FileSystem D P)

def loadVnode (env : Environment) (ino : ℕ) : Option (ℕ × ℕ) :=
  if env.memory ∧ env.readable (fs.location ino).1 then some (fs.location ino) else none

def allocVnode (env : Environment) (ino : ℕ) : Option (Option (ℕ × ℕ)) :=
  if ino = 0 then some none
  else match fs.loadVnode env ino with
    | some place => some (some place)
    | none => if fs.freeInode ino then some none else none

/-- The common course of the calls; `ino` is the answer of `alloc_inode`. -/
def create (env : Environment) (vnodeError : ℤ) (setsUp : Bool) (mode ino : ℕ) (name : List Byte)
    (dir : D) : Outcome D :=
  if fs.maxFilename < name.length then .returned ENAMETOOLONG dir []
  else match fs.dirAllocEntry name dir with
    | none => .undefined
    | some (dir, none) => .returned ENOSPC dir []
    | some (dir, some p) => match fs.allocVnode env ino with
      | none => .undefined
      | some none => .returned vnodeError dir []
      | some (some place) =>
        if setsUp ∧ isDir mode ∧ ¬env.setup then .returned ENOMEM dir [place]
        else .returned 0 (fs.setDirent p mode ino dir) [place]

/-- The call fails without reading an inode, and every lookup answers as before. -/
def Clean {R : Type} (lookup : List Byte → D → R) (dir : D) (outcome : Outcome D) : Prop :=
  ∃ error dir', outcome = .returned error dir' [] ∧ error < 0 ∧
    ∀ name, lookup name dir' = lookup name dir

variable {fs} {env : Environment} {vnodeError : ℤ} {setsUp : Bool} {mode ino : ℕ}
    {name : List Byte}

end FileSystem

/-- An entry of a minix directory. The name has a terminator within its 14 bytes, so that `strcmp`
stays in the field and compares the names as lists. -/
structure Dirent where
  inode : ℕ
  filename : List Byte
  terminated : filename.length ≤ 13
  deriving DecidableEq

/-- The inode bitmap of a minix file system and where its inode table begins. -/
structure Minix where
  imapBlocks : ℕ
  inodeTable : ℕ
  bitmap : ℕ → Byte

def Minix.allocInode (m : Minix) (env : Environment) : ℕ × (ℕ → Byte) :=
  match firstClear m.bitmap (m.imapBlocks * 1024) with
  | none => (toUnsigned ENOSPC, m.bitmap)
  | some inodeNum =>
    if inodeNum = 0 then (toUnsigned ENOSPC, setBit m.bitmap 0)
    else if env.readable (m.inodeTable + (inodeNum - 1) >>> 5) then
      (inodeNum, setBit m.bitmap inodeNum)
    else (toUnsigned ENOMEM, setBit m.bitmap inodeNum)

/-- The zones that `zone_lookup` can take for a directory, and the first word of the boot block,
which it reads as a table when it could not take a zone for one. -/
structure Room where
  zones : ℕ
  boot : ℕ

/-- How many indirect tables are made with the zone `znum` of a directory. -/
def newTables (znum : ℕ) : ℕ :=
  if znum = 7 + 512 then 2
  else if znum = 7 ∨ 7 + 512 < znum ∧ (znum - (7 + 512)) % 512 = 0 then 1 else 0

def storedName (name : List Byte) : List Byte := (name.take 13).takeWhile (· ≠ 0#8)

lemma storedName_length (name : List Byte) : (storedName name).length ≤ 13 :=
  (( List.takeWhile_prefix _).length_le).trans (List.length_take_le _ _)

/-- `dir_alloc_entry`, which has no outcome when `zone_lookup` answers a zone that the boot block
names. -/
def minixDirAllocEntry (room : Room) (name : List Byte) (dir : List Dirent) :
    Option (List Dirent × Option ℕ) :=
  match dir.findIdx? fun entry => entry.inode = 0 with
  | some i => some (dir.modify i fun entry =>
      ⟨entry.inode, storedName name, storedName_length name⟩, some i)
  | none =>
    let znum := dir.length / 64
    if 7 + 512 + 512 * 512 ≤ znum then some (dir, none)
    else if newTables znum < room.zones then
      some (dir ++ ⟨0, storedName name, storedName_length name⟩ ::
        List.replicate 63 ⟨0, [], Nat.zero_le 13⟩, some dir.length)
    else if room.zones < newTables znum ∧ room.boot ≠ 0 then none
    else some (dir, none)

def minixLookup (name : List Byte) (dir : List Dirent) : Option ℕ :=
  (dir.find? fun entry => entry.inode ≠ 0 ∧ entry.filename = name).map Dirent.inode

def minix (m : Minix) (room : Room) : FileSystem (List Dirent) ℕ where
  maxFilename := 14
  dirAllocEntry := minixDirAllocEntry room
  setDirent := fun i _ ino dir => dir.modify i fun entry => { entry with inode := ino % 2 ^ 16 }
  location := fun ino => (m.inodeTable + sub32 ino 1 >>> 5, (sub32 ino 1 &&& 31) * 32)
  freeInode := fun ino => 0 ≤ toSigned ino / 8 ∧ toSigned ino / 8 < 1024

def minixCreate (m : Minix) (room : Room) (env : Environment) (mode : ℕ) :
    List Byte → List Dirent → Outcome (List Dirent) :=
  (minix m room).create env ENOMEM true mode (m.allocInode env).1

def Minix.Full (m : Minix) : Prop := ∀ i < m.imapBlocks * 1024 * 8, bitAt m.bitmap i = true

lemma Minix.Full.allocInode {m : Minix} (h : m.Full) (env : Environment) :
    (m.allocInode env).1 = toUnsigned ENOSPC := by
  rw [Minix.allocInode]
  cases hfirst : firstClear m.bitmap (m.imapBlocks * 1024) with
  | none => rfl
  | some n =>
    obtain ⟨hlt, hclear, -⟩ := firstClear_some hfirst
    simp [h n hlt] at hclear

/-- A device that answers every block. -/
def lenient : Environment := ⟨true, fun _ => true, true⟩

end Gloworm.FullCreate
