import Gloworm.ByteOrder
import Gloworm.OffsetTiling
import Gloworm.MachineWords
import Gloworm.TransitionRuns

/-! The blocks of an ext2 directory on a big-endian machine. The fields of an entry are
little-endian on disk, so that reading one without `le16toh` swaps its bytes. -/
namespace Gloworm.Ext2Dir
open Function Word Tiling Transition
open ByteOrder (swap16)

abbrev Byte := BitVec 8
abbrev Block := ℕ → Byte

/-- The length field as a big-endian machine reads it. -/
def rawLen (block : Block) (i : ℕ) : ℕ := (block (i + 4)).toNat * 256 + (block (i + 5)).toNat

def setRawLen (block : Block) (i v : ℕ) : Block :=
  update (update block (i + 4) (BitVec.ofNat 8 (v / 256))) (i + 5)
    (BitVec.ofNat 8 v)

def entryLen (block : Block) (i : ℕ) : ℕ := swap16 (rawLen block i)

def nameLen (block : Block) (i : ℕ) : ℕ := (block (i + 6)).toNat

/-- The inode number of the entry is 0. -/
def isUnused (block : Block) (i : ℕ) : Bool :=
  block i == 0#8 && block (i + 1) == 0#8 && block (i + 2) == 0#8 && block (i + 3) == 0#8

def setInode (block : Block) (i ino : ℕ) : Block := fun x =>
  if x = i then BitVec.ofNat 8 ino
  else if x = i + 1 then BitVec.ofNat 8 (ino / 2 ^ 8)
  else if x = i + 2 then BitVec.ofNat 8 (ino / 2 ^ 16)
  else if x = i + 3 then BitVec.ofNat 8 (ino / 2 ^ 24)
  else block x

def copyBytes (block : Block) (i : ℕ) (bytes : List Byte) : Block := fun x =>
  if i ≤ x then bytes.getD (x - i) (block x) else block x

def ext2FtDir : Byte := 2#8

/-- Write an entry of `dir_setup`. -/
def setEntry (block : Block) (i ino entryLen : ℕ) (name : List Byte) : Block :=
  let block := setInode block i ino
  let block := update block (i + 7) ext2FtDir
  let block := setRawLen block i (swap16 (entryLen % 2 ^ 16))
  let block := update block (i + 6) (BitVec.ofNat 8 name.length)
  copyBytes block (i + 8) name

/-- The first block of a directory, with `.` and `..`. -/
def dirSetup (blockSize ino parentIno : ℕ) : Block :=
  let block : Block := fun _ => 0#8
  let block := setEntry block 0 ino 12 [0x2E#8]
  setEntry block 12 parentIno (blockSize - 12) [0x2E#8, 0x2E#8]

def nameMatches (block : Block) (name : List Byte) (i : ℕ) : Bool :=
  !isUnused block i && name.length == nameLen block i &&
    (List.range name.length).map (fun n => block (i + 8 + n)) == name

def nameIs (block : Block) (i : ℕ) (name : List Byte) : Bool :=
  nameLen block i == name.length &&
    (List.range (name.length + 1)).map (fun n => block (i + 8 + n)) == name ++ [0#8]

/-- Go through the entries to the first hit; an entry without length ends the run. -/
def scanBlock (blockSize : ℕ) (block : Block) (hit : ℕ → Bool) : Option (Bool × ℕ) :=
  scan (entryLen block) hit blockSize (blockSize + 1) 0

def scanBlocks (blockSize : ℕ) (hit : Block → ℕ → Bool) :
    List Block → Option (Option (ℕ × ℕ))
  | [] => some none
  | block :: rest => (scanBlock blockSize block (hit block)).bind fun res =>
    if res.1 then some (some (0, res.2))
    else (scanBlocks blockSize hit rest).map fun pos => pos.map fun p => (p.1 + 1, p.2)

def dirFindEntryByName (blockSize : ℕ) (dir : List Block) (name : List Byte) :
    Option (Option (ℕ × ℕ)) :=
  scanBlocks blockSize (fun block => nameMatches block name) dir

/-- There is no entry besides `.` and `..`. -/
def dirIsEmpty (blockSize : ℕ) (dir : List Block) : Option Bool :=
  (scanBlocks blockSize (fun block i => !isUnused block i && !nameIs block i [0x2E#8] &&
    !nameIs block i [0x2E#8, 0x2E#8]) dir).map Option.isNone

/-- The room that an entry needs for its name. -/
def entryMinLen (block : Block) (i : ℕ) : ℕ := alignUp (8 + nameLen block i) 4

/-- Find an unused entry, or one with room behind its name, which is split. -/
def findEmptyLoop (blockSize newEntryLen : ℕ) : ℕ → Block → ℕ → Option (Block × Option ℕ)
  | 0, _, _ => none
  | fuel + 1, block, i =>
    if blockSize ≤ i then some (block, none)
    else
      let block := if rawLen block i = 0 then setRawLen block i (swap16 (blockSize % 2 ^ 16))
        else block
      if isUnused block i ∧ newEntryLen ≤ rawLen block i then some (block, some i)
      else if entryMinLen block i + newEntryLen ≤ entryLen block i then
        let first := setRawLen block i (swap16 (entryMinLen block i))
        some (setRawLen first (i + entryMinLen block i)
          (swap16 (entryLen block i - entryMinLen block i)), some (i + entryMinLen block i))
      else findEmptyLoop blockSize newEntryLen fuel block (i + entryLen block i)

/-- Add a block to the directory if there is room on the device. -/
def growDir (blockSize newEntryLen : ℕ) : ℕ → Option (List Block × Option (ℕ × ℕ))
  | 0 => some ([], none)
  | room + 1 => (findEmptyLoop blockSize newEntryLen (blockSize + 1) (fun _ => 0#8) 0).bind
    fun res => match res.2 with
      | some i => some ([res.1], some (0, i))
      | none => (growDir blockSize newEntryLen room).map fun next =>
        (res.1 :: next.1, next.2.map fun p => (p.1 + 1, p.2))

def dirFindEmptyEntry (blockSize newEntryLen room : ℕ) :
    List Block → Option (List Block × Option (ℕ × ℕ))
  | [] => growDir blockSize newEntryLen room
  | block :: rest => (findEmptyLoop blockSize newEntryLen (blockSize + 1) block 0).bind
    fun res => match res.2 with
      | some i => some (res.1 :: rest, some (0, i))
      | none => (dirFindEmptyEntry blockSize newEntryLen room rest).map fun next =>
        (res.1 :: next.1, next.2.map fun p => (p.1 + 1, p.2))

def newEntryLen (name : List Byte) : ℕ := alignUp (8 + name.length) 4

def writeName (name : List Byte) (i : ℕ) (block : Block) : Block :=
  update (copyBytes block (i + 8) (name ++ [0#8])) (i + 6) (BitVec.ofNat 8 name.length)

def dirAllocEntry (blockSize room : ℕ) (name : List Byte) (dir : List Block) :
    Option (List Block × Option (ℕ × ℕ)) :=
  (dirFindEmptyEntry blockSize (newEntryLen name) room dir).map fun res => match res.2 with
    | none => res
    | some (z, i) => (res.1.modify z (writeName name i), some (z, i))

/-- Free the entry with this name and give its room to the one before. -/
def freeLoop (blockSize : ℕ) (name : List Byte) (block : Block) :
    ℕ → Option ℕ → ℕ → Option (Option Block)
  | 0, _, _ => none
  | fuel + 1, prev, i =>
    if blockSize ≤ i then some none
    else if nameMatches block name i then
      let freed := setInode block i 0
      match prev with
      | none => some (some freed)
      | some p => some (some (setRawLen freed p ((rawLen freed p + rawLen freed i) % 2 ^ 16)))
    else freeLoop blockSize name block fuel (some i) (i + entryLen block i)

def dirFreeEntry (blockSize : ℕ) (name : List Byte) : List Block → Option (List Block)
  | [] => some []
  | block :: rest => (freeLoop blockSize name block (blockSize + 1) none 0).bind
    fun res => match res with
      | some freed => some (freed :: rest)
      | none => (dirFreeEntry blockSize name rest).map fun next => block :: next

/-- The entry that the inner loop stops at; no result when it leaves the block. -/
def readdirLoop (blockSize : ℕ) (block : Block) : ℕ → ℤ → Option (ℤ × ℤ)
  | 0, _ => none
  | fuel + 1, zpos =>
    let next := toShort (zpos + entryLen block zpos.toNat)
    if zpos < 0 ∨ blockSize ≤ zpos then none
    else if isUnused block zpos.toNat ∧ next < blockSize then readdirLoop blockSize block fuel next
    else some (zpos, next)

/-- An insertion gives the entry its inode, unless it fails after the entry was allocated. -/
inductive Op
  | insert (name : List Byte) (room : ℕ) (node : Option (ℕ × Option Byte))
  | free (name : List Byte)

def Op.name : Op → List Byte
  | .insert name _ _ => name
  | .free name => name

def setNode (node : Option (ℕ × Option Byte)) (i : ℕ) (block : Block) : Block :=
  match node with
  | none => block
  | some (ino, none) => setInode block i ino
  | some (ino, some filetype) => update (setInode block i ino) (i + 7) filetype

def perform (blockSize : ℕ) (dir : List Block) : Op → Option (List Block)
  | .insert name room node => (dirAllocEntry blockSize room name dir).map fun res =>
    match res.2 with
    | none => res.1
    | some (z, i) => res.1.modify z (setNode node i)
  | .free name => dirFreeEntry blockSize name dir

def Step (blockSize : ℕ) (dir : List Block) (op : Op) (dir' : List Block) : Prop :=
  perform blockSize dir op = some dir'

/-- An entry starts at `i`. -/
def Boundary (blockSize : ℕ) (block : Block) (i : ℕ) : Prop :=
  Tiled 8 4 (entryLen block) 0 i ∧ i < blockSize

/-- The first entry of the directory that is a hit. -/
def FirstHit (blockSize : ℕ) (hit : Block → ℕ → Prop) (dir : List Block) (block : Block)
    (i : ℕ) : Prop :=
  ∃ front back, dir = front ++ block :: back ∧
    (∀ b ∈ front, ∀ x, Boundary blockSize b x → ¬ hit b x) ∧
    Boundary blockSize block i ∧ hit block i ∧
    ∀ x < i, Boundary blockSize block x → ¬ hit block x

def Accepts (newEntryLen : ℕ) (block : Block) (i : ℕ) : Prop :=
  (isUnused block i ∧ newEntryLen ≤ rawLen block i) ∨
    entryMinLen block i + newEntryLen ≤ entryLen block i

/-- An insertion takes no unused entry that is too short, and a deletion loses no carry. -/
def Fits (blockSize : ℕ) (dir : List Block) : Op → Prop
  | .insert name _ _ => ∀ block i, FirstHit blockSize (Accepts (newEntryLen name)) dir block i →
    isUnused block i → newEntryLen name ≤ rawLen block i → newEntryLen name ≤ entryLen block i
  | .free name => ∀ block i, FirstHit blockSize (fun b x => nameMatches b name x) dir block i →
    ∀ p, Boundary blockSize block p → p + entryLen block p = i →
      entryLen block p % 256 + entryLen block i % 256 < 256

end Gloworm.Ext2Dir
