import Gloworm.QueueModel
import Gloworm.TransitionRuns

/-! The block cache of `bufcache.c` over a device whose transfers succeed. The device maps a byte
offset to the block that starts there; a buffer is named by its address. -/
namespace Gloworm.Bufcache
open Function Queue LinkedSegments Transition

/-- A buffer with the contents of one block. -/
structure Buf (β : Type) where
  refcount : ℤ
  flags : ℕ
  num : ℕ
  block : β

/-- The buffers, linked from the last used one to the first. -/
structure Cache (β : Type) where
  dev : ℕ
  flags : ℕ
  blockSize : ℕ
  numEntries : ℕ
  blocks : Pool Unit ℕ
  bufs : ℕ → Buf β

def bufcacheMax : ℕ := 100
def bfDirty : ℕ := 0x0001
def bcGfDbgNowrite : ℕ := 0x1000
def intMax : ℤ := 2 ^ 31 - 1

variable {β : Type}

def initBufcache (dev blockSize : ℕ) (mem : ℕ → Buf β) : Cache β :=
  ⟨dev, 0, blockSize, 0, queueInit, mem⟩

namespace Cache

def modify (c : Cache β) (b : ℕ) (f : Buf β → Buf β) : Cache β :=
  { c with bufs := update c.bufs b (f (c.bufs b)) }

def offset (c : Cache β) (num : ℕ) : ℕ := num * c.blockSize % 2 ^ 32

/-- The buffer is to be written back. -/
def dirty (c : Cache β) (b : ℕ) : Prop := (c.bufs b).flags &&& bfDirty ≠ 0
deriving Decidable

/-- Move a buffer to the front of the list. -/
def touch (c : Cache β) (b : ℕ) : Cache β :=
  { c with blocks := queueInsert (queueRemove c.blocks () b) () b }
end Cache

/-- Read the block of a buffer from the device. -/
def readEntry (c : Cache β) (disk : ℕ → β) (b : ℕ) : Cache β :=
  c.modify b fun x => { x with block := disk (c.offset x.num) }

/-- Write a buffer back to the device. -/
def writeEntry (c : Cache β) (disk : ℕ → β) (b : ℕ) : Cache β × (ℕ → β) :=
  if ¬ c.dirty b then (c, disk)
  else if c.flags &&& bcGfDbgNowrite ≠ 0 then (c, disk)
  else (c.modify b fun x => { x with flags := x.flags &&& (0xFFFF ^^^ bfDirty) },
    update disk (c.offset (c.bufs b).num) (c.bufs b).block)

def createEntry (c : Cache β) (b : ℕ) (zero : β) : Cache β :=
  { c with
    bufs := update c.bufs b ⟨0, 0, 0, zero⟩
    blocks := queueInsert { c.blocks with
      next := update c.blocks.next b none
      prev := update c.blocks.prev b none } () b
    numEntries := c.numEntries + 1 }

/-- The buffer that was used longest ago and that nobody holds. -/
def lastUnreferenced (c : Cache β) : Option (Option ℕ) :=
  walk c.blocks.prev (fun b => ¬ 0 < (c.bufs b).refcount) (c.numEntries + 1) (c.blocks.tail ())

/-- Write a buffer back, unless it is of block 0, and take it. -/
def recycle (c : Cache β) (disk : ℕ → β) (b : ℕ) : Cache β × (ℕ → β) :=
  let r := if (c.bufs b).num ≠ 0 then writeEntry c disk b else (c, disk)
  (r.1.touch b, r.2)

/-- A new buffer, or an old one when there are too many. -/
def findFreeEntry (c : Cache β) (disk : ℕ → β) (fresh : ℕ) (zero : β) :
    Option (ℕ × Cache β × (ℕ → β)) :=
  match lastUnreferenced c with
  | none => none
  | some last =>
    if c.numEntries < bufcacheMax then
      some (fresh, recycle (createEntry c fresh zero) disk fresh)
    else last.map fun last => (last, recycle c disk last)

def loadBlock (c : Cache β) (disk : ℕ → β) (num fresh : ℕ) (zero : β) :
    Option (Option ℕ × Cache β × (ℕ → β)) :=
  if c.dev = 0 then some (none, c, disk)
  else (findFreeEntry c disk fresh zero).map fun r =>
    let c := r.2.1.modify r.1 fun x => { x with refcount := 1, num := num, flags := 0 }
    (some r.1, readEntry c r.2.2 r.1, r.2.2)

def findBlock (c : Cache β) (num : ℕ) : Option (Option ℕ) :=
  walk c.blocks.next (fun b => (c.bufs b).num = num) (c.numEntries + 1) (c.blocks.head ())

/-- Find a block in the cache or read it, and take a reference. -/
def getBlock (c : Cache β) (disk : ℕ → β) (num fresh : ℕ) (zero : β) :
    Option (Option ℕ × Cache β × (ℕ → β)) :=
  match findBlock c num with
  | none => none
  | some (some b) =>
    if (c.bufs b).refcount = intMax then none
    else
      let c := c.modify b fun x => { x with refcount := x.refcount + 1 }
      some (some b, c.touch b, disk)
  | some none => loadBlock c disk num fresh zero

def markBlockDirty (c : Cache β) (b : ℕ) : Cache β :=
  c.modify b fun x => { x with flags := x.flags ||| bfDirty }

/-- Drop a reference. -/
def releaseBlock (c : Cache β) (b : ℕ) (dirty : Bool) : Cache β :=
  let c := if dirty then markBlockDirty c b else c
  c.modify b fun x => { x with refcount := if x.refcount - 1 < 0 then 0 else x.refcount - 1 }

def syncLoop : ℕ → Cache β → (ℕ → β) → Option ℕ → Option (Cache β × (ℕ → β))
  | 0, _, _, _ => none
  | _ + 1, c, disk, none => some (c, disk)
  | fuel + 1, c, disk, some b =>
    let r := writeEntry c disk b
    syncLoop fuel r.1 r.2 (r.1.blocks.next b)

def syncBufcache (c : Cache β) (disk : ℕ → β) : Option (Cache β × (ℕ → β)) :=
  syncLoop (c.numEntries + 1) c disk (c.blocks.head ())

/-- Somebody's reference to a buffer, and whether they have written to it. -/
structure Hold where
  token : ℕ
  buf : ℕ
  modified : Bool
  deriving DecidableEq

/-- The cache and the device, and what has been written to each block. -/
structure System (β : Type) where
  cache : Cache β
  disk : ℕ → β
  entries : List ℕ
  holders : List Hold
  left : ℕ → β

inductive Event (β : Type)
  | get (num token fresh : ℕ) (zero : β)
  | modify (token : ℕ) (value : β)
  | release (token : ℕ) (dirty : Bool)
  | sync

def System.holdOf (s : System β) (token : ℕ) : Option Hold :=
  s.holders.find? fun h => h.token = token

/-- Only holders write, and a holder that has written says so when it releases the buffer. -/
def Permitted (s : System β) : Event β → Prop
  | .get _ token fresh _ => s.holdOf token = none ∧ fresh ∉ s.entries
  | .modify token _ => (s.holdOf token).isSome
  | .release token dirty => ∃ h ∈ s.holdOf token, h.modified = true → dirty = true
  | .sync => True

def System.afterGet (s : System β) (token fresh : ℕ) (r : Option ℕ × Cache β × (ℕ → β)) :
    System β :=
  { s with
    cache := r.2.1
    disk := r.2.2
    entries := if r.2.1.numEntries = s.cache.numEntries then s.entries else fresh :: s.entries
    holders := match r.1 with
      | none => s.holders
      | some b => ⟨token, b, false⟩ :: s.holders }

def perform (s : System β) : Event β → Option (System β)
  | .get num token fresh zero =>
    (getBlock s.cache s.disk num fresh zero).map fun r => s.afterGet token fresh r
  | .modify token value => (s.holdOf token).map fun h =>
    { s with
      cache := s.cache.modify h.buf fun x => { x with block := value }
      left := update s.left (s.cache.bufs h.buf).num value
      holders := { h with modified := true } :: s.holders.erase h }
  | .release token dirty => (s.holdOf token).map fun h =>
    { s with
      cache := releaseBlock s.cache h.buf dirty
      holders := s.holders.erase h }
  | .sync => (syncBufcache s.cache s.disk).map fun r => { s with cache := r.1, disk := r.2 }

def Step (s : System β) (e : Event β) (t : System β) : Prop :=
  Permitted s e ∧ perform s e = some t

def start (dev blockSize : ℕ) (mem : ℕ → Buf β) (disk : ℕ → β) : System β :=
  ⟨initBufcache dev blockSize mem, disk, [], [], fun num => disk (num * blockSize)⟩

end Gloworm.Bufcache
