import Gloworm.BufcacheModel

/-! The block cache over a device whose reads and writes may fail, and with allocations that may
fail. A failed transfer leaves its target with any contents. -/
namespace Gloworm.BufcacheFault
open Queue LinkedSegments Transition Bufcache
variable {β : Type}

inductive Answer (β : Type)
  | done
  | failed (junk : β)

def readEntry (c : Cache β) (disk : ℕ → β) (b : ℕ) : Answer β → Bool × Cache β
  | .done => (true, Bufcache.readEntry c disk b)
  | .failed junk => (false, c.modify b fun x => { x with block := junk })

def writeEntry (c : Cache β) (disk : ℕ → β) (b : ℕ) : Answer β → Cache β × (ℕ → β)
  | .done => Bufcache.writeEntry c disk b
  | .failed junk =>
    if ¬ c.dirty b then (c, disk)
    else if c.flags &&& bcGfDbgNowrite ≠ 0 then (c, disk)
    else (c, Function.update disk (c.offset (c.bufs b).num) junk)

def recycle (c : Cache β) (disk : ℕ → β) (b : ℕ) (answer : Answer β) : Cache β × (ℕ → β) :=
  let r := if (c.bufs b).num ≠ 0 then writeEntry c disk b answer else (c, disk)
  (r.1.touch b, r.2)

/-- `none` is the panic of a full cache whose buffers are all held. -/
def findFreeEntry (c : Cache β) (disk : ℕ → β) (fresh : Option ℕ) (zero : β) (answer : Answer β) :
    Option (Option ℕ × Cache β × (ℕ → β)) :=
  match lastUnreferenced c with
  | none => none
  | some last =>
    if c.numEntries < bufcacheMax then
      match fresh with
      | none => some (none, c, disk)
      | some fresh => some (some fresh, recycle (createEntry c fresh zero) disk fresh answer)
    else last.map fun last => (some last, recycle c disk last answer)

/-- When the read fails the buffer is given up, but stays in the list under the number. -/
def claimEntry (c : Cache β) (disk : ℕ → β) (b num : ℕ) (answer : Answer β) :
    Option ℕ × Cache β :=
  let r := readEntry (c.modify b fun x => { x with refcount := 1, num := num, flags := 0 }) disk b
    answer
  if r.1 then (some b, r.2) else (none, r.2.modify b fun x => { x with refcount := 0 })

def loadBlock (c : Cache β) (disk : ℕ → β) (num : ℕ) (fresh : Option ℕ) (zero : β)
    (write read : Answer β) : Option (Option ℕ × Cache β × (ℕ → β)) :=
  if c.dev = 0 then some (none, c, disk)
  else (findFreeEntry c disk fresh zero write).map fun r =>
    match r.1 with
    | none => (none, r.2)
    | some b => ((claimEntry r.2.1 r.2.2 b num read).1, (claimEntry r.2.1 r.2.2 b num read).2, r.2.2)

def getBlock (c : Cache β) (disk : ℕ → β) (num : ℕ) (fresh : Option ℕ) (zero : β)
    (write read : Answer β) : Option (Option ℕ × Cache β × (ℕ → β)) :=
  match findBlock c num with
  | none => none
  | some (some b) =>
    if (c.bufs b).refcount = intMax then none
    else
      let c := c.modify b fun x => { x with refcount := x.refcount + 1 }
      some (some b, c.touch b, disk)
  | some none => loadBlock c disk num fresh zero write read

def syncLoop (answers : ℕ → Answer β) :
    ℕ → Cache β → (ℕ → β) → Option ℕ → Option (Cache β × (ℕ → β))
  | 0, _, _, _ => none
  | _ + 1, c, disk, none => some (c, disk)
  | fuel + 1, c, disk, some b =>
    let r := writeEntry c disk b (answers b)
    syncLoop answers fuel r.1 r.2 (r.1.blocks.next b)

def syncBufcache (c : Cache β) (disk : ℕ → β) (answers : ℕ → Answer β) :
    Option (Cache β × (ℕ → β)) :=
  syncLoop answers (c.numEntries + 1) c disk (c.blocks.head ())

structure Use where
  token : ℕ
  buf : ℕ
  num : ℕ
  modified : Bool
  deriving DecidableEq

/-- The device, the allocated buffers, their uses, the contents given to each block, and the buffers
whose last read failed. -/
structure System (β : Type) where
  cache : Cache β
  disk : ℕ → β
  entries : List ℕ
  uses : List Use
  left : ℕ → β
  unread : List ℕ

inductive Event (β : Type)
  | get (num token : ℕ) (fresh : Option ℕ) (zero : β) (write read : Answer β)
  | modify (token : ℕ) (value : β)
  | markDirty (token : ℕ)
  | release (token : ℕ) (dirty : Bool)
  | sync (answers : ℕ → Answer β)

def System.useOf (s : System β) (token : ℕ) : Option Use :=
  s.uses.find? fun u => u.token = token

/-- A new use has a new name and a new buffer a new address; the other calls are made by holders. -/
def Permitted (s : System β) : Event β → Prop
  | .get _ token fresh _ _ _ => s.useOf token = none ∧ ∀ b ∈ fresh, b ∉ s.entries
  | .modify token _ => (s.useOf token).isSome
  | .markDirty token => (s.useOf token).isSome
  | .release token _ => (s.useOf token).isSome
  | .sync _ => True

def claimed (c : Cache β) (num : ℕ) (fresh : Option ℕ) : Option ℕ :=
  if findBlock c num = some none ∧ c.dev ≠ 0 then
    if c.numEntries < bufcacheMax then fresh else (lastUnreferenced c).join
  else none

def System.afterGet (s : System β) (num token : ℕ) (fresh : Option ℕ)
    (r : Option ℕ × Cache β × (ℕ → β)) : System β where
  cache := r.2.1
  disk := r.2.2
  entries := if r.2.1.numEntries = s.cache.numEntries then s.entries else fresh.toList ++ s.entries
  uses := match r.1 with
    | none => s.uses
    | some b => ⟨token, b, num, false⟩ :: s.uses
  left := s.left
  unread := match claimed s.cache num fresh with
    | none => s.unread
    | some b => if r.1.isSome then s.unread.filter (· ≠ b) else b :: s.unread.filter (· ≠ b)

def perform (s : System β) : Event β → Option (System β)
  | .get num token fresh zero write read =>
    (getBlock s.cache s.disk num fresh zero write read).map fun r => s.afterGet num token fresh r
  | .modify token value => (s.useOf token).map fun u =>
    { s with
      cache := s.cache.modify u.buf fun x => { x with block := value }
      left := Function.update s.left (s.cache.bufs u.buf).num value
      uses := { u with modified := true } :: s.uses.erase u }
  | .markDirty token => (s.useOf token).map fun u =>
    { s with cache := markBlockDirty s.cache u.buf }
  | .release token dirty => (s.useOf token).map fun u =>
    { s with
      cache := releaseBlock s.cache u.buf dirty
      uses := s.uses.erase u }
  | .sync answers => (syncBufcache s.cache s.disk answers).map fun r =>
    { s with cache := r.1, disk := r.2 }

def Step (s : System β) (e : Event β) (t : System β) : Prop :=
  Permitted s e ∧ perform s e = some t

def start (dev blockSize : ℕ) (mem : ℕ → Buf β) (disk : ℕ → β) : System β :=
  ⟨initBufcache dev blockSize mem, disk, [], [], fun num => disk (num * blockSize), []⟩

end Gloworm.BufcacheFault
