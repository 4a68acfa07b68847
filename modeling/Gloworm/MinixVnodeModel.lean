import Gloworm.ErrorNumbers
import Gloworm.QueueModel
import Gloworm.TransitionRuns

/-! The vnode cache of the minix filesystem (`minix/vnodes.h`) and the mount table of `vfs.c`. Using
a vnode that has been freed has no next state. -/
namespace Gloworm.MinixVnode
open Function Queue LinkedSegments Transition
variable {ι : Type}

/-- The device and the inode that a vnode was read from. -/
structure Loaded (ι : Type) where
  dev : ℕ
  inode : ι

/-- A cached vnode, with what was loaded into it. -/
structure Vnode (ι : Type) where
  mp : ℕ
  refcount : ℤ
  ino : ℕ
  mounted : Bool
  loaded : Option (Loaded ι)

/-- The list of cached vnodes, its length as the code counts it, and the vnodes in memory. -/
structure Cache (ι : Type) where
  list : Pool Unit ℕ
  nodesInCache : ℤ
  vnodes : ℕ → Option (Vnode ι)

/-- A vnode of this file system, or of another one. -/
inductive Node
  | minix (v : ℕ)
  | other
  deriving DecidableEq

/-- A slot of the mount table, with the device that its buffer cache was made for. -/
structure Mount where
  minix : Bool
  mountNode : Option Node
  rootNode : Option Node
  dev : ℕ
  bufDev : ℕ

def Mount.setNode (x : Mount) (node : Node) : Mount := { x with mountNode := some node }

def Mount.setRoot (x : Mount) (root : Option Node) : Mount := { x with rootNode := root }

def Mount.free (x : Mount) : Mount := { x with dev := 0 }

def Mount.initBufcache (x : Mount) : Mount := { x with bufDev := x.dev }

/-- The vnode cache, the mount table and the slot of the root. -/
structure System (ι : Type) where
  cache : Cache ι
  mountpoints : ℕ → Mount
  rootFs : Option ℕ

def maxVnodes : ℤ := 20
def vfsMountMax : ℕ := 4
def suUid : ℕ := 0
def intMax : ℤ := 2 ^ 31 - 1

def Cache.put (c : Cache ι) (v : ℕ) (n : Vnode ι) : Cache ι :=
  { c with vnodes := update c.vnodes v (some n) }

/-- Go through the list to the first vnode that passes the test; freed memory ends the run. -/
def scan (c : Cache ι) (link : ℕ → Option ℕ) (test : Vnode ι → Bool) (first : Option ℕ) :
    Option (Option ℕ) :=
  match walk link (fun v => ((c.vnodes v).map test).getD true) (c.nodesInCache.toNat + 1) first with
  | none => none
  | some none => some none
  | some (some v) => (c.vnodes v).map fun _ => some v

/-- Take a vnode off the list and free it. -/
def releaseVnode (c : Cache ι) (v : ℕ) : Option (Cache ι) :=
  (c.vnodes v).map fun _ =>
    { list := queueRemove c.list () v
      nodesInCache := c.nodesInCache - 1
      vnodes := update c.vnodes v none }

/-- The loop of `release_unused_vnodes`, while there are too many. -/
def releaseLoop : ℕ → Cache ι → Option (Cache ι)
  | 0, c => if c.nodesInCache - 1 ≥ maxVnodes then none else some c
  | fuel + 1, c =>
    if c.nodesInCache - 1 ≥ maxVnodes then
      match scan c c.list.prev (fun n => ¬ 0 < n.refcount) (c.list.tail ()) with
      | none => none
      | some none => some c
      | some (some last) => (releaseVnode c last).bind (releaseLoop fuel)
    else some c

def releaseUnusedVnodes (c : Cache ι) : Option (Cache ι) :=
  releaseLoop c.nodesInCache.toNat c

/-- The answers of `kmalloc` and of the read of the inode. -/
structure Load (ι : Type) where
  vnode : Option ℕ
  inode : Option ι

/-- The new vnode is in the list before its inode is read, and stays there when that fails. -/
def loadVnode (c : Cache ι) (mounts : ℕ → Mount) (mp ino : ℕ) (load : Load ι) :
    Option (Option ℕ × Cache ι) :=
  (releaseUnusedVnodes c).map fun c =>
    match load.vnode with
    | none => (none, c)
    | some v =>
      let list := queueInsert c.list () v
      match load.inode with
      | none => (none, { c with list := list, vnodes := update c.vnodes v none })
      | some inode =>
        (some v,
          { list := list
            nodesInCache := c.nodesInCache + 1
            vnodes := update c.vnodes v
              (some ⟨mp, 1, ino, false, some ⟨(mounts mp).bufDev, inode⟩⟩) })

def cloneVnode (c : Cache ι) (v : ℕ) : Option (Cache ι) :=
  match c.vnodes v with
  | none => none
  | some n => if n.refcount = intMax then none else some (c.put v { n with refcount := n.refcount + 1 })

/-- The cached vnode with this device and number. -/
def findVnode (c : Cache ι) (mounts : ℕ → Mount) (mp ino : ℕ) : Option (Option ℕ) :=
  scan c c.list.next (fun n => (mounts n.mp).dev = (mounts mp).dev ∧ n.ino = ino) (c.list.head ())

/-- The cached vnode, or a new one with the inode read into it. -/
def getVnode (c : Cache ι) (mounts : ℕ → Mount) (mp ino : ℕ) (load : Load ι) :
    Option (Option ℕ × Cache ι) :=
  match findVnode c mounts mp ino with
  | none => none
  | some (some v) => (cloneVnode c v).map fun c =>
    (some v, { c with list := queueInsert (queueRemove c.list () v) () v })
  | some none => loadVnode c mounts mp ino load

/-- A vnode without references stays in the cache, unless its inode was deleted. -/
def minixRelease (c : Cache ι) (v : ℕ) : Option (Cache ι) :=
  match c.vnodes v with
  | none => none
  | some n => if n.ino = 0 then releaseVnode c v else some c

/-- Drop a reference, and release the vnode with the last one. -/
def vfsReleaseVnode (c : Cache ι) (v : ℕ) : Option (Cache ι) :=
  match c.vnodes v with
  | none => none
  | some n =>
    let c := c.put v { n with refcount := n.refcount - 1 }
    if n.refcount - 1 = 0 then minixRelease c v else some c

def releaseNode (c : Cache ι) : Option Node → Option (Cache ι)
  | some (.minix v) => vfsReleaseVnode c v
  | _ => some c

def System.setMount (s : System ι) (i : ℕ) (m : Mount) : System ι :=
  { s with mountpoints := update s.mountpoints i m }

/-- What the file system's own part of a mount answers. -/
inductive Fs (ι : Type)
  | minix (superblock : ℤ) (root : Load ι)
  | other (error : ℤ)

def Fs.isMinix : Fs ι → Bool
  | .minix _ _ => true
  | .other _ => false

/-- Keep the root vnode that `minix_mount` got. -/
def takeRoot (s : System ι) (i : ℕ) (r : Option ℕ × Cache ι) : ℤ × System ι :=
  let s := { s with cache := r.2 }
  match r.1 with
  | none => (ENOMEM, s)
  | some v => (0, s.setMount i ((s.mountpoints i).setRoot (some (.minix v))))

/-- Read the superblock and get the root vnode. -/
def minixMount (s : System ι) (i : ℕ) (superblock : ℤ) (root : Load ι) : Option (ℤ × System ι) :=
  if superblock < 0 then some (superblock, s)
  else
    let s := s.setMount i (s.mountpoints i).initBufcache
    (getVnode s.cache s.mountpoints i 1 root).map (takeRoot s i)

def fsMount (s : System ι) (i : ℕ) : Fs ι → Option (ℤ × System ι)
  | .minix superblock root => minixMount s i superblock root
  | .other error =>
    if error ≠ 0 then some (error, s)
    else some (0, s.setMount i ((s.mountpoints i).setRoot (some .other)))

/-- Set or clear the mark that a file system is mounted on a vnode. -/
def markMounted (c : Cache ι) (mounted : Bool) : Node → Option (Cache ι)
  | .minix v => (c.vnodes v).map fun n => c.put v { n with mounted := mounted }
  | .other => some c

def mountRoot (s : System ι) (i : ℕ) : Option (System ι) :=
  let s := { s with rootFs := some i }
  match (s.mountpoints i).rootNode with
  | none => some s
  | some root =>
    let s' := s.setMount i ((s.mountpoints i).setNode root)
    match root with
    | .minix v => (cloneVnode s.cache v).map fun c => { s' with cache := c }
    | .other => some s'

/-- The end of `vfs_mount`, after the call of the file system. -/
def finishMount (s : System ι) (i : ℕ) (node : Option Node) (error : ℤ) :
    Option (ℤ × System ι) :=
  if error ≠ 0 then
    let s := s.setMount i (s.mountpoints i).free
    (releaseNode s.cache node).map fun c => (error, { s with cache := c })
  else match node with
    | some node => (markMounted s.cache true node).map fun c => (0, { s with cache := c })
    | none => (mountRoot s i).map fun s => (0, s)

/-- Fill a free slot and call the file system. -/
def mountSlot (s : System ι) (i : ℕ) (node : Option Node) (dev : ℕ) (fs : Fs ι) :
    Option (ℤ × System ι) :=
  (fsMount (s.setMount i ⟨fs.isMinix, node, none, dev, (s.mountpoints i).bufDev⟩) i fs).bind
    fun r => finishMount r.2 i node r.1

/-- The first slot with this device; a free one for device 0. -/
def slotOf (mounts : ℕ → Mount) (dev : ℕ) : Option ℕ :=
  (List.range vfsMountMax).find? fun i => (mounts i).dev = dev

/-- A device is mounted once, and only if there is a free slot. -/
def mountNode (s : System ι) (node : Option Node) (dev : ℕ) (fs : Fs ι) : Option (ℤ × System ι) :=
  if (slotOf s.mountpoints dev).isSome then some (EBUSY, s)
  else match slotOf s.mountpoints 0 with
    | none => some (ENOMEM, s)
    | some i => mountSlot s i node dev fs

/-- The answer of `vfs_lookup` for the place to mount on. -/
inductive Lookup
  | failed (error : ℤ)
  | found (node : Node) (mounted : Bool)

def isMounted (c : Cache ι) (mounted : Bool) : Node → Option Bool
  | .minix v => (c.vnodes v).map fun n => n.mounted
  | .other => some mounted

def mountOn (s : System ι) (node : Node) (dev : ℕ) (fs : Fs ι) : Option Bool → Option (ℤ × System ι)
  | none => none
  | some true => (releaseNode s.cache (some node)).map fun c => (EBUSY, { s with cache := c })
  | some false => mountNode s (some node) dev fs

def vfsMount (s : System ι) (lookup : Lookup) (dev uid : ℕ) (fs : Fs ι) : Option (ℤ × System ι) :=
  if uid ≠ suUid then some (EPERM, s)
  else if s.rootFs = none then mountNode s none dev fs
  else match lookup with
    | .failed error => some (error, s)
    | .found node flag => mountOn s node dev fs (isMounted s.cache flag node)

/-- The answers of the file system's own part of an unmount. -/
structure Unmount where
  sync : ℤ
  unmount : ℤ
  mounted : Bool

/-- The file system's part of an unmount: drop the root vnode. -/
def fsUnmount (s : System ι) (i : ℕ) (answers : Unmount) : Option (ℤ × System ι) :=
  if (s.mountpoints i).minix then
    (releaseNode s.cache (s.mountpoints i).rootNode).map fun c =>
      (0, { s with cache := c }.setMount i ((s.mountpoints i).setRoot none))
  else if answers.sync ≠ 0 then some (answers.sync, s)
  else some (answers.unmount, s)

/-- Drop the vnode that was mounted on. -/
def leaveNode (c : Cache ι) (node : Node) (mounted : Bool) : Option (Cache ι) :=
  (if mounted then markMounted c false node else some c).bind fun c => releaseNode c (some node)

/-- The end of `vfs_unmount`, which frees the slot. -/
def finishUnmount (s : System ι) (i : ℕ) (answers : Unmount) : Option (ℤ × System ι) :=
  match (s.mountpoints i).mountNode with
  | none => none
  | some node =>
    (isMounted s.cache answers.mounted node).bind fun mounted =>
      (leaveNode s.cache node mounted).map fun c =>
        (0, { s with cache := c, rootFs := if mounted then s.rootFs else none }.setMount i
          (s.mountpoints i).free)

def vfsUnmount (s : System ι) (dev uid : ℕ) (answers : Unmount) : Option (ℤ × System ι) :=
  match slotOf s.mountpoints dev with
  | none => some (ENODEV, s)
  | some i =>
    if uid ≠ suUid then some (EPERM, s)
    -- a free slot has no operations to call
    else if (s.mountpoints i).dev = 0 then none
    else (fsUnmount s i answers).bind fun r =>
      if r.1 ≠ 0 then some r else finishUnmount r.2 i answers

inductive Call (ι : Type)
  | mount (lookup : Lookup) (dev uid : ℕ) (fs : Fs ι)
  | unmount (dev uid : ℕ) (answers : Unmount)
  | get (mp ino : ℕ) (load : Load ι)
  | release (v : ℕ)
  | evict (v : ℕ)

def perform (s : System ι) : Call ι → Option (System ι)
  | .mount lookup dev uid fs => (vfsMount s lookup dev uid fs).map Prod.snd
  | .unmount dev uid answers => (vfsUnmount s dev uid answers).map Prod.snd
  | .get mp ino load => (getVnode s.cache s.mountpoints mp ino load).map fun r =>
    { s with cache := r.2 }
  | .release v => (vfsReleaseVnode s.cache v).map fun c => { s with cache := c }
  | .evict v => (releaseVnode s.cache v).map fun c => { s with cache := c }

def Mount.minixOn (m : Mount) : Prop := m.dev ≠ 0 ∧ m.minix = true
deriving Decidable

def Mount.refs (m : Mount) (v : ℕ) : ℤ :=
  if m.dev = 0 then 0
  else (if m.rootNode = some (.minix v) then 1 else 0) +
    (if m.mountNode = some (.minix v) then 1 else 0)

/-- The references that the mount table holds on a vnode. -/
def held (mounts : ℕ → Mount) (v : ℕ) : ℤ := ∑ i ∈ Finset.range vfsMountMax, (mounts i).refs v

/-- New memory is memory that is not in use. -/
def Load.Fresh (load : Load ι) (c : Cache ι) : Prop :=
  ∀ v ∈ load.vnode, ∀ c', releaseUnusedVnodes c = some c' → c'.vnodes v = none

def Fs.Fresh (fs : Fs ι) (c : Cache ι) : Prop :=
  match fs with
  | .minix _ root => root.Fresh c
  | .other _ => True

/-- Somebody besides the mount table holds a reference. -/
def Referenced (s : System ι) (v : ℕ) : Prop :=
  ∃ n, s.cache.vnodes v = some n ∧ held s.mountpoints v < n.refcount

/-- References are released by those who have them, and a device is unmounted when it is unused. -/
def Permitted (s : System ι) : Call ι → Prop
  | .mount lookup _ _ fs => fs.Fresh s.cache ∧
      match lookup with
      | .found (.minix v) _ => s.rootFs ≠ none → Referenced s v
      | _ => True
  | .unmount dev _ _ => dev ≠ 0 ∧ ∀ i, slotOf s.mountpoints dev = some i →
      ∀ v n, s.cache.vnodes v = some n → n.mp = i → n.refcount = (s.mountpoints i).refs v
  | .get mp _ load => mp < vfsMountMax ∧ (s.mountpoints mp).minixOn ∧ load.Fresh s.cache
  | .release v => Referenced s v
  | .evict v => ∃ n, s.cache.vnodes v = some n ∧ n.refcount = 0

def Step (s : System ι) (e : Call ι) (t : System ι) : Prop := Permitted s e ∧ perform s e = some t

/-- Nothing is mounted or cached. -/
def start : System ι :=
  ⟨⟨queueInit, 0, fun _ => none⟩, fun _ => ⟨false, none, none, 0, 0⟩, none⟩

end Gloworm.MinixVnode
