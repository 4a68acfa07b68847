import Gloworm.ErrorNumbers
import Gloworm.TransitionRuns

/-! The virtual file system of `vfs.c`: path lookup, the mount table, the table of open files and
the calls. A vnode is named by the file it stands for, and what the file systems do is a parameter.
A call that faults has no result. -/
namespace Gloworm.Vfs
open Function Transition

def sIfmt : ℕ := 0o170000
def sIfreg : ℕ := 0o100000
def sIfblk : ℕ := 0o060000
def sIfdir : ℕ := 0o040000
def sIfchr : ℕ := 0o020000

def sIsreg (mode : ℕ) : Bool := mode &&& sIfmt = sIfreg
def sIsdir (mode : ℕ) : Bool := mode &&& sIfmt = sIfdir
def sIsdev (mode : ℕ) : Bool := mode &&& sIfmt = sIfchr ∨ mode &&& sIfmt = sIfblk

def oAccmode : ℕ := 0o3
def oRdonly : ℕ := 0o0
def oWronly : ℕ := 0o1
def oCreat : ℕ := 0o100
def oTrunc : ℕ := 0o1000
def oAppend : ℕ := 0o2000

def xOk : ℕ := 1
def wOk : ℕ := 2
def rOk : ℕ := 4

/-- Some bit of `flag` is set. -/
def hasFlag (flags flag : ℕ) : Bool := flags &&& flag != 0

def suUid : ℕ := 0
def vfsSep : UInt8 := 47
def vfsMountMax : ℕ := 4
def fileTableMax : ℕ := 16

abbrev Name := List UInt8

def dot : Name := [46]
def dotDot : Name := [46, 46]

/-- The attributes of a file, and whether a file system is mounted on it. -/
structure Vnode where
  mode : ℕ
  uid : ℕ
  gid : ℕ
  size : ℕ
  mounted : Bool
  mp : ℕ

/-- The vnodes, and what is on the devices. -/
structure World (D : Type) where
  node : ℕ → Vnode
  disk : D

/-- A slot of the mount table. It is free when `dev` is 0. -/
structure Mount where
  dev : ℕ
  mountNode : Option ℕ
  rootNode : Option ℕ
  readOnly : Bool

inductive FileOps
  | fs
  | device
  deriving DecidableEq

/-- A slot of the table of open files. It is free when it has no vnode. -/
structure File where
  ops : FileOps
  vnode : Option ℕ
  refcount : ℤ
  flags : ℕ
  position : ℕ

/-- The world, the references to vnodes, the mount table and the open files. -/
structure State (D : Type) where
  world : World D
  refs : ℕ → ℤ
  mounts : ℕ → Mount
  rootFs : Option ℕ
  files : ℕ → File

/-- What the file systems do, and what is found behind a `NULL` vnode, if that can be read at all. A
failed lookup or `create` leaves the result as it is. -/
structure Fs (D : Type) where
  nameMax : ℕ
  nameMax_ge : 2 ≤ nameMax
  nullReadOnly : Option Bool
  lookup : World D → ℕ → Name → Except ℤ ℕ
  create : World D → ℕ → Name → ℕ → ℕ → Except ℤ ℕ × World D
  mknod : World D → ℕ → Name → ℕ → ℕ → ℕ → Except ℤ ℕ × World D
  link : World D → ℕ → ℕ → Name → ℤ × World D
  unlink : World D → ℕ → ℕ → Name → ℤ × World D
  rename : World D → ℕ → ℕ → Name → ℕ → Name → ℤ × World D
  truncate : World D → ℕ → World D
  update : World D → ℕ → ℤ × World D
  mount : World D → ℕ → ℕ → Option ℕ → Except ℤ (Option ℕ) × World D
  sync : World D → ℕ → ℤ × World D
  openFile : World D → FileOps → ℕ → ℕ → ℤ × World D
  closeFile : World D → FileOps → ℕ → ℤ × World D
  read : World D → File → ℕ → ℤ × ℕ × World D
  write : World D → File → Name → ℤ × ℕ × World D
  readdir : World D → File → ℤ × ℕ × World D

/-- The bits of the owner, the group or the others allow what is required. -/
def verifyModeAccess (uid required : ℕ) (node : Vnode) : Bool :=
  if uid = suUid ∨ uid = node.uid then required = required &&& (node.mode >>> 6 &&& 7)
  else required = required &&& (node.mode &&& 7)

/-- What follows the last separator, a trailing one apart. -/
def pathLastComponent (path : Name) : Name :=
  let body := if path.getLast? = some vfsSep then path.dropLast else path
  path.drop (body.length - (body.reverse.takeWhile (· ≠ vfsSep)).length)

def pathValidComponent (path : Name) : Bool :=
  path ≠ [] ∧ path.all fun c => ¬(c.toInt8 ≤ 0x20) ∧ c ≠ vfsSep

section Calls
variable {D : Type}

/-- One more reference to `v`. -/
def vfsCloneVnode (s : State D) (v : ℕ) : State D :=
  { s with refs := update s.refs v (s.refs v + 1) }

/-- One reference to `v` less. -/
def vfsReleaseVnode (s : State D) (v : ℕ) : State D :=
  { s with refs := update s.refs v (s.refs v - 1) }

/-- The slot of the file system that is mounted on `v`. -/
def findMountByVnode (mounts : ℕ → Mount) (v : ℕ) : Option ℕ :=
  (List.range vfsMountMax).find? fun i => (mounts i).mountNode = some v

variable (fs : Fs D)

/-- The name up to the next separator, cut to the buffer, and the rest of the path. -/
def nextComponent (path : Name) : Name × Name :=
  let component := (path.take (fs.nameMax - 1)).takeWhile (· ≠ vfsSep)
  let rest := path.drop component.length
  (component, if rest.head? = some vfsSep then rest.tail else rest)

/-- From a vnode that is mounted on to the root of the mounted file system. -/
def enterMount (s : State D) (cur : ℕ) : Option (Except ℤ ℕ × State D) :=
  if (s.world.node cur).mounted then
    match findMountByVnode s.mounts cur with
    | none => some (.error ENXIO, vfsReleaseVnode s cur)
    | some i => (s.mounts i).rootNode.map fun root =>
      (.ok root, vfsCloneVnode (vfsReleaseVnode s cur) root)
  else some (.ok cur, s)

/-- From the root of a mounted file system to the vnode that it is mounted on, for `..`. -/
def leaveMount (s : State D) (cur : ℕ) (component : Name) : Option (ℕ × State D) :=
  let mp := s.mounts (s.world.node cur).mp
  if mp.rootNode = some cur ∧ component = dotDot then
    mp.mountNode.map fun v => (v, vfsCloneVnode (vfsReleaseVnode s cur) v)
  else some (cur, s)

/-- The loop of `vfs_lookup`, one component a turn. -/
def lookupLoop (parentOf : Bool) (uid : ℕ) :
    ℕ → State D → ℕ → Name → Option (Except ℤ ℕ × State D)
  | 0, _, _, _ => none
  | fuel + 1, s, cur, path => do
    match ← enterMount s cur with
    | (.error e, s) => some (.error e, s)
    | (.ok cur, s) =>
      if path = [] then some (.ok cur, s)
      else if !sIsdir (s.world.node cur).mode then some (.error ENOTDIR, vfsReleaseVnode s cur)
      else if !verifyModeAccess uid rOk (s.world.node cur) then
        some (.error EPERM, vfsReleaseVnode s cur)
      else
        let (component, rest) := nextComponent fs path
        if parentOf ∧ rest = [] then lookupLoop parentOf uid fuel s cur rest
        else
          let (cur, s) ← leaveMount s cur component
          match fs.lookup s.world cur component with
          | .error e => some (.error e, vfsReleaseVnode s cur)
          | .ok next =>
            lookupLoop parentOf uid fuel (vfsCloneVnode (vfsReleaseVnode s cur) next) next rest

/-- An absolute path starts at the root, another one at the current directory. -/
def lookupStart (s : State D) (cwd : Option ℕ) (path : Name) : Option (ℕ × Name) :=
  let root := do (s.mounts (← s.rootFs)).rootNode
  if path.head? = some vfsSep then root.map fun v => (v, path.tail)
  else (cwd.orElse fun _ => root).map fun v => (v, path)

/-- Find the vnode of a path, or of its parent directory, and take a reference to it. -/
def vfsLookup (s : State D) (cwd : Option ℕ) (path : Name) (parentOf : Bool) (uid : ℕ) :
    Option (Except ℤ ℕ × State D) := do
  let (cur, path) ← lookupStart s cwd path
  lookupLoop fs parentOf uid (path.length + 2) (vfsCloneVnode s cur) cur path

/-- The mount that `v` lies on is read-only. -/
def readOnly (s : State D) (v : ℕ) : Bool := (s.mounts (s.world.node v).mp).readOnly

def mayAccess (s : State D) (uid required v : ℕ) : Bool :=
  verifyModeAccess uid required (s.world.node v)

def setNode (s : State D) (v : ℕ) (node : Vnode) : State D :=
  { s with world := { s.world with node := update s.world.node v node } }

def vfsAccess (s : State D) (cwd : Option ℕ) (path : Name) (mode uid : ℕ) : Option (ℤ × State D) := do
  match ← vfsLookup fs s cwd path false uid with
  | (.error e, s) => some (e, s)
  | (.ok v, s) =>
    let error := if mode ≠ 0 ∧ !mayAccess s uid mode v then EPERM else 0
    some (error, vfsReleaseVnode s v)

/-- Write changed attributes back and drop the reference. -/
def vfsUpdate (s : State D) (v : ℕ) (node : Vnode) : ℤ × State D :=
  let s := setNode s v node
  let (error, world) := fs.update s.world v
  (error, vfsReleaseVnode { s with world := world } v)

def vfsChmod (s : State D) (cwd : Option ℕ) (path : Name) (mode uid : ℕ) : Option (ℤ × State D) := do
  match ← vfsLookup fs s cwd path false uid with
  | (.error e, s) => some (e, s)
  | (.ok v, s) =>
    if readOnly s v then some (EROFS, s)
    else if !mayAccess s uid wOk v then some (EPERM, s)
    else
      let node := s.world.node v
      let kept := node.mode - (node.mode &&& 0o7777)
      some (vfsUpdate fs s v { node with mode := kept ||| (mode &&& 0o7777) })

def vfsChown (s : State D) (cwd : Option ℕ) (path : Name) (owner group uid : ℕ) :
    Option (ℤ × State D) := do
  match ← vfsLookup fs s cwd path false uid with
  | (.error e, s) => some (e, s)
  | (.ok v, s) =>
    if readOnly s v then some (EROFS, s)
    else if !mayAccess s uid wOk v then some (EPERM, vfsReleaseVnode s v)
    else some (vfsUpdate fs s v { s.world.node v with uid := owner, gid := group })

def vfsMknod (s : State D) (cwd : Option ℕ) (path : Name) (mode dev uid : ℕ) :
    Option (Except ℤ ℕ × State D) := do
  match ← vfsLookup fs s cwd path true uid with
  | (.error e, s) => some (.error e, s)
  | (.ok v, s) =>
    if readOnly s v then some (.error EROFS, s)
    else if !mayAccess s uid wOk v then some (.error EPERM, vfsReleaseVnode s v)
    else
      let filename := pathLastComponent path
      match fs.lookup s.world v filename with
      | .ok tmp =>
        some (.error EEXIST, vfsReleaseVnode (vfsReleaseVnode (vfsCloneVnode s tmp) tmp) v)
      | .error e =>
        if e ≠ ENOENT then some (.error e, vfsReleaseVnode s v)
        else match fs.mknod s.world v filename mode dev uid with
          | (.error e, world) => some (.error e, vfsReleaseVnode { s with world := world } v)
          | (.ok result, world) =>
            some (.ok result, vfsReleaseVnode (vfsCloneVnode { s with world := world } result) v)

/-- The error that `vfs_link` answers before it calls the file system. -/
def linkError (s : State D) (v parent : ℕ) (found : Except ℤ ℕ) (uid : ℕ) : ℤ :=
  let error := match found with
    | .ok _ => EEXIST
    | .error e => if e = ENOENT then 0 else EEXIST
  let error := if error = 0 ∧ !mayAccess s uid wOk parent then EACCES else error
  if error = 0 ∧ (s.world.node v).mp ≠ (s.world.node parent).mp then EXDEV else error

/-- The rest of `vfs_link` when both the file and the new parent are found. -/
def linkAt (s : State D) (v parent : ℕ) (newpath : Name) (uid : ℕ) : ℤ × State D :=
  let filename := pathLastComponent newpath
  let found := fs.lookup s.world parent filename
  let s := match found with
    | .ok tmp => vfsReleaseVnode (vfsCloneVnode s tmp) tmp
    | .error _ => s
  let error := linkError s v parent found uid
  if error ≠ 0 then (error, vfsReleaseVnode (vfsReleaseVnode s v) parent)
  else
    let (error, world) := fs.link s.world v parent filename
    (error, vfsReleaseVnode (vfsReleaseVnode { s with world := world } parent) v)

/-- Find both files of `vfs_link`. -/
def linkVnodes (s : State D) (cwd : Option ℕ) (oldpath newpath : Name) (uid : ℕ) :
    Option (ℤ × State D) := do
  match ← vfsLookup fs s cwd oldpath false uid with
  | (.error e, s) => some (e, s)
  | (.ok v, s) =>
    match ← vfsLookup fs s cwd newpath true uid with
    | (.error e, s) => some (e, vfsReleaseVnode s v)
    | (.ok parent, s) => some (linkAt fs s v parent newpath uid)

def vfsLink (s : State D) (cwd : Option ℕ) (oldpath newpath : Name) (uid : ℕ) :
    Option (ℤ × State D) := do
  if ← fs.nullReadOnly then some (EROFS, s) else linkVnodes fs s cwd oldpath newpath uid

/-- The rest of `vfs_unlink` when the parent is found. -/
def unlinkAt (s : State D) (parent : ℕ) (path : Name) (uid : ℕ) : ℤ × State D :=
  if !mayAccess s uid wOk parent then (EACCES, vfsReleaseVnode s parent)
  else
    let filename := pathLastComponent path
    match fs.lookup s.world parent filename with
    | .error e => (e, vfsReleaseVnode s parent)
    | .ok v =>
      let s := vfsCloneVnode s v
      let (error, world) :=
        if !mayAccess s uid wOk v then (EPERM, s.world) else fs.unlink s.world parent v filename
      (error, vfsReleaseVnode (vfsReleaseVnode { s with world := world } parent) v)

def vfsUnlink (s : State D) (cwd : Option ℕ) (path : Name) (uid : ℕ) : Option (ℤ × State D) := do
  match ← vfsLookup fs s cwd path true uid with
  | (.error e, s) => some (e, s)
  | (.ok parent, s) =>
    if ← fs.nullReadOnly then some (EROFS, s) else some (unlinkAt fs s parent path uid)

/-- The directory that a name is moved from or to, which must be writable. -/
def renameFindParent (s : State D) (cwd : Option ℕ) (path : Name) (uid : ℕ) :
    Option (Except ℤ ℕ × State D) := do
  match ← vfsLookup fs s cwd path true uid with
  | (.error e, s) => some (.error e, s)
  | (.ok v, s) =>
    if readOnly s v then some (.error EROFS, s)
    else if !mayAccess s uid (wOk ||| xOk) v then some (.error EACCES, vfsReleaseVnode s v)
    else some (.ok v, s)

def validName (name : Name) : Bool := name ≠ [] ∧ name ≠ dot ∧ name ≠ dotDot

/-- The rest of `vfs_rename` when both parents are found. -/
def renameAt (s : State D) (oldparent : ℕ) (oldname : Name) (newparent : ℕ) (newname : Name) :
    ℤ × State D :=
  match fs.lookup s.world oldparent oldname with
  | .error e => (e, vfsReleaseVnode (vfsReleaseVnode s oldparent) newparent)
  | .ok v =>
    let s := vfsCloneVnode s v
    let (error, world) := fs.rename s.world v oldparent oldname newparent newname
    let s := { s with world := world }
    (error, vfsReleaseVnode (vfsReleaseVnode (vfsReleaseVnode s oldparent) newparent) v)

def vfsRename (s : State D) (cwd : Option ℕ) (oldpath newpath : Name) (uid : ℕ) :
    Option (ℤ × State D) :=
  let oldname := pathLastComponent oldpath
  let newname := pathLastComponent newpath
  if !validName oldname ∨ !validName newname then some (EINVAL, s)
  else do
    match ← renameFindParent fs s cwd oldpath uid with
    | (.error e, s) => some (e, s)
    | (.ok oldparent, s) =>
      match ← renameFindParent fs s cwd newpath uid with
      | (.error e, s) => some (e, vfsReleaseVnode s oldparent)
      | (.ok newparent, s) => some (renameAt fs s oldparent oldname newparent newname)

def setMount (s : State D) (i : ℕ) (m : Mount) : State D :=
  { s with mounts := update s.mounts i m }

/-- Mount a device on a vnode, or as the root when there is none. -/
def mountAt (s : State D) (vnode : Option ℕ) (dev : ℕ) (readOnly : Bool) :
    Option (Except ℤ ℕ × State D) :=
  let release s := vnode.elim s (vfsReleaseVnode s)
  if vnode.any fun v => (s.world.node v).mounted then some (.error EBUSY, release s)
  else if (List.range vfsMountMax).any fun i => (s.mounts i).dev = dev then some (.error EBUSY, s)
  else match (List.range vfsMountMax).find? fun i => (s.mounts i).dev = 0 with
    | none => some (.error ENOMEM, s)
    | some i =>
      match fs.mount s.world i dev vnode with
      | (.error e, world) =>
        some (.error e, release (setMount { s with world := world } i ⟨0, vnode, none, readOnly⟩))
      | (.ok root, world) =>
        let s := { s with world := world }
        let s := root.elim s (vfsCloneVnode s)
        match vnode with
        | some v =>
          let s := setMount s i ⟨dev, some v, root, readOnly⟩
          some (.ok i, setNode s v { s.world.node v with mounted := true })
        | none =>
          let s := root.elim s (vfsCloneVnode s)
          some (.ok i, { setMount s i ⟨dev, root, root, readOnly⟩ with rootFs := some i })

def vfsMount (s : State D) (cwd : Option ℕ) (path : Name) (dev : ℕ) (readOnly : Bool) (uid : ℕ) :
    Option (Except ℤ ℕ × State D) :=
  if uid ≠ suUid then some (.error EPERM, s)
  else if s.rootFs = none then mountAt fs s none dev readOnly
  else do
    match ← vfsLookup fs s cwd path false uid with
    | (.error e, s) => some (.error e, s)
    | (.ok v, s) => mountAt fs s (some v) dev readOnly

def setFile (s : State D) (i : ℕ) (file : File) : State D :=
  { s with files := update s.files i file }

/-- The first free slot of the file table. -/
def newFileptr (s : State D) : Option ℕ :=
  (List.range fileTableMax).find? fun i => (s.files i).vnode = none

/-- Drop one reference to an open file and free the slot with the last one. -/
def freeFileptr (s : State D) (i : ℕ) : State D :=
  let file := { s.files i with refcount := (s.files i).refcount - 1 }
  if file.refcount = 0 then
    setFile (file.vnode.elim s (vfsReleaseVnode s)) i { file with vnode := none }
  else setFile s i file

/-- The access that the flags of `vfs_open` ask for. -/
def requiredMode (flags : ℕ) : ℕ :=
  (if flags &&& oAccmode ≠ oWronly then rOk else 0) |||
    (if flags &&& oAccmode ≠ oRdonly then wOk else 0)

/-- A regular file is cut when it is opened with `O_TRUNC`. -/
def openedWorld (s : State D) (v flags : ℕ) : World D :=
  if hasFlag flags oTrunc ∧ sIsreg (s.world.node v).mode then fs.truncate s.world v else s.world

def openedFile (world : World D) (v flags : ℕ) : File :=
  let node := world.node v
  { ops := if sIsdev node.mode then .device else .fs
    vnode := some v
    refcount := 1
    flags := flags
    position := if hasFlag flags oAppend ∧ sIsreg node.mode then node.size else 0 }

/-- The rest of `vfs_open` when the vnode is found or made. -/
def openVnode (s : State D) (v flags uid : ℕ) : Except ℤ ℕ × State D :=
  if !mayAccess s uid (requiredMode flags) v then (.error EPERM, vfsReleaseVnode s v)
  else match newFileptr s with
    | none => (.error ENFILE, s)
    | some i =>
      let world := openedWorld fs s v flags
      let file := openedFile world v flags
      let (error, world) := fs.openFile world file.ops v flags
      let s := setFile { s with world := world } i file
      if error ≠ 0 then (.error error, freeFileptr s i) else (.ok i, s)

def vfsOpen (s : State D) (cwd : Option ℕ) (path : Name) (flags mode uid : ℕ) :
    Option (Except ℤ ℕ × State D) := do
  let mode := if mode &&& sIfmt = 0 then mode ||| sIfreg else mode
  match ← vfsLookup fs s cwd path (hasFlag flags oCreat) uid with
  | (.error e, s) => some (.error e, s)
  | (.ok v, s) =>
    if hasFlag flags oCreat then
      let filename := pathLastComponent path
      if !pathValidComponent filename then some (.error EINVAL, vfsReleaseVnode s v)
      else match fs.lookup s.world v filename with
        | .ok found => some (openVnode fs (vfsCloneVnode (vfsReleaseVnode s v) found) found flags uid)
        | .error _ =>
          if readOnly s v then some (.error EROFS, s)
          else if !mayAccess s uid wOk v then some (.error EPERM, vfsReleaseVnode s v)
          else match fs.create s.world v filename mode uid with
            -- The result of a failed `create` is still the parent, which is released twice.
            | (.error e, world) =>
              some (.error e, vfsReleaseVnode (vfsReleaseVnode { s with world := world } v) v)
            | (.ok new, world) =>
              let s := vfsReleaseVnode (vfsCloneVnode { s with world := world } new) v
              some (openVnode fs s new flags uid)
    else some (openVnode fs s v flags uid)

def vfsClose (s : State D) (i : ℕ) : Option (ℤ × State D) := do
  let file := s.files i
  if file.refcount = 1 then
    let v ← file.vnode
    let (error, world) := fs.closeFile s.world file.ops v
    some (error, freeFileptr { s with world := world } i)
  else some (0, freeFileptr s i)

/-- Keep the position that a read or a write has got to. -/
def transfer (s : State D) (i : ℕ) (result : ℤ × ℕ × World D) : ℤ × State D :=
  let (count, position, world) := result
  (count, setFile { s with world := world } i { s.files i with position := position })

def vfsRead (s : State D) (i length : ℕ) : Option (ℤ × State D) := do
  let file := s.files i
  if file.flags &&& oAccmode = oWronly then some (EACCES, s)
  else if file.vnode = none then none
  else some (transfer s i (fs.read s.world file length))

def vfsWrite (s : State D) (i : ℕ) (data : Name) : Option (ℤ × State D) := do
  let file := s.files i
  let v ← file.vnode
  let mode := (s.world.node v).mode
  if readOnly s v ∧ (sIsreg mode ∨ sIsdir mode) then some (EROFS, s)
  else if file.flags &&& oAccmode = oRdonly then some (EACCES, s)
  else some (transfer s i (fs.write s.world file data))

def vfsReaddir (s : State D) (i : ℕ) : Option (ℤ × State D) := do
  let file := s.files i
  if file.vnode = none then none else some (transfer s i (fs.readdir s.world file))

/-- The loop of `vfs_sync` over the mount table. -/
def syncLoop (dev : ℕ) : List ℕ → State D → ℤ × State D
  | [], s => (0, s)
  | i :: rest, s =>
    if dev ≠ 0 ∧ (s.mounts i).dev ≠ dev ∨ (s.mounts i).dev = 0 ∨ (s.mounts i).readOnly then
      syncLoop dev rest s
    else
      let (error, world) := fs.sync s.world i
      let s := { s with world := world }
      if error ≠ 0 then (error, s) else syncLoop dev rest s

def vfsSync (s : State D) (dev : ℕ) : ℤ × State D := syncLoop fs dev (List.range vfsMountMax) s
end Calls
end Gloworm.Vfs
