import Gloworm.ErrorNumbers
import Gloworm.TransitionRuns

/-! File descriptor tables, the table of open files and the calls that change them. A call has
no result when it reads or writes outside the slots of a descriptor table. -/
namespace Gloworm.FileDesc
open Function Transition

def openMax : ℕ := 20
def fileTableMax : ℕ := 16

/-- An entry of a descriptor table: free, reserved, or an open file. -/
inductive Slot
  | null
  | one
  | file (n : ℕ)
  deriving DecidableEq

/-- A slot of the table of open files. -/
structure Vfile where
  vnode : Option ℕ
  refcount : ℤ

/-- A descriptor table, which processes can share. -/
structure FdTable where
  refcount : ℤ
  files : ℕ → Slot

/-- `closes` is the history of calls of a file's `close` operation. -/
structure State where
  fileTable : ℕ → Vfile
  tables : ℕ → FdTable
  tableCount : ℕ
  procs : ℕ → Option ℕ
  procCount : ℕ
  closes : List ℕ

def FdTable.put (table : FdTable) (fd : ℕ) (slot : Slot) : FdTable :=
  ⟨table.refcount, update table.files fd slot⟩

def newFileptr (s : State) (vnode : ℕ) : Option (ℕ × State) :=
  ((List.range fileTableMax).find? fun i => (s.fileTable i).vnode.isNone).map fun i =>
    (i, { s with fileTable := update s.fileTable i ⟨some vnode, 1⟩ })

def dupFileptr (s : State) (n : ℕ) : State :=
  { s with
    fileTable := update s.fileTable n
      ⟨(s.fileTable n).vnode, (s.fileTable n).refcount + 1⟩ }

def freeFileptr (s : State) (n : ℕ) : State :=
  let refcount := (s.fileTable n).refcount - 1
  { s with
    fileTable := update s.fileTable n
      ⟨if refcount = 0 then none else (s.fileTable n).vnode, refcount⟩ }

/-- The file is closed with its last reference. -/
def vfsClose (s : State) (n : ℕ) : State :=
  freeFileptr (if (s.fileTable n).refcount = 1 then { s with closes := s.closes ++ [n] } else s) n

def InTable (fd : ℤ) : Prop := 0 ≤ fd ∧ fd < openMax
deriving Decidable

/-- An index outside of the table has no result. -/
def readSlot (s : State) (table : ℕ) (fd : ℤ) : Option Slot :=
  if InTable fd then some ((s.tables table).files fd.toNat) else none

def putSlot (s : State) (table fd : ℕ) (slot : Slot) : State :=
  { s with tables := update s.tables table ((s.tables table).put fd slot) }

def writeSlot (s : State) (table : ℕ) (fd : ℤ) (slot : Slot) : Option State :=
  if InTable fd then some (putSlot s table fd.toNat slot) else none

/-- The first free descriptor. -/
def findUnusedFd (s : State) (table : ℕ) : ℤ :=
  match (List.range openMax).find? fun i => (s.tables table).files i == .null with
  | some i => i
  | none => EMFILE

/-- For an empty slot the test reads the `vnode` of address 0; either outcome gives `NULL`. -/
def getFd (s : State) (table : ℕ) (fd : ℤ) : Option (Option ℕ) :=
  if openMax ≤ fd then some none
  else (readSlot s table fd).map fun slot => match slot with
    | .null => none
    | .one => none
    | .file n => if (s.fileTable n).vnode.isNone then none else some n

def setFd (s : State) (table : ℕ) (fd : ℤ) (slot : Slot) : Option State :=
  if openMax ≤ fd then some s else writeSlot s table fd slot

def dupFd (s : State) (table : ℕ) (fd : ℤ) (n : ℕ) : Option State :=
  if openMax ≤ fd then some s else writeSlot (dupFileptr s n) table fd (.file n)

def freeFd (s : State) (table : ℕ) (fd : ℤ) : Option State :=
  (readSlot s table fd).bind fun slot => match slot with
    | .file n => setFd (vfsClose s n) table fd .null
    | _ => setFd s table fd .null

/-- The answers of the lookup and of the file system's `open`. -/
inductive Opening
  | refused (error : ℤ)
  | reaches (vnode : ℕ) (opened : Option ℤ)

def vfsOpen (s : State) : Opening → Except ℤ ℕ × State
  | .refused error => (.error error, s)
  | .reaches vnode opened => match newFileptr s vnode with
    | none => (.error ENFILE, s)
    | some (n, s) => match opened with
      | none => (.ok n, s)
      | some error => (.error error, freeFileptr s n)

def doOpen (s : State) (table : ℕ) (opening : Opening) : Option (ℤ × State) :=
  let fd := findUnusedFd s table
  if fd < 0 then some (fd, s)
  else match vfsOpen s opening with
    | (.error error, s) => some (error, s)
    | (.ok n, s) => (setFd s table fd (.file n)).map fun s => (fd, s)

def doClose (s : State) (table : ℕ) (fd : ℤ) : Option (ℤ × State) :=
  (getFd s table fd).bind fun file => match file with
    | none => some (EBADF, s)
    | some _ => (freeFd s table fd).map fun s => (0, s)

def vfsCreatePipe (s : State) (vnode : Option ℕ) : Except ℤ (ℕ × ℕ) × State :=
  match vnode with
  | none => (.error ENOMEM, s)
  | some vnode => match newFileptr s vnode with
    | none => (.error ENFILE, s)
    | some (rfile, s) => match newFileptr s vnode with
      | none => (.error ENFILE, freeFileptr s rfile)
      | some (wfile, s) => (.ok (rfile, wfile), s)

def doPipe (s : State) (table : ℕ) (pipefd : Bool) (vnode : Option ℕ) : Option (ℤ × State) :=
  if !pipefd then some (EINVAL, s)
  else
    let readFd := findUnusedFd s table
    (setFd s table readFd .one).bind fun s =>
    let writeFd := findUnusedFd s table
    (setFd s table readFd .null).bind fun s =>
    (setFd s table writeFd .null).bind fun s =>
    if readFd < 0 ∨ writeFd < 0 then some (EMFILE, s)
    else match vfsCreatePipe s vnode with
      | (.error error, s) => some (error, s)
      | (.ok (rfile, wfile), s) =>
        (setFd s table readFd (.file rfile)).bind fun s =>
        (setFd s table writeFd (.file wfile)).map fun s => (0, s)

def doDup2 (s : State) (table : ℕ) (oldfd newfd : ℤ) : Option (ℤ × State) :=
  (getFd s table oldfd).bind fun fileptr => match fileptr with
    | none => some (EBADF, s)
    | some n =>
      if openMax ≤ newfd then some (EBADF, s)
      else (getFd s table newfd).bind fun exfileptr =>
        let s := match exfileptr with
          | none => s
          | some ex => vfsClose s ex
        (dupFd s table newfd n).map fun s => (0, s)

def allocFdTable (s : State) : ℕ × State :=
  (s.tableCount, { s with
    tables := update s.tables s.tableCount ⟨1, fun _ => .null⟩
    tableCount := s.tableCount + 1 })

def dupSlot (dest source : ℕ) (s : State) (i : ℕ) : State :=
  match (s.tables source).files i with
  | .file n => putSlot (dupFileptr s n) dest i (.file n)
  | _ => s

/-- The loop that copies the descriptors of the parent. -/
def dupFdTable (s : State) (dest source : ℕ) (limit : ℕ) : State :=
  (List.range ((if limit = 0 then openMax - 1 else limit) + 1)).foldl (dupSlot dest source) s

def releaseSlot (table : ℕ) (s : State) (i : ℕ) : State :=
  match (s.tables table).files i with
  | .file n => putSlot (vfsClose s n) table i .null
  | _ => s

/-- Close every file of a table. -/
def releaseFdTable (s : State) (table : ℕ) : State :=
  (List.range openMax).foldl (releaseSlot table) s

def setTableRefcount (s : State) (table : ℕ) (refcount : ℤ) : State :=
  { s with tables := update s.tables table ⟨refcount, (s.tables table).files⟩ }

/-- Drop one user of a table and release it with the last. -/
def freeFdTable (s : State) (table : ℕ) : State :=
  let refcount := (s.tables table).refcount - 1
  let s := setTableRefcount s table refcount
  if refcount = 0 then releaseFdTable s table else s

/-- The point at which `fork` fails, if it does. -/
inductive Forking
  | failsBefore (error : ℤ)
  | failsAfter (error : ℤ)
  | succeeds

/-- Share the table of the parent, or copy it. -/
def cloneFdTable (s : State) (table : ℕ) (share : Bool) : ℕ × State :=
  if share then (table, setTableRefcount s table ((s.tables table).refcount + 1))
  else
    let (dest, s) := allocFdTable s
    (dest, dupFdTable s dest table 0)

def doFork (s : State) (table : ℕ) (share : Bool) : Forking → ℤ × State
  | .failsBefore error => (error, s)
  | .failsAfter error =>
    let (dest, s) := cloneFdTable s table share
    (error, freeFdTable s dest)
  | .succeeds =>
    let (dest, s) := cloneFdTable s table share
    (s.procCount, { s with
      procs := update s.procs s.procCount (some dest)
      procCount := s.procCount + 1 })

def doExit (s : State) (proc table : ℕ) : State :=
  freeFdTable { s with procs := update s.procs proc none } table

inductive Call
  | openFile (opening : Opening)
  | close (fd : ℤ)
  | dup2 (oldfd newfd : ℤ)
  | pipe (pipefd : Bool) (vnode : Option ℕ)
  | fork (share : Bool) (forking : Forking)
  | exit

def perform (s : State) (proc table : ℕ) : Call → Option (ℤ × State)
  | .openFile opening => doOpen s table opening
  | .close fd => doClose s table fd
  | .dup2 oldfd newfd => doDup2 s table oldfd newfd
  | .pipe pipefd vnode => doPipe s table pipefd vnode
  | .fork share forking => some (doFork s table share forking)
  | .exit => some (0, doExit s proc table)

def Call.ErrorsNegative : Call → Prop
  | .openFile (.refused error) => error < 0
  | .openFile (.reaches _ (some error)) => error < 0
  | .fork _ (.failsBefore error) => error < 0
  | .fork _ (.failsAfter error) => error < 0
  | _ => True

def Step (s : State) (event : ℕ × Call) (t : State) : Prop :=
  ∃ table ret, s.procs event.1 = some table ∧ event.2.ErrorsNegative ∧
    perform s event.1 table event.2 = some (ret, t)

def initial : State where
  fileTable _ := ⟨none, 0⟩
  tables _ := ⟨1, fun _ => .null⟩
  tableCount := 1
  procs := update (fun _ => none) 0 (some 0)
  procCount := 1
  closes := []

/-- The descriptors of a table that hold the file `n`. -/
def slotCount (table : FdTable) (n : ℕ) : ℕ :=
  ∑ i ∈ Finset.range openMax, if table.files i = .file n then 1 else 0

/-- The descriptors of all tables that hold the file `n`. -/
def total (s : State) (n : ℕ) : ℕ :=
  ∑ k ∈ Finset.range s.tableCount, slotCount (s.tables k) n

def freeSlots (table : FdTable) : ℕ :=
  ((List.range openMax).filter fun i => table.files i == .null).length

/-- Descriptors are not negative, a pipe finds two free slots, and none is duplicated onto itself as
the last of its file. -/
def Sound (s : State) (table : ℕ) : Call → Prop
  | .close fd => 0 ≤ fd
  | .dup2 oldfd newfd => 0 ≤ oldfd ∧ ∀ n, oldfd < openMax →
    (s.tables table).files oldfd.toNat = .file n →
      0 ≤ newfd ∧ (newfd = oldfd → 1 < (s.fileTable n).refcount)
  | .pipe pipefd _ => pipefd = true → 2 ≤ freeSlots (s.tables table)
  | _ => True

end Gloworm.FileDesc
