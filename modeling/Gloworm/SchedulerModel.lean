import Gloworm.ErrorNumbers
import Gloworm.QueueModel
import Gloworm.TransitionRuns

/-! The scheduler queues and the operations of `scheduler.c`, `signal.c` and `process.c` that move
processes between them. Reading through a `NULL` process answers `none`. -/
namespace Gloworm.Scheduler
open Function Queue

abbrev Proc := ℕ

/-- The two queues of processes. -/
inductive QueueId
  | run
  | blocked
  deriving DecidableEq

inductive ProcState
  | running
  | resuming
  | blocked
  | stopped
  | exited
  deriving DecidableEq

structure SigAction where
  handler : ℕ
  flags : ℕ

structure SignalData where
  ignored : ℕ
  blocked : ℕ
  pending : ℕ
  actions : ℕ → SigAction

structure SyscallRecord where
  syscall : ℤ
  args : List ℤ

/-- The fields of `struct process` that scheduling and signals look at. -/
structure Process where
  returnValue : ℤ
  signalPending : ℕ
  state : ProcState
  pid : ℤ
  parent : ℤ
  bits : ℕ
  exitcode : ℤ
  waitEvents : ℕ
  waitCheck : ℕ
  blockedCall : SyscallRecord
  signals : SignalData

/-- The queues, the processes, and the globals of the scheduler. -/
structure Kernel where
  queues : Pool QueueId Proc
  procs : Proc → Process
  processList : List (Option Proc)
  numProcesses : ℕ
  nextPid : ℤ
  nextProcessSlot : ℕ
  needReschedule : Bool
  currentProc : Option Proc
  idleProc : Proc
  currentSyscall : SyscallRecord

def initPid : ℤ := 1
def pbBlockConditions : ℕ := 0x00FF
def pbSyscall : ℕ := 0x0001
def pbWaiting : ℕ := 0x0002
def pbPaused : ℕ := 0x0004
def pbDontSetReturnVal : ℕ := 0x0200
def sigMaskDefaultTerminate : ℕ := 0x47807FFF
def sigMaskDefaultStop : ℕ := 0x003C0000
def saRestart : ℕ := 0x0008
def sigcont : ℕ := 18

/-- Clear the bits of `mask` in a 32-bit word. -/
def clearBits (bits mask : ℕ) : ℕ := bits &&& (0xFFFFFFFF ^^^ mask)

/-- The process is on the run queue. -/
def ProcState.isRunning (st : ProcState) : Prop := st = .running ∨ st = .resuming
deriving Decidable

namespace Kernel

def state (s : Kernel) (p : Proc) : ProcState := (s.procs p).state

def modify (s : Kernel) (p : Proc) (f : Process → Process) : Kernel :=
  { s with procs := update s.procs p (f (s.procs p)) }

def setState (s : Kernel) (p : Proc) (st : ProcState) : Kernel :=
  s.modify p fun x => { x with state := st }

def remove (s : Kernel) (k : QueueId) (p : Proc) : Kernel :=
  { s with queues := queueRemove s.queues k p }

def insert (s : Kernel) (k : QueueId) (p : Proc) : Kernel :=
  { s with queues := queueInsert s.queues k p }

def table (s : Kernel) : List Proc := s.processList.filterMap id
end Kernel

/-- The process with this number. -/
def getProc (s : Kernel) (pid : ℤ) : Option Proc :=
  s.table.find? fun p => (s.procs p).pid = pid

/-- `none` stands for a read behind the end of the array. -/
def nextSlotnum (list : List (Option Proc)) : ℕ → ℕ → Bool → Option (Option ℕ × ℕ)
  | 0, _, _ => none
  | fuel + 1, slot, once => do
    let entry ← list[slot]?
    if entry.isNone then some (some slot, slot + 1)
    else if list.length < slot + 1 then
      if once then some (none, slot + 1) else nextSlotnum list fuel 0 true
    else nextSlotnum list fuel (slot + 1) once

def initSignalData : SignalData := ⟨0, 0, 0, fun _ => ⟨0, 0⟩⟩

def newProcess (pid : ℤ) : Process :=
  ⟨0, 0, .running, pid, initPid, 0, 0, 0, 0, ⟨0, [0, 0, 0, 0, 0]⟩, initSignalData⟩

def insertProc (s : Kernel) (p : Proc) : Kernel := s.insert .run p

/-- A process without a given number takes the next one. -/
def takePid (s : Kernel) (pid : ℤ) : ℤ × Kernel :=
  if pid = 0 then (s.nextPid, { s with nextPid := s.nextPid + 1 }) else (pid, s)

/-- Put a new process into a slot and on the run queue. -/
def fillSlot (s : Kernel) (slot : ℕ) (pid : ℤ) (p : Proc) : Kernel :=
  insertProc { s with
    processList := s.processList.set slot (some p)
    numProcesses := s.numProcesses + 1
    queues := { s.queues with
      next := update s.queues.next p none
      prev := update s.queues.prev p none }
    procs := update s.procs p (newProcess pid) } p

/-- Search for a free slot from the last one on; a search that leaves the array has no result. -/
def newProc (s : Kernel) (pid : ℤ) (p : Proc) : Option (Option Proc × Kernel) :=
  let (pid, s) := takePid s pid
  if s.processList.length ≤ s.numProcesses then some (none, s)
  else
    match nextSlotnum s.processList (2 * s.processList.length + 3) s.nextProcessSlot false with
    | none => none
    | some (none, next) => some (none, { s with nextProcessSlot := next })
    | some (some slot, next) =>
      some (some p, fillSlot { s with nextProcessSlot := next } slot pid p)

/-- Move a running process to the blocked queue. -/
def suspendProc (s : Kernel) (p : Proc) (flags : ℕ) : Kernel :=
  if s.state p ≠ .running then s
  else
    let s := ((s.remove .run p).insert .blocked p).setState p .blocked
    let s := s.modify p fun x => { x with bits := x.bits ||| (flags &&& pbBlockConditions) }
    { s with needReschedule := true }

/-- Move a process that does not run to the run queue. -/
def resumeProc (s : Kernel) (p : Proc) : Kernel :=
  if (s.state p).isRunning ∨ s.state p = .exited then s
  else
    let s := if s.state p = .blocked then s.remove .blocked p else s
    let s := (s.insert .run p).setState p .resuming
    s.modify p fun x => { x with waitEvents := 0, waitCheck := 0 }

/-- Take a process off its queue. -/
def stopProc (s : Kernel) (p : Proc) : Kernel :=
  if s.state p = .exited ∨ s.state p = .stopped then s
  else
    let s :=
      if (s.state p).isRunning then s.remove .run p
      else if s.state p = .blocked then s.remove .blocked p
      else s
    { s.setState p .stopped with needReschedule := true }

/-- Wake a parent that waits for a child. -/
def resumeWaitingParent (s : Kernel) (p : Proc) : Option Kernel := do
  let parent ← getProc s (s.procs p).parent
  if s.state parent = .blocked ∧ (s.procs parent).bits &&& pbWaiting ≠ 0 then
    some (resumeProc s parent)
  else some s

/-- The timer, the files and the memory map it gives up are not part of this state. -/
def closeProc (s : Kernel) (p : Proc) : ℕ × Kernel :=
  let pid := (s.procs p).pid
  (s.table.countP fun q => (s.procs q).parent = pid,
    { s with procs := fun q =>
        if q ∈ s.table ∧ (s.procs q).parent = pid then { s.procs q with parent := initPid }
        else s.procs q })

/-- Take a process off its queue and wake its parent. -/
def exitProc (s : Kernel) (p : Proc) (status : ℤ) : Option Kernel :=
  if s.state p = .exited then some s
  else do
    let s := if s.state p = .blocked then s.remove .blocked p else s.remove .run p
    let s := s.modify p fun x => { x with state := .exited, exitcode := status }
    let (orphans, s) := closeProc s p
    let s ← if orphans ≠ 0 then do
        let first ← getProc s 1
        resumeWaitingParent s first
      else some s
    resumeWaitingParent { s with needReschedule := true } p

/-- Block in a system call, which is kept to be restarted. -/
def suspendSyscall (s : Kernel) (p : Proc) (flags events check : ℕ) (call : SyscallRecord) :
    Kernel :=
  (suspendProc s p (pbSyscall ||| flags)).modify p fun x =>
    { x with waitEvents := events, waitCheck := check, blockedCall := call }

/-- Resume a process; its system call answers `EINTR`. -/
def cancelSyscall (s : Kernel) (p : Proc) : Kernel :=
  let s := if s.state p = .blocked then resumeProc s p else s
  let s := if s.state p = .resuming then s.setState p .running else s
  s.modify p fun x => { x with
    bits := clearBits x.bits pbBlockConditions ||| pbDontSetReturnVal
    returnValue := EINTR }

/-- Move a process to the place right behind the current one. -/
def rescheduleProcToNow (s : Kernel) (p : Proc) : Option Kernel :=
  if some p = s.currentProc ∨ ¬ (s.state p).isRunning then some s
  else do
    let current ← s.currentProc
    if ¬ (s.state current).isRunning then some s
    else
      let s := s.remove .run p
      some { s with queues := queueInsertAfter s.queues .run p (some current) }

def resumeProcWithoutRestart (s : Kernel) (p : Proc) : Option Kernel :=
  rescheduleProcToNow ((resumeProc s p).setState p .running) p

/-- The bit of a signal in the masks. -/
def signalToMap (signum : ℕ) : ℕ := 1 <<< (signum - 1)

def sigActionOf (s : Kernel) (p : Proc) (signum : ℕ) : SigAction :=
  (s.procs p).signals.actions (signum - 1)

/-- Let the process enter its handler; a call that is not to be restarted is cancelled. -/
def runSignalHandler (s : Kernel) (p : Proc) (signum : ℕ) : Option Kernel :=
  let s :=
    if (s.procs p).bits &&& pbPaused ≠ 0 ∨ (sigActionOf s p signum).flags &&& saRestart = 0 then
      cancelSyscall s p
    else s
  let s := s.modify p fun x => { x with signalPending := signum }
  resumeProcWithoutRestart s p

/-- Terminate, stop or continue the process. -/
def signalDefaultEffect (s : Kernel) (p : Proc) (signum sigmask : ℕ) : Option Kernel :=
  if sigmask &&& sigMaskDefaultTerminate ≠ 0 then
    (exitProc s p (-1)).bind fun s => resumeWaitingParent s p
  else if sigmask &&& sigMaskDefaultStop ≠ 0 then some (stopProc s p)
  else if signum = sigcont then some (resumeProc s p)
  else some s

def runSignalDefaultAction (s : Kernel) (p : Proc) (signum sigmask : ℕ) : Option Kernel :=
  (signalDefaultEffect s p signum sigmask).map fun s =>
    if (sigActionOf s p signum).flags &&& saRestart = 0 then cancelSyscall s p else s

/-- Ignore a signal, keep it pending, or act on it. -/
def dispatchSignal (s : Kernel) (p : Proc) (signum : ℕ) : Option (ℤ × Kernel) :=
  if signum = 0 ∨ 32 ≤ signum then some (EINVAL, s)
  else
    let sigmask := signalToMap signum
    if sigmask &&& (s.procs p).signals.ignored ≠ 0 then some (0, s)
    else if sigmask &&& (s.procs p).signals.blocked ≠ 0 then
      some (0, s.modify p fun x =>
        { x with signals := { x.signals with pending := x.signals.pending ||| sigmask } })
    else if (sigActionOf s p signum).handler ≠ 0 then
      (runSignalHandler s p signum).map fun s => (0, s)
    else (runSignalDefaultAction s p signum sigmask).map fun s => (0, s)

/-- Run the system call again that a resumed process had been blocked in. -/
def restartCurrentSyscall (s : Kernel) (p : Proc) : Kernel :=
  if (s.procs p).bits &&& pbSyscall ≠ 0 then
    let s := s.modify p fun x => { x with bits := clearBits x.bits pbSyscall }
    { s with currentSyscall := (s.procs p).blockedCall }
  else s

/-- The process behind the current one, or the head of the queue. -/
def nextNode (s : Kernel) : Option Proc :=
  match s.currentProc with
  | none => s.queues.head .run
  | some current =>
    if (s.state current).isRunning then
      match s.queues.next current with
      | none => s.queues.head .run
      | some n => some n
    else s.queues.head .run

/-- Without the system call that is restarted, whose effects are further operations. -/
def schedule (s : Kernel) : Kernel :=
  let next := (nextNode s).getD s.idleProc
  let s := { s with needReschedule := false, currentProc := some next }
  if s.state next = .resuming then restartCurrentSyscall (s.setState next .running) next else s

def initScheduler (maxProcesses : ℕ) (mem : Proc → Process) (idle : Proc) : Option Kernel := do
  let s : Kernel := ⟨queueInit, mem, List.replicate maxProcesses none, 0, 2, 0, true, none, idle,
    ⟨0, []⟩⟩
  match ← newProc s 0 idle with
  | (none, _) => none
  | (some p, s) => some ({ s with idleProc := p }.remove .run p)

inductive Op
  | newProc (pid : ℤ) (addr : Proc)
  | suspendProc (p : Proc) (flags : ℕ)
  | suspendSyscall (p : Proc) (flags events check : ℕ) (call : SyscallRecord)
  | resumeProc (p : Proc)
  | resumeProcWithoutRestart (p : Proc)
  | stopProc (p : Proc)
  | exitProc (p : Proc) (status : ℤ)
  | cancelSyscall (p : Proc)
  | dispatchSignal (p : Proc) (signum : ℕ)
  | rescheduleProcToNow (p : Proc)
  | schedule
  | configure (p : Proc) (signals : SignalData) (parent : ℤ) (bits : ℕ)

/-- Operations are applied to processes in the table, and `kzalloc` answers an unused address. -/
def Permitted (s : Kernel) : Op → Prop
  | .newProc _ addr => addr ∉ s.table
  | .suspendProc p _ => p ∈ s.table
  | .suspendSyscall p _ _ _ _ => p ∈ s.table
  | .resumeProc p => p ∈ s.table
  | .resumeProcWithoutRestart p => p ∈ s.table
  | .stopProc p => p ∈ s.table
  | .exitProc p _ => p ∈ s.table
  | .cancelSyscall p => p ∈ s.table
  | .dispatchSignal p _ => p ∈ s.table
  | .rescheduleProcToNow p => p ∈ s.table
  | .schedule => True
  | .configure p _ _ _ => p ∈ s.table

/-- The last operation stands for the rest of the kernel, which sets actions, masks and parents. -/
def perform (s : Kernel) : Op → Option Kernel
  | .newProc pid addr => (newProc s pid addr).map Prod.snd
  | .suspendProc p flags => some (suspendProc s p flags)
  | .suspendSyscall p flags events check call =>
    some (suspendSyscall s p flags events check call)
  | .resumeProc p => some (resumeProc s p)
  | .resumeProcWithoutRestart p => resumeProcWithoutRestart s p
  | .stopProc p => some (stopProc s p)
  | .exitProc p status => exitProc s p status
  | .cancelSyscall p => some (cancelSyscall s p)
  | .dispatchSignal p signum => (dispatchSignal s p signum).map Prod.snd
  | .rescheduleProcToNow p => rescheduleProcToNow s p
  | .schedule => some (schedule s)
  | .configure p signals parent bits =>
    some (s.modify p fun x => { x with signals := signals, parent := parent, bits := bits })

def Step (s : Kernel) (op : Op) (t : Kernel) : Prop :=
  Permitted s op ∧ perform s op = some t

end Gloworm.Scheduler
