import Gloworm.SchedulerRuns

/-! Signal actions and handlers: `set_signal_action`, `do_signal`, `cleanup_signal_handler` and
`check_pending_signals` of `signal.c`, with the contexts that `arch_add_signal_context` keeps on the
kernel stack. -/
namespace Gloworm.Signal
open Option Function Transition Scheduler

def sigDfl : ℕ := 0
def sigIgn : ℕ := 1
def sigkill : ℕ := 9
def sigstop : ℕ := 19
def sigMaskMaskable : ℕ := 0xFFFBFEFF
def saRestorer : ℕ := 0x100000

structure Action where
  handler : ℕ
  flags : ℕ
  mask : ℕ

structure SigContext where
  signum : ℕ
  prevMask : ℕ

/-- The kernel, and the masks and saved contexts of its processes. -/
structure System where
  kernel : Kernel
  masks : Proc → ℕ → ℕ
  contexts : Proc → List SigContext

namespace System

def signals (s : System) (p : Proc) : SignalData := (s.kernel.procs p).signals

def signalPending (s : System) (p : Proc) : ℕ := (s.kernel.procs p).signalPending

def modify (s : System) (p : Proc) (f : Process → Process) : System :=
  { s with kernel := s.kernel.modify p f }

def setBlocked (s : System) (p : Proc) (mask : ℕ) : System :=
  s.modify p fun x => { x with signals := { x.signals with blocked := mask } }

def setPending (s : System) (p : Proc) (mask : ℕ) : System :=
  s.modify p fun x => { x with signals := { x.signals with pending := mask } }
end System

def setSignalAction (s : System) (p : Proc) (signum : ℕ) (act : Action) : System :=
  let s := s.modify p fun x => { x with signals := { x.signals with
    actions := update x.signals.actions (signum - 1) ⟨act.handler, act.flags⟩ } }
  { s with masks := update s.masks p (update (s.masks p) (signum - 1)
      ((act.mask ||| signalToMap signum) &&& sigMaskMaskable)) }

/-- Push a frame for the handler, with the mask to go back to. -/
def archAddSignalContext (s : System) (p : Proc) (signum : ℕ) (userMode loaded : Bool) : System :=
  if userMode ∧ (sigActionOf s.kernel p signum).flags &&& saRestorer = 0 then s
  else
    let prev := (s.signals p).blocked
    let s := s.setBlocked p (prev ||| s.masks p (signum - 1))
    if loaded then
      { s with contexts := update s.contexts p (⟨signum, prev⟩ :: s.contexts p) }
    else s

def doSignal (s : System) (p : Proc) (userMode loaded : Bool) : System :=
  (archAddSignalContext s p (s.signalPending p) userMode loaded).modify p fun x =>
    { x with signalPending := 0 }

/-- Pop the frame and answer the mask. -/
def archRemoveSignalContext (s : System) (p : Proc) : Option (ℕ × System) :=
  match s.contexts p with
  | [] => none
  | context :: rest => some (context.signum,
      { s.setBlocked p context.prevMask with contexts := update s.contexts p rest })

def nextSignumLoop : ℕ → ℕ → ℕ → Option ℕ
  | 0, _, _ => none
  | n + 1, i, mask => if mask &&& 1 ≠ 0 then some i else nextSignumLoop n (i + 1) (mask >>> 1)

def getNextSignum (mask : ℕ) : Option ℕ := nextSignumLoop 30 1 mask

def dispatch (s : System) (p : Proc) (signum : ℕ) : Option System :=
  (dispatchSignal s.kernel p signum).map fun r => { s with kernel := r.2 }

/-- Dispatch the first signal that is pending and not blocked. -/
def checkPendingSignals (s : System) (p : Proc) : Option System :=
  if clearBits (s.signals p).pending (s.signals p).blocked ≠ 0 then
    match getNextSignum (s.signals p).pending with
    | none => some s
    | some signum =>
      dispatch (s.setPending p (clearBits (s.signals p).pending (signalToMap signum))) p signum
  else some s

def leaveHandler (s : System) (p : Proc) : Option System :=
  (archRemoveSignalContext s p).map fun r =>
    let s : System :=
      if (r.2.kernel.procs p).bits &&& pbSyscall ≠ 0 then
        { r.2 with kernel := suspendProc r.2.kernel p 0 }
      else r.2
    if (sigActionOf s.kernel p r.1).flags &&& saRestart = 0 then
      s.modify p fun x => { x with returnValue := EINTR, bits := x.bits ||| pbDontSetReturnVal }
    else s

def cleanupSignalHandler (s : System) (p : Proc) : Option System :=
  (leaveHandler s p).bind fun s => checkPendingSignals s p

inductive Event
  | setAction (signum : ℕ) (act : Action)
  | dispatch (signum : ℕ)
  | doSignal (signum : ℕ) (userMode loaded : Bool)
  | handlerReturn

def perform (p : Proc) (s : System) : Event → Option System
  | .setAction signum act => some (setSignalAction s p signum act)
  | .dispatch signum => dispatch s p signum
  | .doSignal _ userMode loaded => some (doSignal s p userMode loaded)
  | .handlerReturn => cleanupSignalHandler s p

/-- Signal numbers are those of the table, and `do_signal` is called when a signal is due. -/
def Permitted (p : Proc) (s : System) : Event → Prop
  | .setAction signum _ => 1 ≤ signum ∧ signum ≤ 31
  | .dispatch signum => 1 ≤ signum ∧ signum ≤ 31
  | .doSignal signum _ _ => s.signalPending p = signum ∧ signum ≠ 0
  | .handlerReturn => True

def Step (p : Proc) (s : System) (e : Event) (t : System) : Prop :=
  Permitted p s e ∧ perform p s e = some t

structure SameSignals (s t : Kernel) : Prop where
  signals : ∀ q, (t.procs q).signals = (s.procs q).signals
  signalPending : ∀ q, (t.procs q).signalPending = (s.procs q).signalPending

namespace SameSignals
variable {s t u : Kernel} {p : Proc}

lemma refl (s : Kernel) : SameSignals s s := ⟨fun _ => rfl, fun _ => rfl⟩

lemma trans (h : SameSignals s t) (h' : SameSignals t u) : SameSignals s u :=
  ⟨fun q => (h'.signals q).trans (h.signals q),
    fun q => (h'.signalPending q).trans (h.signalPending q)⟩

lemma of_procs (h : t.procs = s.procs) : SameSignals s t :=
  ⟨fun q => by rw [h], fun q => by rw [h]⟩

lemma of_modify {f : Process → Process} (h : t.procs = (s.modify p f).procs)
    (hf : ∀ x, (f x).signals = x.signals ∧ (f x).signalPending = x.signalPending) :
    SameSignals s t := by
  constructor
  all_goals
    intro q
    rw [h]
    by_cases hq : q = p
    · simp [Kernel.modify, hq, hf]
    · simp [Kernel.modify, hq]

variable (s p)

lemma setState (st : ProcState) : SameSignals s (s.setState p st) :=
  of_modify rfl fun _ => ⟨rfl, rfl⟩

lemma resumeProc : SameSignals s (resumeProc s p) := by
  unfold Scheduler.resumeProc
  split_ifs
  · exact .refl s
  all_goals
    refine .trans ?_ (of_modify rfl fun _ => ⟨rfl, rfl⟩)
    exact of_modify (f := fun x => { x with state := .resuming }) rfl fun _ => ⟨rfl, rfl⟩

lemma suspendProc (flags : ℕ) : SameSignals s (suspendProc s p flags) := by
  unfold Scheduler.suspendProc
  split_ifs
  · exact .refl s
  · have hstate : SameSignals s (((s.remove .run p).insert .blocked p).setState p .blocked) :=
      of_modify (f := fun x => { x with state := .blocked }) rfl fun _ => ⟨rfl, rfl⟩
    exact hstate.trans (of_modify (f := fun x =>
      { x with bits := x.bits ||| (flags &&& pbBlockConditions) }) rfl fun _ => ⟨rfl, rfl⟩)

lemma stopProc : SameSignals s (stopProc s p) := by
  unfold Scheduler.stopProc
  split_ifs
  · exact .refl s
  all_goals exact of_modify (f := fun x => { x with state := .stopped }) rfl fun _ => ⟨rfl, rfl⟩

lemma cancelSyscall : SameSignals s (cancelSyscall s p) := by
  refine cancelSyscall_keeps (.refl s) (fun _ => resumeProc s p) ?_ ?_
  · exact fun t _ ht => ht.trans (setState t p _)
  · exact fun t _ _ ht => ht.trans (of_modify rfl fun _ => ⟨rfl, rfl⟩)

variable {s p}

lemma resumeWaitingParent (h : resumeWaitingParent s p = some t) : SameSignals s t :=
  resumeWaitingParent_keeps (fun u q _ hu => hu.trans (resumeProc u q)) (.refl s) h

lemma closed (s : Kernel) (p : Proc) (status : ℤ) : SameSignals s (closed s p status).2 := by
  have h1 : SameSignals s (detached s p status) :=
    of_modify (f := fun x => { x with state := .exited, exitcode := status })
      (detached_eq s p status).1 fun _ => ⟨rfl, rfl⟩
  refine h1.trans ⟨fun q => ?_, fun q => ?_⟩
  all_goals
    simp only [Scheduler.closed, closeProc]
    split_ifs <;> rfl

lemma exitProc {status : ℤ} (h : exitProc s p status = some t) : SameSignals s t := by
  refine exitProc_keeps (fun u q _ hu => ?_) (fun u hu => ?_) (fun _ => .refl s)
    (closed s p status) h
  · exact hu.trans (resumeProc u q)
  · exact hu.trans (of_procs rfl)

lemma rescheduleProcToNow (h : rescheduleProcToNow s p = some t) : SameSignals s t := by
  obtain rfl | ⟨c, -, -, -, -, rfl⟩ := rescheduleProcToNow_cases h
  · exact .refl _
  · exact of_procs rfl

lemma resumeProcWithoutRestart (h : resumeProcWithoutRestart s p = some t) : SameSignals s t :=
  ((resumeProc s p).trans (setState _ p _)).trans (rescheduleProcToNow h)

lemma runSignalDefaultAction {signum sigmask : ℕ}
    (h : runSignalDefaultAction s p signum sigmask = some t) : SameSignals s t := by
  obtain ⟨u, hu, rfl⟩ := map_eq_some_iff.mp h
  have h1 : SameSignals s u := by
    unfold signalDefaultEffect at hu
    split_ifs at hu
    · obtain ⟨v, hv, hu⟩ := bind_eq_some_iff.mp hu
      exact (exitProc hv).trans (resumeWaitingParent hu)
    · exact some.inj hu ▸ stopProc s p
    · exact some.inj hu ▸ resumeProc s p
    · exact some.inj hu ▸ .refl s
  split_ifs
  · exact h1.trans (cancelSyscall u p)
  · exact h1
end SameSignals

lemma runSignalHandler_signals {s t : Kernel} {p : Proc} {signum : ℕ}
    (h : runSignalHandler s p signum = some t) :
    (∀ q, (t.procs q).signals = (s.procs q).signals) ∧ (t.procs p).signalPending = signum := by
  obtain ⟨u, hcase, hrun⟩ := runSignalHandler_cases h
  have h1 : SameSignals s u := by
    rcases hcase with rfl | rfl
    · exact .refl _
    · exact .cancelSyscall s p
  have h2 := SameSignals.resumeProcWithoutRestart hrun
  refine ⟨fun q => ?_, ?_⟩
  · rw [h2.signals]
    by_cases hq : q = p
    · subst hq
      simp [Kernel.modify, h1.signals]
    · simp [Kernel.modify, hq, h1.signals]
  · rw [h2.signalPending]
    simp [Kernel.modify]

variable {p : Proc} {s t u : System} {n : ℕ}

/-- Signal `n` is in the set. -/
def Member (set n : ℕ) : Prop := set.testBit (n - 1) = true
deriving Decidable

variable {a b mask : ℕ} {k k' : Kernel}

lemma map_and_eq_zero {set : ℕ} : signalToMap n &&& set = 0 ↔ ¬ Member set n := by
  rw [signalToMap, Nat.one_shiftLeft, Nat.two_pow_and, Member]
  cases set.testBit (n - 1) <;> simp

lemma member_map {m : ℕ} (hn : 1 ≤ n) (hm : 1 ≤ m) : Member (signalToMap n) m ↔ n = m := by
  rw [signalToMap, Nat.one_shiftLeft, Member, Nat.testBit_two_pow]
  simp only [decide_eq_true_eq]
  omega

lemma member_or : Member (a ||| b) n ↔ Member a n ∨ Member b n := by
  simp [Member]

lemma member_and : Member (a &&& b) n ↔ Member a n ∧ Member b n := by
  simp [Member]

lemma member_clearBits (hn : n ≤ 32) : Member (clearBits a b) n ↔ Member a n ∧ ¬ Member b n := by
  have hword : (0xFFFFFFFF : ℕ).testBit (n - 1) = decide (n - 1 < 32) :=
    Nat.testBit_two_pow_sub_one 32 (n - 1)
  have hlt : n - 1 < 32 := by omega
  simp [Member, clearBits, hword, hlt]

lemma clearBits_ne_zero (hn : n ≤ 32) (ha : Member a n) (hb : ¬ Member b n) :
    clearBits a b ≠ 0 := by
  intro hzero
  have hmem := (member_clearBits hn).mpr ⟨ha, hb⟩
  simp [hzero, Member] at hmem

lemma nextSignumLoop_eq_some {turns i k : ℕ} (hk : k < turns) (hbit : mask.testBit k = true)
    (hlow : ∀ j < k, mask.testBit j = false) : nextSignumLoop turns i mask = some (i + k) := by
  induction turns generalizing i mask k with
  | zero => omega
  | succ turns ih =>
    have hone : mask &&& 1 ≠ 0 ↔ mask.testBit 0 = true := by
      simp [Nat.testBit_zero, Nat.and_one_is_mod]
    cases k with
    | zero => rw [nextSignumLoop, if_pos (hone.mpr hbit), Nat.add_zero]
    | succ k =>
      have hzero := hlow 0 (by omega)
      rw [nextSignumLoop, if_neg (by rw [hone, hzero]; decide)]
      rw [ih (k := k) (by omega) (by rw [Nat.testBit_shiftRight, Nat.add_comm]; exact hbit)
        (fun j hj => by
          rw [Nat.testBit_shiftRight, Nat.add_comm]
          exact hlow (j + 1) (by omega))]
      congr 1
      omega

lemma nextSignumLoop_range {turns i k : ℕ} (h : nextSignumLoop turns i mask = some k) :
    i ≤ k ∧ k < i + turns ∧ mask.testBit (k - i) = true := by
  induction turns generalizing i mask with
  | zero => simp [nextSignumLoop] at h
  | succ turns ih =>
    rw [nextSignumLoop] at h
    split_ifs at h with hone
    · cases h
      refine ⟨le_rfl, by omega, ?_⟩
      rw [Nat.sub_self, Nat.testBit_zero, decide_eq_true_eq]
      rw [Nat.and_one_is_mod] at hone
      omega
    · obtain ⟨hle, hlt, hbit⟩ := ih h
      rw [Nat.testBit_shiftRight, show 1 + (k - (i + 1)) = k - i by omega] at hbit
      exact ⟨by omega, by omega, hbit⟩

lemma getNextSignum_lowest (hn : 1 ≤ n) (hn' : n ≤ 30) (hmem : Member mask n)
    (hlow : ∀ m, 1 ≤ m → m < n → ¬ Member mask m) : getNextSignum mask = some n := by
  rw [getNextSignum, nextSignumLoop_eq_some (k := n - 1) (by omega) hmem]
  · congr 1
    omega
  · intro j hj
    have := hlow (j + 1) (by omega) (by omega)
    simpa [Member] using this

/-- Signal `n` is pending, or its handler is about to run. -/
def Recorded (s : System) (p : Proc) (n : ℕ) : Prop :=
  Member (s.signals p).pending n ∨ s.signalPending p = n

lemma dispatch_cases (hn : 1 ≤ n) (hn' : n ≤ 31) (hign : (s.signals p).ignored = 0)
    (h : dispatch s p n = some t) : t.masks = s.masks ∧ t.contexts = s.contexts ∧
      (t.signals p).ignored = 0 ∧ (t.signals p).blocked = (s.signals p).blocked ∧
      (t.signals p).actions = (s.signals p).actions ∧ ((Member (s.signals p).blocked n ∧
          (t.signals p).pending = (s.signals p).pending ||| signalToMap n ∧
          t.signalPending p = s.signalPending p) ∨
        (¬ Member (s.signals p).blocked n ∧ (t.signals p).pending = (s.signals p).pending ∧
          ((((s.signals p).actions (n - 1)).handler ≠ 0 ∧ t.signalPending p = n) ∨
            (((s.signals p).actions (n - 1)).handler = 0 ∧
              t.signalPending p = s.signalPending p)))) := by
  obtain ⟨⟨ret, k⟩, hk, rfl⟩ := map_eq_some_iff.mp h
  have hfree : ¬ Member (s.signals p).ignored n := by simp [hign, Member]
  refine ⟨rfl, rfl, ?_⟩
  rcases dispatchSignal_cases (by omega) hk with
    ⟨hbad, -⟩ | ⟨-, hblk, rfl⟩ | ⟨-, hblk, ⟨hh, hrun⟩ | ⟨hh, hrun⟩⟩
  · exact absurd (map_and_eq_zero.mpr hfree) hbad
  · have hmem : Member (s.signals p).blocked n := by
      by_contra hno
      exact hblk (map_and_eq_zero.mpr hno)
    simp only [System.signals, System.signalPending, Kernel.modify, update_self]
    exact ⟨hign, trivial, trivial, .inl ⟨hmem, trivial, trivial⟩⟩
  · have hsame := runSignalHandler_signals hrun
    simp only [System.signals, System.signalPending, hsame.1 p]
    exact ⟨hign, trivial, trivial, .inr ⟨map_and_eq_zero.mp hblk, trivial, .inl ⟨hh, hsame.2⟩⟩⟩
  · have hsame := SameSignals.runSignalDefaultAction hrun
    simp only [System.signals, System.signalPending, hsame.signals p]
    exact ⟨hign, trivial, trivial,
      .inr ⟨map_and_eq_zero.mp hblk, trivial, .inr ⟨hh, hsame.signalPending p⟩⟩⟩

@[simp] lemma signals_modify_self (s : System) (p : Proc) (f : Process → Process) :
    (s.modify p f).signals p = (f (s.kernel.procs p)).signals := by
  simp [System.modify, System.signals, Kernel.modify]

@[simp] lemma signalPending_modify_self (s : System) (p : Proc) (f : Process → Process) :
    (s.modify p f).signalPending p = (f (s.kernel.procs p)).signalPending := by
  simp [System.modify, System.signalPending, Kernel.modify]

lemma leaveHandler_cases (h : leaveHandler s p = some t) :
    ∃ context rest, s.contexts p = context :: rest ∧
      t.contexts = update s.contexts p rest ∧ t.masks = s.masks ∧
      t.signals p = { s.signals p with blocked := context.prevMask } ∧
      t.signalPending p = s.signalPending p := by
  obtain ⟨⟨signum, v⟩, hv, rfl⟩ := map_eq_some_iff.mp h
  cases hc : s.contexts p with
  | nil => simp [archRemoveSignalContext, hc] at hv
  | cons context rest =>
    simp only [archRemoveSignalContext, hc, some.injEq, Prod.mk.injEq] at hv
    obtain ⟨-, rfl⟩ := hv
    refine ⟨context, rest, rfl, ?_⟩
    generalize hw : ({ s.setBlocked p context.prevMask with
      contexts := update s.contexts p rest } : System) = w
    have hw' : w.contexts = update s.contexts p rest ∧ w.masks = s.masks ∧
        w.signals p = { s.signals p with blocked := context.prevMask } ∧
        w.signalPending p = s.signalPending p := by
      subst hw
      simp [System.setBlocked, System.modify, System.signals, System.signalPending, Kernel.modify]
    generalize hx : (if (w.kernel.procs p).bits &&& pbSyscall ≠ 0 then
      { w with kernel := suspendProc w.kernel p 0 } else w) = x
    have hx' : x.contexts = w.contexts ∧ x.masks = w.masks ∧ x.signals p = w.signals p ∧
        x.signalPending p = w.signalPending p := by
      subst hx
      split_ifs
      · have hsame := SameSignals.suspendProc w.kernel p 0
        exact ⟨rfl, rfl, hsame.signals p, hsame.signalPending p⟩
      · exact ⟨rfl, rfl, rfl, rfl⟩
    rw [← hw'.1, ← hw'.2.1, ← hw'.2.2.1, ← hw'.2.2.2, ← hx'.1, ← hx'.2.1, ← hx'.2.2.1, ← hx'.2.2.2]
    dsimp only
    split_ifs
    · simp [System.modify, System.signals, System.signalPending, Kernel.modify]
    · exact ⟨rfl, rfl, rfl, rfl⟩

lemma doSignal_cases (s : System) (p : Proc) (userMode loaded : Bool) :
    (doSignal s p userMode loaded).masks = s.masks ∧
      (doSignal s p userMode loaded).signalPending p = 0 ∧ ∃ entered : Bool, ∃ handling : Bool,
        (doSignal s p userMode loaded).signals p = (if entered then
          { s.signals p with
            blocked := (s.signals p).blocked ||| s.masks p (s.signalPending p - 1) }
          else s.signals p) ∧
        (doSignal s p userMode loaded).contexts p = (if handling then
          ⟨s.signalPending p, (s.signals p).blocked⟩ :: s.contexts p else s.contexts p) := by
  unfold doSignal archAddSignalContext
  split_ifs
  · refine ⟨rfl, by simp, false, false, ?_, rfl⟩
    simp [System.signals, System.modify, Kernel.modify]
  · refine ⟨rfl, by simp, true, true, ?_, ?_⟩
    · simp [System.signals, System.setBlocked, System.modify, Kernel.modify]
    · simp [System.setBlocked, System.modify]
  · refine ⟨rfl, by simp, true, false, ?_, rfl⟩
    simp [System.signals, System.setBlocked, System.modify, Kernel.modify]

lemma checkPendingSignals_cases (h : checkPendingSignals s p = some t) :
    t = s ∨ ∃ k, 1 ≤ k ∧ k ≤ 30 ∧ Member (s.signals p).pending k ∧
      getNextSignum (s.signals p).pending = some k ∧
      dispatch (s.setPending p (clearBits (s.signals p).pending (signalToMap k))) p k = some t := by
  rw [checkPendingSignals] at h
  split_ifs at h
  · cases hk : getNextSignum (s.signals p).pending with
    | none =>
      simp only [hk, some.injEq] at h
      exact .inl h.symm
    | some k =>
      simp only [hk] at h
      obtain ⟨hle, hlt, hmem⟩ := nextSignumLoop_range hk
      exact .inr ⟨k, hle, by omega, hmem, rfl, h⟩
  · exact .inl (some.inj h).symm

/-- `SIGKILL` and `SIGSTOP`. -/
def Uncatchable (n : ℕ) : Prop := n = sigkill ∨ n = sigstop

structure Unblockable (s : System) (p : Proc) : Prop where
  ignored : (s.signals p).ignored = 0
  blocked : ∀ n, Uncatchable n → ¬ Member (s.signals p).blocked n
  masks : ∀ i n, Uncatchable n → ¬ Member (s.masks p i) n
  contexts : ∀ c ∈ s.contexts p, ∀ n, Uncatchable n → ¬ Member c.prevMask n

lemma not_maskable (h : Uncatchable n) : ¬ Member sigMaskMaskable n := by
  rcases h with rfl | rfl <;> decide

namespace Unblockable
section
variable (h : Unblockable s p)
include h

lemma setSignalAction (signum : ℕ) (act : Action) :
    Unblockable (setSignalAction s p signum act) p := by
  constructor
  · simpa [Signal.setSignalAction, System.signals, System.modify, Kernel.modify] using h.ignored
  · simpa [Signal.setSignalAction, System.signals, System.modify, Kernel.modify] using h.blocked
  · intro i m hm
    by_cases hi : i = signum - 1
    · simp [Signal.setSignalAction, hi, member_and, not_maskable hm]
    · simpa [Signal.setSignalAction, System.modify, hi] using h.masks i m hm
  · exact h.contexts

lemma dispatch (hn : 1 ≤ n) (hn' : n ≤ 31) (hd : Signal.dispatch s p n = some t) :
    Unblockable t p := by
  obtain ⟨hmasks, hcontexts, hign, hblk, -⟩ := dispatch_cases hn hn' h.ignored hd
  exact ⟨hign, hblk ▸ h.blocked, hmasks ▸ h.masks, hcontexts ▸ h.contexts⟩

lemma doSignal (userMode loaded : Bool) : Unblockable (doSignal s p userMode loaded) p := by
  obtain ⟨hmasks, -, entered, handling, hsig, hcontexts⟩ := doSignal_cases s p userMode loaded
  refine ⟨?_, ?_, hmasks ▸ h.masks, ?_⟩
  · cases entered <;> simpa [hsig] using h.ignored
  · intro m hm
    cases entered
    · simpa [hsig] using h.blocked m hm
    · simp [hsig, member_or, h.blocked m hm, h.masks _ m hm]
  · rw [hcontexts]
    cases handling
    · exact h.contexts
    · intro c hc
      rcases List.mem_cons.mp hc with rfl | hc
      · exact h.blocked
      · exact h.contexts c hc

lemma leaveHandler (hl : leaveHandler s p = some t) : Unblockable t p := by
  obtain ⟨context, rest, hc, hcontexts, hmasks, hsig, -⟩ := leaveHandler_cases hl
  refine ⟨by rw [hsig]; exact h.ignored, ?_, hmasks ▸ h.masks, ?_⟩
  · rw [hsig]
    exact h.contexts context (hc ▸ List.mem_cons_self)
  · intro c hin
    rw [hcontexts, update_self] at hin
    exact h.contexts c (hc ▸ List.mem_cons_of_mem _ hin)

lemma setPending (mask : ℕ) : Unblockable (s.setPending p mask) p :=
  ⟨by rw [System.setPending, signals_modify_self]; exact h.ignored,
    by rw [System.setPending, signals_modify_self]; exact h.blocked, h.masks, h.contexts⟩

lemma step {e : Event} (hs : Step p s e t) : Unblockable t p := by
  obtain ⟨hperm, hs⟩ := hs
  cases e with
  | setAction signum act => exact some.inj hs ▸ h.setSignalAction signum act
  | dispatch signum => exact h.dispatch hperm.1 hperm.2 hs
  | doSignal signum userMode loaded => exact some.inj hs ▸ h.doSignal userMode loaded
  | handlerReturn =>
    obtain ⟨u, hu, hcheck⟩ := bind_eq_some_iff.mp hs
    rcases checkPendingSignals_cases hcheck with rfl | ⟨k, hk, hk', -, -, hd⟩
    · exact h.leaveHandler hu
    · exact ((h.leaveHandler hu).setPending _).dispatch hk (by omega) hd
end
end Unblockable

/-- What was to become of a signal has become of it. -/
structure Honoured (s : System) (p : Proc) (n : ℕ) (k : Kernel) : Prop where
  ignored : (sigActionOf s.kernel p n).handler = sigIgn → k.procs p = s.kernel.procs p
  caught : (sigActionOf s.kernel p n).handler ≠ sigDfl →
    (sigActionOf s.kernel p n).handler ≠ sigIgn → ¬ Member (s.signals p).blocked n →
    (k.procs p).signalPending = n
  killed : n = sigkill → s.kernel.state p ≠ .exited → k.state p = .exited
  stopped : n = sigstop → s.kernel.state p ≠ .exited → k.state p = .stopped

lemma runSignalDefaultAction_kill
    (h : runSignalDefaultAction k p sigkill (signalToMap sigkill) = some k') :
    k'.state p = .exited := by
  obtain ⟨v, hv, rfl⟩ := map_eq_some_iff.mp h
  rw [signalDefaultEffect, if_pos (by decide)] at hv
  obtain ⟨w, hw, hv⟩ := bind_eq_some_iff.mp hv
  have hexited := resumeWaitingParent_keeps (I := fun k => k.state p = .exited)
    (resumeProc_exited p) (exitProc_exited hw) hv
  split_ifs
  · simp [state_cancelSyscall, hexited]
  · exact hexited

lemma runSignalDefaultAction_stop (hlive : k.state p ≠ .exited)
    (h : runSignalDefaultAction k p sigstop (signalToMap sigstop) = some k') :
    k'.state p = .stopped := by
  obtain ⟨v, hv, rfl⟩ := map_eq_some_iff.mp h
  rw [signalDefaultEffect, if_neg (by decide), if_pos (by decide), some.injEq] at hv
  have hstopped : v.state p = .stopped := by
    subst hv
    unfold stopProc
    split_ifs with h1
    · exact h1.resolve_left hlive
    all_goals simp [Kernel.setState, Kernel.modify, Kernel.state]
  split_ifs
  · simp [state_cancelSyscall, hstopped]
  · exact hstopped

lemma honoured_of_unblockable (h : Unblockable s p) (hn : 1 ≤ n) (hn' : n ≤ 31)
    (hign : (sigActionOf s.kernel p n).handler ≠ sigIgn)
    (hdfl : Uncatchable n → (sigActionOf s.kernel p n).handler = sigDfl) {ret : ℤ}
    (hd : dispatchSignal s.kernel p n = some (ret, k)) : Honoured s p n k := by
  have hcases := dispatchSignal_cases (by omega) hd
  have hfree : signalToMap n &&& (s.kernel.procs p).signals.ignored = 0 := by
    have := h.ignored
    simp only [System.signals] at this
    simp [this]
  -- an uncatchable signal is not blocked and has no handler, so its default action is run
  have hdefault : Uncatchable n → runSignalDefaultAction s.kernel p n (signalToMap n) = some k := by
    intro hunc
    have hblk := map_and_eq_zero.mpr (h.blocked n hunc)
    rcases hcases with ⟨hbad, -⟩ | ⟨-, hbad, -⟩ | ⟨-, -, ⟨hbad, -⟩ | ⟨-, hrun⟩⟩
    · exact absurd hfree hbad
    · exact absurd hblk hbad
    · exact absurd (hdfl hunc) hbad
    · exact hrun
  refine ⟨fun he => absurd he hign, fun hcaught _ hunblocked => ?_, ?_, ?_⟩
  · have hblk := map_and_eq_zero.mpr hunblocked
    rcases hcases with ⟨hbad, -⟩ | ⟨-, hbad, -⟩ | ⟨-, -, ⟨-, hrun⟩ | ⟨hbad, -⟩⟩
    · exact absurd hfree hbad
    · exact absurd hblk hbad
    · exact (runSignalHandler_signals hrun).2
    · exact absurd hbad hcaught
  · rintro rfl -
    exact runSignalDefaultAction_kill (hdefault (.inl rfl))
  · rintro rfl hlive
    exact runSignalDefaultAction_stop hlive (hdefault (.inr rfl))

lemma dispatchSignal_uncatchable (h : Unblockable s p) (hpeople : Peopled s.kernel)
    (hp : p ∈ s.kernel.table) (hunc : Uncatchable n)
    (hdfl : (sigActionOf s.kernel p n).handler = sigDfl) :
    ∃ k, dispatchSignal s.kernel p n = some (0, k) := by
  have hfree : ¬ signalToMap n &&& (s.kernel.procs p).signals.ignored ≠ 0 := by
    have := h.ignored
    simp only [System.signals] at this
    simp [this]
  have hblk : ¬ signalToMap n &&& (s.kernel.procs p).signals.blocked ≠ 0 :=
    not_not.mpr (map_and_eq_zero.mpr (h.blocked n hunc))
  have heffect : ∃ v, signalDefaultEffect s.kernel p n (signalToMap n) = some v := by
    rcases hunc with rfl | rfl
    · obtain ⟨v, hv, hpv, htv⟩ := hpeople.exitProc hp (-1)
      obtain ⟨w, hw, -⟩ := hpv.resumeWaitingParent (htv ▸ hp)
      exact ⟨w, by rw [signalDefaultEffect, if_pos (by decide), hv, bind_some, hw]⟩
    · exact ⟨_, by rw [signalDefaultEffect, if_neg (by decide), if_pos (by decide)]⟩
  obtain ⟨v, hv⟩ := heffect
  have hrange : ¬ (n = 0 ∨ 32 ≤ n) := by
    rcases hunc with rfl | rfl <;> decide
  rw [dispatchSignal, if_neg hrange]
  dsimp only
  have hhandler : ¬ (sigActionOf s.kernel p n).handler ≠ 0 := not_not.mpr hdfl
  rw [if_neg hfree, if_neg hblk, if_neg hhandler, runSignalDefaultAction, hv]
  exact ⟨_, rfl⟩

structure Fresh (s : System) (p : Proc) : Prop where
  signals : s.signals p = initSignalData
  masks : ∀ i, s.masks p i = 0
  contexts : s.contexts p = []

lemma Fresh.unblockable (h : Fresh s p) : Unblockable s p := by
  refine ⟨?_, ?_, ?_, ?_⟩
  · rw [h.signals]
    rfl
  · intro n _
    rw [h.signals]
    simp [Member, initSignalData]
  · intro i n _
    simp [h.masks i, Member]
  · simp [h.contexts]

/-- A signal is treated as its action says, unless that is to ignore it or to catch one that cannot
be caught. -/
theorem dispositions_honoured {s₀ : System} {es : List Event} (hfresh : Fresh s₀ p)
    (hrun : Run (Step p) s₀ es s) (hn : 1 ≤ n) (hn' : n ≤ 31)
    (hign : (sigActionOf s.kernel p n).handler ≠ sigIgn)
    (hdfl : Uncatchable n → (sigActionOf s.kernel p n).handler = sigDfl) :
    (∀ ret k, dispatchSignal s.kernel p n = some (ret, k) → Honoured s p n k) ∧
      (Uncatchable n → Peopled s.kernel → p ∈ s.kernel.table →
        ∃ k, dispatchSignal s.kernel p n = some (0, k)) := by
  have hun : Unblockable s p := hrun.preserves (I := fun s => Unblockable s p)
    hfresh.unblockable fun _ _ _ ht hs => ht.step hs
  constructor
  · intro ret k hd
    exact honoured_of_unblockable hun hn hn' hign hdfl hd
  · intro hunc hpeople hp
    exact dispatchSignal_uncatchable hun hpeople hp hunc (hdfl hunc)

def lone : System where
  kernel := ⟨Queue.queueInit, fun _ => newProcess 1, [some 100], 1, 2, 1, false, some 100, 0, ⟨0, []⟩⟩
  masks := fun _ _ => 0
  contexts := fun _ => []

lemma lone_fresh : Fresh lone 100 := ⟨rfl, fun _ => rfl, rfl⟩

instance (p : Proc) (s : System) (e : Event) : Decidable (Permitted p s e) :=
  match e with
  | .setAction .. | .dispatch _ | .doSignal .. | .handlerReturn => by
    dsimp only [Permitted]; infer_instance

def advance (p : Proc) (s : System) (e : Event) : Option System :=
  if Permitted p s e then perform p s e else none

lemma advance_step (p : Proc) (s : System) (e : Event) (t : System)
    (h : advance p s e = some t) : Step p s e t := by
  unfold advance at h
  split_ifs at h with hp
  exact ⟨hp, h⟩

theorem dispositions_ignored : (∃ s k, Run (Step 100) lone [.setAction 15 ⟨sigIgn, 0, 0⟩] s ∧
      dispatchSignal s.kernel 100 15 = some (0, k) ∧ (k.procs 100).signalPending = 15 ∧
      ¬ Honoured s 100 15 k) ∧
    ∃ s k, Run (Step 100) lone [.setAction sigkill ⟨4096, saRestorer, 0⟩] s ∧
      dispatchSignal s.kernel 100 sigkill = some (0, k) ∧ s.kernel.state 100 = .running ∧
      k.state 100 = .running ∧ ¬ Honoured s 100 sigkill k := by
  constructor
  · refine ⟨_, _, .one ⟨by decide, rfl⟩, rfl, by decide +kernel, fun h => ?_⟩
    have hsame := congrArg Process.signalPending (h.ignored (by decide +kernel))
    revert hsame
    decide +kernel
  · refine ⟨_, _, .one ⟨by decide, rfl⟩, rfl, by decide +kernel, by decide +kernel, fun h => ?_⟩
    have hkilled := h.killed rfl (by decide +kernel)
    revert hkilled
    decide +kernel

theorem dispositions_honoured_kill : ∃ s k, Run (Step 100) lone
      [.setAction 10 ⟨4096, saRestorer, 0xFFFFFFFF⟩, .dispatch 10, .doSignal 10 true true] s ∧
    dispatchSignal s.kernel 100 sigkill = some (0, k) ∧ Honoured s 100 sigkill k := by
  obtain ⟨s, hrun, hdfl, hinit, htable, hparent⟩ : ∃ s, Run (Step 100) lone
      [.setAction 10 ⟨4096, saRestorer, 0xFFFFFFFF⟩, .dispatch 10, .doSignal 10 true true] s ∧
      (sigActionOf s.kernel 100 sigkill).handler = sigDfl ∧ getProc s.kernel 1 = some 100 ∧
      s.kernel.table = [100] ∧ (s.kernel.procs 100).parent = 1 :=
    exists_run (advance_step 100) (by decide +kernel)
  have hboth := dispositions_honoured (n := sigkill) lone_fresh hrun (by decide) (by decide)
    (by rw [hdfl]; decide) fun _ => hdfl
  have hpeople : Peopled s.kernel := by
    refine ⟨⟨100, hinit⟩, fun q hq => ⟨100, ?_⟩⟩
    rw [htable, List.mem_singleton] at hq
    rw [hq, hparent, hinit]
  obtain ⟨k, hk⟩ := hboth.2 (.inl rfl) hpeople (by simp [htable])
  exact ⟨s, k, hrun, hk, hboth.1 0 k hk⟩

end Gloworm.Signal
