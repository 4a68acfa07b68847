import Gloworm.ProcessTable
import Gloworm.QueueTidy

/-! Exited processes. An exited process is in no queue, even where the queues have otherwise gone
wrong, so nothing but a direct assignment to its state can bring it back. -/
namespace Gloworm.ExitedProcess
open Option Function Queue Transition Scheduler ProcessTable

def Fits : QueueId → ProcState → Prop
  | .run, st => st.isRunning
  | .blocked, st => st = .blocked

lemma fits_unique {k k' : QueueId} {st : ProcState} (h : Fits k st) (h' : Fits k' st) : k = k' := by
  cases k <;> cases k' <;> first | rfl | skip
  · rw [Fits] at h'
    simp [Fits, h', ProcState.isRunning] at h
  · rw [Fits] at h
    simp [Fits, h, ProcState.isRunning] at h'

def Kind (s : Kernel) (k : QueueId) (p : Proc) : Prop := p ∈ s.table ∧ Fits k (s.state p)

variable {s : Kernel}

lemma not_kind_exited {p : Proc} (h : s.state p = .exited) (k : QueueId) : ¬ Kind s k p := by
  rintro ⟨-, hf⟩
  cases k <;> simp [Fits, h, ProcState.isRunning] at hf

/-- Links and ends lead to processes that belong where they are, and there is an idle process. -/
structure Tame (s : Kernel) : Prop where
  tidy : Tidy s.queues (Kind s)
  current : ∀ c, s.currentProc = some c → c ∈ s.table ∨ s.state c = .exited
  idle : s.idleProc ∈ s.table
  idleState : s.state s.idleProc ≠ .exited

structure Calm (s t : Kernel) : Prop where
  tame : Tame t
  processList : t.processList = s.processList
  exited : ∀ q, s.state q = .exited → t.state q = .exited

lemma Calm.trans {t u : Kernel} (h : Calm s t) (h' : Calm t u) : Calm s u :=
  ⟨h'.tame, h'.processList.trans h.processList, fun q hq => h'.exited q (h.exited q hq)⟩

lemma Calm.table {t : Kernel} (h : Calm s t) : t.table = s.table := by
  rw [Kernel.table, h.processList, Kernel.table]

namespace Tame
variable {t : Kernel} {p : Proc}

section
variable (h : Tame s)
include h

lemma calm : Calm s s := ⟨h, rfl, fun _ hq => hq⟩

lemma move (hf : Frame s t p) (hp : p ∈ s.table) (hexit : s.state p = .exited → t.state p = .exited)
    (hidle : p = s.idleProc → t.state p ≠ .exited) {kind : QueueId → Proc → Prop}
    (hq : Tidy t.queues kind) (hother : ∀ k q, q ≠ p → (kind k q ↔ Kind s k q))
    (hself : ∀ k, kind k p ↔ Fits k (t.state p)) : Calm s t := by
  have hstate : ∀ q, s.state q = .exited → t.state q = .exited := by
    intro q hq
    by_cases hqp : q = p
    · subst hqp
      exact hexit hq
    · rw [hf.state q hqp, hq]
  refine ⟨⟨hq.congr fun k q => ?_, fun c hc => ?_, ?_, ?_⟩, hf.processList, hstate⟩
  · rw [Kind, hf.table]
    by_cases hqp : q = p
    · rw [hqp, hself, and_iff_right hp]
    · rw [hother k q hqp, Kind, hf.state q hqp]
  · rw [hf.currentProc] at hc
    rw [hf.table]
    exact (h.current c hc).imp_right (hstate c)
  · rw [hf.table, hf.idleProc]
    exact h.idle
  · rw [hf.idleProc]
    by_cases hid : s.idleProc = p
    · rw [hid]
      exact hidle hid.symm
    · rw [hf.state _ hid]
      exact h.idleState

lemma same (hq : t.queues = s.queues) (hl : t.processList = s.processList)
    (hi : t.idleProc = s.idleProc) (hc : t.currentProc = s.currentProc)
    (hst : ∀ q, t.state q = s.state q) : Calm s t := by
  have hf : Frame s t s.idleProc := ⟨hl, hi, hc, fun q _ => hst q⟩
  refine h.move hf h.idle ?_ (fun _ => ?_) (hq ▸ h.tidy) (fun _ _ _ => Iff.rfl) fun k => ?_
  · rw [hst]
    exact id
  · rw [hst]
    exact h.idleState
  · rw [hst, Kind, and_iff_right h.idle]

lemma modify {f : Process → Process} (hf : ∀ x, (f x).state = x.state) : Calm s (s.modify p f) := by
  exact h.same rfl rfl rfl rfl fun q => state_modify_same s p q hf

lemma leave (hf : Frame s t p) (hp : p ∈ s.table) {k : QueueId}
    (hq : t.queues = queueRemove s.queues k p) (hk : ∀ k', Kind s k' p → k' = k)
    (hexit : s.state p = .exited → t.state p = .exited)
    (hidle : p = s.idleProc → t.state p ≠ .exited) (hout : ∀ k', ¬ Fits k' (t.state p)) :
    Calm s t := by
  refine h.move hf hp hexit hidle (hq ▸ h.tidy.remove hk) ?_ ?_
  · intro k' q hqp
    simp [hqp]
  · intro k'
    exact iff_of_false (fun hc => hc.2 rfl) (hout k')

variable (hp : p ∈ s.table)
include hp

lemma setRunning (hst : (s.state p).isRunning) : Calm s (s.setState p .running) := by
  have hnew : (s.setState p .running).state p = .running := by simp
  refine h.move (frame_setState s p _) hp ?_ (fun _ => by simp) h.tidy (fun _ _ _ => Iff.rfl)
    fun k => ?_
  · intro he
    simp [he, ProcState.isRunning] at hst
  · rw [hnew, Kind, and_iff_right hp]
    cases k with
    | run => exact iff_of_true hst (.inl rfl)
    | blocked =>
      refine iff_of_false (fun hb => ?_) (by simp [Fits])
      rw [Fits] at hb
      simp [hb, ProcState.isRunning] at hst

lemma suspendProc (flags : ℕ) : Calm s (suspendProc s p flags) := by
  have hf := Consistent.frame_suspendProc s p flags
  by_cases hst : s.state p = .running
  · have hstate : (Scheduler.suspendProc s p flags).state p = .blocked := by
      rw [Scheduler.suspendProc, if_neg (not_not.mpr hst)]
      simp [Kernel.modify, Kernel.setState, Kernel.state]
    have hqueues : (Scheduler.suspendProc s p flags).queues =
        queueInsert (queueRemove s.queues .run p) .blocked p := by
      rw [Scheduler.suspendProc, if_neg (not_not.mpr hst)]
      rfl
    have hrem := h.tidy.remove (k := .run) (x := p) fun k' hk =>
      fits_unique hk.2 (show Fits .run (s.state p) from .inl hst)
    have hins := hrem.insert (k := .blocked) (x := p) fun k' hk => hk.2 rfl
    refine h.move hf hp (by simp [hst]) (by simp [hstate]) (hqueues ▸ hins) ?_ ?_
    · intro k q hq
      simp [hq]
    · intro k
      rw [hstate]
      cases k <;> simp [Fits, ProcState.isRunning]
  · rw [Scheduler.suspendProc, if_pos hst]
    exact h.calm

lemma resumeProc : Calm s (resumeProc s p) := by
  have hf := Consistent.frame_resumeProc s p
  have hstate := Consistent.state_resumeProc s p
  by_cases hst : (s.state p).isRunning ∨ s.state p = .exited
  · rw [Scheduler.resumeProc, if_pos hst]
    exact h.calm
  · rw [if_neg hst] at hstate
    have hqueues := Consistent.queues_resumeProc hst
    have hgone : Tidy (if s.state p = .blocked then queueRemove s.queues .blocked p else s.queues)
        fun k q => Kind s k q ∧ q ≠ p := by
      split_ifs with hb
      · exact h.tidy.remove fun k' hk => fits_unique hk.2 (show Fits .blocked (s.state p) from hb)
      · refine h.tidy.congr fun k q => and_iff_left_of_imp ?_
        rintro ⟨-, hfit⟩ rfl
        cases k with
        | run => exact hst (.inl hfit)
        | blocked => exact hb hfit
    have hins := hgone.insert (k := .run) (x := p) fun k' hk => hk.2 rfl
    refine h.move hf hp (fun he => absurd (.inr he) hst) (by simp [hstate]) (hqueues ▸ hins) ?_ ?_
    · intro k q hq
      simp [hq]
    · intro k
      rw [hstate]
      cases k <;> simp [Fits, ProcState.isRunning]

lemma stopProc : Calm s (stopProc s p) := by
  have hf := Consistent.frame_stopProc s p
  by_cases hout : s.state p = .exited ∨ s.state p = .stopped
  · rw [Scheduler.stopProc, if_pos hout]
    exact h.calm
  · have hstate : (Scheduler.stopProc s p).state p = .stopped := by
      rw [Scheduler.stopProc, if_neg hout]
      simp [Kernel.setState, Kernel.modify, Kernel.state]
    have hnone : ∀ k', ¬ Fits k' ((Scheduler.stopProc s p).state p) := by
      intro k'
      rw [hstate]
      cases k' <;> simp [Fits, ProcState.isRunning]
    have hno : s.state p = .exited → (Scheduler.stopProc s p).state p = .exited :=
      fun he => absurd (.inl he) hout
    by_cases hrun : (s.state p).isRunning
    · have hq : (Scheduler.stopProc s p).queues = queueRemove s.queues .run p := by
        rw [Scheduler.stopProc, if_neg hout, if_pos hrun]
        rfl
      exact h.leave hf hp hq (fun k' hk => fits_unique hk.2 (show Fits .run _ from hrun)) hno
        (by simp [hstate]) hnone
    · have hblk : s.state p = .blocked := by
        cases hs : s.state p <;> simp_all [ProcState.isRunning]
      have hq : (Scheduler.stopProc s p).queues = queueRemove s.queues .blocked p := by
        rw [Scheduler.stopProc, if_neg hout, if_neg hrun, if_pos hblk]
        rfl
      exact h.leave hf hp hq (fun k' hk => fits_unique hk.2 (show Fits .blocked _ from hblk)) hno
        (by simp [hstate]) hnone

lemma cancelSyscall : Calm s (cancelSyscall s p) := by
  refine cancelSyscall_keeps h.calm (fun _ => h.resumeProc hp) (fun t hr ht => ?_) fun t _ _ ht => ?_
  · exact ht.trans (ht.tame.setRunning (ht.table.symm ▸ hp) (.inr hr))
  · exact ht.trans (ht.tame.modify fun _ => rfl)

lemma rescheduleProcToNow (ht : rescheduleProcToNow s p = some t) : Calm s t := by
  obtain rfl | ⟨c, hc, hcp, hrun, hcur, rfl⟩ := rescheduleProcToNow_cases ht
  · exact h.calm
  · have hct : c ∈ s.table := by
      rcases h.current c hc with hin | hex
      · exact hin
      · simp [hex, ProcState.isRunning] at hcur
    have hrem := h.tidy.remove (k := .run) (x := p) fun k' hk =>
      fits_unique hk.2 (show Fits .run (s.state p) from hrun)
    have hins := hrem.insertAfter (k := .run) (x := p) (a := c) (fun k' hk => hk.2 rfl)
      ⟨show Kind s .run c from ⟨hct, hcur⟩, hcp⟩
    refine h.move ⟨rfl, rfl, rfl, fun _ _ => rfl⟩ hp id (fun hid => ?_) hins ?_ ?_
    · exact hid ▸ h.idleState
    · intro k q hq
      simp [hq]
    · intro k
      cases k with
      | run => exact iff_of_true (.inr ⟨rfl, rfl⟩) hrun
      | blocked =>
        refine iff_of_false (by simp) fun hb => ?_
        have hb : s.state p = .blocked := hb
        simp [hb, ProcState.isRunning] at hrun

lemma resumeProcWithoutRestart (hlive : s.state p ≠ .exited)
    (ht : resumeProcWithoutRestart s p = some t) : Calm s t := by
  have h1 := h.resumeProc hp
  have hp1 : p ∈ (Scheduler.resumeProc s p).table := h1.table ▸ hp
  have hrun : ((Scheduler.resumeProc s p).state p).isRunning := by
    rw [Consistent.state_resumeProc]
    split_ifs with hst
    · exact hst.resolve_right hlive
    · exact .inr rfl
  have h2 := h1.tame.setRunning hp1 hrun
  exact (h1.trans h2).trans (h2.tame.rescheduleProcToNow (h2.table ▸ hp1) ht)

lemma closed (status : ℤ) (hid : p ≠ s.idleProc) : Calm s (closed s p status).2 := by
  obtain ⟨hf, hgone⟩ := frame_detached s p status
  have hout : ∀ k, ¬ Fits k ((detached s p status).state p) := by
    intro k
    rw [hgone]
    cases k <;> simp [Fits, ProcState.isRunning]
  have hdetached : Calm s (detached s p status) := by
    by_cases hblk : s.state p = .blocked
    · have hq : (detached s p status).queues = queueRemove s.queues .blocked p := by
        rw [detached, if_pos hblk]
        rfl
      exact h.leave hf hp hq (fun k' hk => fits_unique hk.2 (show Fits .blocked _ from hblk))
        (fun _ => hgone) (fun he => absurd he hid) hout
    · have hq : (detached s p status).queues = queueRemove s.queues .run p := by
        rw [detached, if_neg hblk]
        rfl
      refine h.leave hf hp hq (fun k' hk => ?_) (fun _ => hgone) (fun he => absurd he hid) hout
      cases k' with
      | run => rfl
      | blocked => exact absurd hk.2 hblk
  refine hdetached.trans (hdetached.tame.same rfl rfl rfl rfl fun q => ?_)
  rw [(procs_closed s p status q).2.2.2, (procs_detached s p status q).2.2.2]

omit h hp in
lemma wake {u : Kernel} {q : Proc} (hq : q ∈ u.table) (hu : Calm s u) :
    Calm s (Scheduler.resumeProc u q) := hu.trans (hu.tame.resumeProc hq)

lemma exitProc {status : ℤ} (hid : p ≠ s.idleProc)
    (ht : Scheduler.exitProc s p status = some t) : Calm s t := by
  refine exitProc_keeps (fun _ _ => wake) (fun u hu => ?_) (fun _ => h.calm)
    (h.closed hp status hid) ht
  exact hu.trans (hu.tame.same rfl rfl rfl rfl fun _ => rfl)
end
end Tame

def Reaches (s : Kernel) (p : Proc) (signum : ℕ) : Prop :=
  ¬ (signum = 0 ∨ 32 ≤ signum) ∧ signalToMap signum &&& (s.procs p).signals.ignored = 0 ∧
    signalToMap signum &&& (s.procs p).signals.blocked = 0

/-- No handled signal reaches an exited process, and no terminating one the idle process. -/
def SignalLively (s : Kernel) (p : Proc) (signum : ℕ) : Prop :=
  Reaches s p signum →
    if (sigActionOf s p signum).handler ≠ 0 then s.state p ≠ .exited
    else signalToMap signum &&& sigMaskDefaultTerminate ≠ 0 → p ≠ s.idleProc

namespace Tame
variable {t : Kernel} {p : Proc}

section
variable {signum : ℕ} (h : Tame s) (hp : p ∈ s.table)
include h hp

lemma runSignalHandler (hlive : s.state p ≠ .exited) (ht : runSignalHandler s p signum = some t) :
    Calm s t := by
  obtain ⟨u, hcase, hrun⟩ := runSignalHandler_cases ht
  obtain ⟨h1, hu⟩ : Calm s u ∧ u.state p ≠ .exited := by
    rcases hcase with rfl | rfl
    · exact ⟨h.calm, hlive⟩
    · refine ⟨h.cancelSyscall hp, ?_⟩
      rw [state_cancelSyscall]
      split_ifs
      · simp
      · exact hlive
  have h2 : Calm u (u.modify p fun x => { x with signalPending := signum }) :=
    h1.tame.modify fun _ => rfl
  refine (h1.trans h2).trans (h2.tame.resumeProcWithoutRestart ?_ ?_ hrun)
  · rw [h2.table, h1.table]
    exact hp
  · rw [state_modify, if_pos rfl]
    exact hu

lemma signalDefaultEffect
    (hid : signalToMap signum &&& sigMaskDefaultTerminate ≠ 0 → p ≠ s.idleProc)
    (ht : signalDefaultEffect s p signum (signalToMap signum) = some t) : Calm s t := by
  unfold Scheduler.signalDefaultEffect at ht
  split_ifs at ht with hterm
  · obtain ⟨u, hu, ht⟩ := bind_eq_some_iff.mp ht
    exact resumeWaitingParent_keeps (fun _ _ => wake) (h.exitProc hp (hid hterm) hu) ht
  · exact some.inj ht ▸ h.stopProc hp
  · exact some.inj ht ▸ h.resumeProc hp
  · exact some.inj ht ▸ h.calm

lemma runSignalDefaultAction
    (hid : signalToMap signum &&& sigMaskDefaultTerminate ≠ 0 → p ≠ s.idleProc)
    (ht : runSignalDefaultAction s p signum (signalToMap signum) = some t) : Calm s t := by
  obtain ⟨u, hu, rfl⟩ := map_eq_some_iff.mp ht
  have h1 := h.signalDefaultEffect hp hid hu
  split_ifs
  · exact h1.trans (h1.tame.cancelSyscall (h1.table ▸ hp))
  · exact h1

lemma dispatchSignal {ret : ℤ} (hg : SignalLively s p signum)
    (ht : dispatchSignal s p signum = some (ret, t)) : Calm s t := by
  by_cases hrange : signum = 0 ∨ 32 ≤ signum
  · rw [Scheduler.dispatchSignal, if_pos hrange, some.injEq, Prod.mk.injEq] at ht
    exact ht.2 ▸ h.calm
  · rcases dispatchSignal_cases hrange ht with ⟨-, rfl⟩ | ⟨-, -, rfl⟩ | ⟨hign, hblk, hcase⟩
    · exact h.calm
    · exact h.modify fun _ => rfl
    · have hsafe := hg ⟨hrange, hign, hblk⟩
      rcases hcase with ⟨hcaught, hu⟩ | ⟨hcaught, hu⟩
      · rw [if_pos hcaught] at hsafe
        exact h.runSignalHandler hp hsafe hu
      · rw [if_neg (not_not.mpr hcaught)] at hsafe
        exact h.runSignalDefaultAction hp hsafe hu
end

lemma nextNode_running (h : Tame s) {n : Proc} (hn : nextNode s = some n) :
    n ∈ s.table ∧ (s.state n).isRunning := by
  have hhead : s.queues.head .run = some n → n ∈ s.table ∧ (s.state n).isRunning :=
    fun hh => (h.tidy.head .run n hh).1
  unfold nextNode at hn
  cases hc : s.currentProc with
  | none =>
    rw [hc] at hn
    exact hhead hn
  | some c =>
    simp only [hc] at hn
    by_cases hrun : (s.state c).isRunning
    · rw [if_pos hrun] at hn
      cases hx : s.queues.next c with
      | none =>
        rw [hx] at hn
        exact hhead hn
      | some m =>
        simp only [hx, some.injEq] at hn
        subst hn
        obtain ⟨k, hkc, hkm⟩ := h.tidy.link c m hx
        obtain rfl := fits_unique hkc.2 (show Fits .run (s.state c) from hrun)
        exact hkm
    · rw [if_neg hrun] at hn
      exact hhead hn

lemma chosen (h : Tame s) : (nextNode s).getD s.idleProc ∈ s.table ∧
    s.state ((nextNode s).getD s.idleProc) ≠ .exited := by
  cases hn : nextNode s with
  | none => exact ⟨h.idle, h.idleState⟩
  | some n =>
    obtain ⟨hin, hrun⟩ := h.nextNode_running hn
    refine ⟨hin, fun he => ?_⟩
    rw [getD_some] at he
    simp [he, ProcState.isRunning] at hrun

lemma schedule_currentProc (s : Kernel) :
    (schedule s).currentProc = some ((nextNode s).getD s.idleProc) := by
  unfold schedule restartCurrentSyscall
  dsimp only
  split_ifs <;> rfl

lemma schedule (h : Tame s) : Calm s (schedule s) := by
  obtain ⟨hin, hlive⟩ := h.chosen
  rw [Scheduler.schedule]
  generalize (nextNode s).getD s.idleProc = n at hin hlive
  have hcur : Calm s { s with needReschedule := false, currentProc := some n } := by
    refine ⟨⟨h.tidy, fun c hc => ?_, h.idle, h.idleState⟩, rfl, fun _ hq => hq⟩
    exact .inl (some.inj hc ▸ hin)
  split_ifs with hres
  · have hrun := hcur.tame.setRunning hin (.inr hres)
    refine (hcur.trans hrun).trans ?_
    unfold restartCurrentSyscall
    dsimp only
    split_ifs
    · have hbits := hrun.tame.modify (p := n) (f := fun x =>
        { x with bits := clearBits x.bits pbSyscall }) fun _ => rfl
      exact hbits.trans (hbits.tame.same rfl rfl rfl rfl fun _ => rfl)
    · exact hrun.tame.calm
  · exact hcur

lemma newProc (h : Tame s) {pid : ℤ} {addr : Proc} {r : Option Proc}
    (ht : Scheduler.newProc s pid addr = some (r, t)) (hfresh : addr ∉ s.table) :
    Tame t ∧ ∀ q ∈ s.table, q ∈ t.table ∧ (s.state q = .exited → t.state q = .exited) := by
  obtain ⟨u, hq, hpr, hl, hi, hc, hcase⟩ := newProc_cases ht
  have hu : Calm s u := h.same hq hl hi hc fun q => by rw [Kernel.state, hpr, Kernel.state]
  rcases hcase with ⟨-, rfl⟩ | ⟨-, slot, pid', hslot, rfl⟩
  · refine ⟨hu.tame, fun q hin => ⟨?_, hu.exited q⟩⟩
    rw [hu.table]
    exact hin
  · rw [← hl] at hslot
    have hmem : ∀ q, q ∈ (fillSlot u slot pid' addr).table ↔ q = addr ∨ q ∈ u.table :=
      table_fillSlot pid' hslot
    have hst := state_fillSlot u slot pid' addr
    have hnot : addr ∉ u.table := hu.table.symm ▸ hfresh
    obtain ⟨hn, hp, -⟩ := hu.tame.tidy.alone (x := addr) fun k hk => hnot hk.1
    have hins := hu.tame.tidy.insert (k := .run) (x := addr) fun k hk => hnot hk.1
    have hne : ∀ q ∈ u.table, q ≠ addr := fun q hin he => hnot (he ▸ hin)
    refine ⟨⟨?_, fun c hcur => ?_, ?_, ?_⟩, fun q hin => ?_⟩
    · rw [queues_fillSlot slot pid' hn hp]
      refine hins.congr fun k q => ?_
      rw [Kind, hmem, hst, Kind]
      by_cases hqa : q = addr
      · subst hqa
        cases k <;> simp [Fits, ProcState.isRunning, hnot]
      · simp [hqa]
    · rw [hmem, hst]
      by_cases hca : c = addr
      · exact .inl (.inl hca)
      · rw [if_neg hca]
        exact (hu.tame.current c hcur).imp_left .inr
    · exact (hmem _).mpr (.inr hu.tame.idle)
    · have hidle : (fillSlot u slot pid' addr).idleProc ≠ addr := hne _ hu.tame.idle
      rw [hst, if_neg hidle]
      exact hu.tame.idleState
    · have hin' : q ∈ u.table := hu.table.symm ▸ hin
      refine ⟨(hmem q).mpr (.inr hin'), fun he => ?_⟩
      rw [hst, if_neg (hne q hin')]
      exact hu.exited q he
end Tame

lemma initScheduler_tame {maxProcesses : ℕ} {mem : Proc → Process} {idle : Proc}
    (h : initScheduler maxProcesses mem idle = some s) : Tame s := by
  have hcons := initScheduler_spec h
  have hstate : s.state s.idleProc = .running := by
    obtain ⟨⟨r, t⟩, hnew, h⟩ := bind_eq_some_iff.mp h
    obtain ⟨u, -, -, -, -, -, hcase⟩ := newProc_cases hnew
    rcases hcase with ⟨rfl, rfl⟩ | ⟨rfl, slot, pid, -, rfl⟩
    · simp at h
    · simp only [some.injEq] at h
      subst h
      exact (state_fillSlot u slot pid idle idle).trans (if_pos rfl)
  have hnone : ∀ x, s.queues.next x = none ∧ s.queues.prev x = none :=
    fun x => hcons.holds.free x fun _ => List.not_mem_nil
  refine ⟨⟨fun x y => ?_, fun x y hxy => ?_, fun k x hx => ?_, fun k x hx => ?_,
    fun k k' x hk hk' => fits_unique hk.2 hk'.2⟩, fun c hc => .inl (hcons.current c hc),
    hcons.idle, by simp [hstate]⟩
  · simp [(hnone x).1, (hnone y).2]
  · simp [(hnone x).1] at hxy
  · simp [hcons.holds.head k] at hx
  · simp [hcons.holds.tail k] at hx

def sigalrm : ℕ := 14
def pbAlarmOn : ℕ := 0x0100

def resumeBlockedLoop (events : ℕ) (checks : Proc → Bool) : ℕ → Kernel → Option Proc → Kernel
  | 0, s, _ => s
  | _ + 1, s, none => s
  | fuel + 1, s, some cur =>
    let next := s.queues.next cur
    let s := if (s.procs cur).waitCheck ≠ 0 ∧ events &&& (s.procs cur).waitEvents ≠ 0 ∧ checks cur
      then resumeProc s cur else s
    resumeBlockedLoop events checks fuel s next

def resumeBlockedProcs (s : Kernel) (fuel events : ℕ) (checks : Proc → Bool) : Kernel :=
  resumeBlockedLoop events checks fuel s (s.queues.head .blocked)

def sendSignal (s : Kernel) (pid : ℤ) (signum : ℕ) : Option Kernel :=
  match getProc s pid with
  | none => some s
  | some p => (dispatchSignal s p signum).map Prod.snd

def onAlarm (s : Kernel) (p : Proc) : Option Kernel :=
  sendSignal (s.modify p fun x => { x with bits := clearBits x.bits pbAlarmOn }) (s.procs p).pid
    sigalrm

inductive Action
  | op (o : Op)
  | sendSignal (pid : ℤ) (signum : ℕ)
  | onAlarm (p : Proc)
  | resumeBlockedProcs (fuel events : ℕ) (checks : Proc → Bool)
  | cleanupProc (p : Proc)

def perform (s : Table) : Action → Option Table
  | .op (.newProc pid p) => (newProc s pid p).map Prod.snd
  | .op o => (Scheduler.perform s.kernel o).map s.setKernel
  | .sendSignal pid signum => (sendSignal s.kernel pid signum).map s.setKernel
  | .onAlarm p => (onAlarm s.kernel p).map s.setKernel
  | .resumeBlockedProcs fuel events checks =>
    some (s.setKernel (resumeBlockedProcs s.kernel fuel events checks))
  | .cleanupProc p => some (cleanupProc s p)

def Permitted (s : Table) : Action → Prop
  | .op o => Scheduler.Permitted s.kernel o
  | .onAlarm p => p ∈ s.kernel.table
  | .cleanupProc p => p ∈ s.kernel.table ∧ s.kernel.state p = .exited
  | _ => True

def Step (s : Table) (a : Action) (t : Table) : Prop := Permitted s a ∧ perform s a = some t

/-- No exited process is woken without restart, and the idle process is not ended. -/
def Lively (s : Table) : Action → Prop
  | .op (.resumeProcWithoutRestart p) => s.kernel.state p ≠ .exited
  | .op (.exitProc p _) => p ≠ s.kernel.idleProc
  | .op (.dispatchSignal p signum) => SignalLively s.kernel p signum
  | .sendSignal pid signum => ∀ p, getProc s.kernel pid = some p → SignalLively s.kernel p signum
  | .onAlarm p => ∀ q, getProc s.kernel (s.kernel.procs p).pid = some q →
      SignalLively s.kernel q sigalrm
  | _ => True

namespace Tame
variable {t : Kernel} {p : Proc}

lemma resumeBlockedLoop (h : Tame s) (events : ℕ) (checks : Proc → Bool) (fuel : ℕ)
    {cur : Option Proc} (hcur : ∀ c, cur = some c → c ∈ s.table) :
    Calm s (resumeBlockedLoop events checks fuel s cur) := by
  induction fuel generalizing s cur with
  | zero => exact h.calm
  | succ fuel ih =>
    cases cur with
    | none => exact h.calm
    | some c =>
      rw [ExitedProcess.resumeBlockedLoop]
      have hnext : ∀ n, s.queues.next c = some n → n ∈ s.table := by
        intro n hn
        obtain ⟨k, -, hk⟩ := h.tidy.link c n hn
        exact hk.1
      split_ifs
      · have h1 := h.resumeProc (hcur c rfl)
        exact h1.trans (ih h1.tame fun n hn => h1.table.symm ▸ hnext n hn)
      · exact ih h hnext

lemma sendSignal (h : Tame s) {pid : ℤ} {signum : ℕ}
    (hg : ∀ p, getProc s pid = some p → SignalLively s p signum)
    (ht : sendSignal s pid signum = some t) : Calm s t := by
  unfold ExitedProcess.sendSignal at ht
  cases hp : getProc s pid with
  | none =>
    simp only [hp, some.injEq] at ht
    exact ht ▸ h.calm
  | some p =>
    simp only [hp] at ht
    obtain ⟨⟨ret, u⟩, hu, rfl⟩ := map_eq_some_iff.mp ht
    exact h.dispatchSignal (getProc_mem hp) (hg p hp) hu

lemma onAlarm (h : Tame s) (hg : ∀ q, getProc s (s.procs p).pid = some q → SignalLively s q sigalrm)
    (ht : onAlarm s p = some t) : Calm s t := by
  have h1 : Calm s (s.modify p fun x => { x with bits := clearBits x.bits pbAlarmOn }) :=
    h.modify fun _ => rfl
  refine h1.trans (h1.tame.sendSignal (fun q hq => ?_) ht)
  have hsame : ∀ q, ((s.modify p fun x =>
      { x with bits := clearBits x.bits pbAlarmOn }).procs q).pid = (s.procs q).pid ∧
      ((s.modify p fun x => { x with bits := clearBits x.bits pbAlarmOn }).procs q).signals =
        (s.procs q).signals ∧
      (s.modify p fun x => { x with bits := clearBits x.bits pbAlarmOn }).state q = s.state q := by
    intro q
    by_cases hqp : q = p
    · subst hqp
      simp [Kernel.modify, Kernel.state]
    · simp [Kernel.modify, Kernel.state, hqp]
  have hget : getProc s (s.procs p).pid = some q := by
    rw [← hq, getProc, getProc, h1.table]
    simp only [hsame]
  have hlive := hg q hget
  simp only [SignalLively, Reaches, sigActionOf, hsame] at hlive ⊢
  exact hlive

lemma perform (h : Tame s) {o : Op} (hp : Scheduler.Permitted s o)
    (hnew : ∀ pid addr, o ≠ .newProc pid addr) (st : Table) (hs : st.kernel = s)
    (hg : Lively st (.op o)) (ht : Scheduler.perform s o = some t) : Calm s t := by
  subst hs
  cases o with
  | newProc pid addr => exact absurd rfl (hnew pid addr)
  | suspendProc p flags => exact some.inj ht ▸ h.suspendProc hp flags
  | suspendSyscall p flags events check call =>
    have h1 := h.suspendProc hp (pbSyscall ||| flags)
    exact some.inj ht ▸ h1.trans (h1.tame.modify fun _ => rfl)
  | resumeProc p => exact some.inj ht ▸ h.resumeProc hp
  | resumeProcWithoutRestart p => exact h.resumeProcWithoutRestart hp hg ht
  | stopProc p => exact some.inj ht ▸ h.stopProc hp
  | exitProc p status => exact h.exitProc hp hg ht
  | cancelSyscall p => exact some.inj ht ▸ h.cancelSyscall hp
  | dispatchSignal p signum =>
    obtain ⟨⟨ret, u⟩, hu, rfl⟩ := map_eq_some_iff.mp ht
    exact h.dispatchSignal hp hg hu
  | rescheduleProcToNow p => exact h.rescheduleProcToNow hp ht
  | schedule => exact some.inj ht ▸ h.schedule
  | configure p signals parent bits => exact some.inj ht ▸ h.modify fun _ => rfl
end Tame

lemma cleanupProc_tame {s : Table} {p : Proc} (h : Tame s.kernel) (hst : s.kernel.state p = .exited) :
    Tame (cleanupProc s p).kernel ∧ ∀ q ∈ s.kernel.table, q ≠ p →
      q ∈ (cleanupProc s p).kernel.table ∧ (cleanupProc s p).kernel.state q = s.kernel.state q := by
  by_cases hslot : s.processList[s.slotnum p]? = some (some p)
  · obtain ⟨l, r, hold, hnew⟩ := filterMap_set hslot none
    have hmem : ∀ q, q ≠ p → (q ∈ (cleanupProc s p).kernel.table ↔ q ∈ s.kernel.table) := by
      intro q hq
      have hafter : (cleanupProc s p).kernel.table = l ++ r := by
        rw [toList_none, List.append_nil] at hnew
        rw [cleanupProc, if_pos hslot]
        exact hnew
      have hbefore : s.kernel.table = l ++ [p] ++ r := hold
      rw [hafter, hbefore]
      simp [hq]
    have hrest : (cleanupProc s p).kernel.queues = s.kernel.queues ∧
        (cleanupProc s p).kernel.procs = s.kernel.procs ∧
        (cleanupProc s p).kernel.currentProc = s.kernel.currentProc ∧
        (cleanupProc s p).kernel.idleProc = s.kernel.idleProc := by
      rw [cleanupProc, if_pos hslot]
      exact ⟨rfl, rfl, rfl, rfl⟩
    obtain ⟨hq, hpr, hc, hi⟩ := hrest
    have hstate : ∀ q, (cleanupProc s p).kernel.state q = s.kernel.state q := by
      intro q
      rw [Kernel.state, hpr, Kernel.state]
    have hidle : s.kernel.idleProc ≠ p := fun he => h.idleState (he ▸ hst)
    refine ⟨⟨?_, fun c hcur => ?_, ?_, ?_⟩, fun q hin hne => ⟨(hmem q hne).mpr hin, hstate q⟩⟩
    · rw [hq]
      refine h.tidy.congr fun k q => ?_
      by_cases hqp : q = p
      · subst hqp
        exact iff_of_false (not_kind_exited ((hstate q).trans hst) k) (not_kind_exited hst k)
      · rw [Kind, Kind, hmem q hqp, hstate]
    · rw [hc] at hcur
      rw [hstate]
      by_cases hcp : c = p
      · exact .inr (hcp ▸ hst)
      · rw [hmem c hcp]
        exact h.current c hcur
    · rw [hi, hmem _ hidle]
      exact h.idle
    · rw [hi, hstate]
      exact h.idleState
  · rw [cleanupProc, if_neg hslot]
    exact ⟨h, fun q hin _ => ⟨hin, rfl⟩⟩

lemma step_tame {s t : Table} {a : Action} (h : Tame s.kernel) (hstep : Guarded Lively Step s a t) :
    Tame t.kernel ∧ ∀ q ∈ s.kernel.table, a ≠ .cleanupProc q → s.kernel.state q = .exited →
      q ∈ t.kernel.table ∧ t.kernel.state q = .exited := by
  obtain ⟨hg, hp, hdo⟩ := hstep
  have hkernel : ∀ k, Calm s.kernel k → Tame (s.setKernel k).kernel ∧
      ∀ q ∈ s.kernel.table, a ≠ .cleanupProc q → s.kernel.state q = .exited →
        q ∈ (s.setKernel k).kernel.table ∧ (s.setKernel k).kernel.state q = .exited :=
    fun k hk => ⟨hk.tame, fun q hin _ he => ⟨hk.table.symm ▸ hin, hk.exited q he⟩⟩
  cases a with
  | op o =>
    by_cases hnew : ∃ pid addr, o = .newProc pid addr
    · obtain ⟨pid, addr, rfl⟩ := hnew
      obtain ⟨r, hr, rfl⟩ := map_eq_some_iff.mp hdo
      obtain ⟨⟨res, k⟩, hk, rfl⟩ := map_eq_some_iff.mp hr
      obtain ⟨htame, hkeep⟩ := h.newProc hk hp
      cases res with
      | none => exact ⟨htame, fun q hin _ he => ⟨(hkeep q hin).1, (hkeep q hin).2 he⟩⟩
      | some p => exact ⟨htame, fun q hin _ he => ⟨(hkeep q hin).1, (hkeep q hin).2 he⟩⟩
    · have hdo' : (Scheduler.perform s.kernel o).map s.setKernel = some t := by
        cases o with
        | newProc pid addr => exact absurd ⟨pid, addr, rfl⟩ hnew
        | _ => exact hdo
      obtain ⟨k, hk, rfl⟩ := map_eq_some_iff.mp hdo'
      exact hkernel k (h.perform hp (fun pid addr he => hnew ⟨pid, addr, he⟩) s rfl hg hk)
  | sendSignal pid signum =>
    obtain ⟨k, hk, rfl⟩ := map_eq_some_iff.mp hdo
    exact hkernel k (h.sendSignal hg hk)
  | onAlarm p =>
    obtain ⟨k, hk, rfl⟩ := map_eq_some_iff.mp hdo
    exact hkernel k (h.onAlarm hg hk)
  | resumeBlockedProcs fuel events checks =>
    obtain rfl := some.inj hdo
    refine hkernel _ (h.resumeBlockedLoop events checks fuel fun c hc => ?_)
    exact (h.tidy.head .blocked c hc).1.1
  | cleanupProc p =>
    obtain rfl := some.inj hdo
    obtain ⟨htame, hkeep⟩ := cleanupProc_tame h hp.2
    refine ⟨htame, fun q hin hne he => ?_⟩
    obtain ⟨hq, hst⟩ := hkeep q hin fun hqp => hne (hqp ▸ rfl)
    exact ⟨hq, hst.trans he⟩

/-- Once a process has exited it stays so, and is not chosen to run, until it is cleaned up. -/
theorem exited_stays_exited {maxProcesses : ℕ} {mem : Proc → Process} {idle p : Proc} {k : Kernel}
    {s t : Table} {as bs : List Action} (hinit : initScheduler maxProcesses mem idle = some k)
    (hrun : Run (Guarded Lively Step) ⟨k, fun _ => 0, fun _ => true⟩ as s)
    (hp : p ∈ s.kernel.table) (hexited : s.kernel.state p = .exited)
    (hrest : Run (Guarded Lively Step) s bs t) (hkept : .cleanupProc p ∉ bs) :
    t.kernel.state p = .exited ∧ (schedule t.kernel).currentProc ≠ some p := by
  have hs : Tame s.kernel := hrun.preserves (I := fun s => Tame s.kernel)
    (initScheduler_tame hinit) fun _ _ _ h hstep => (step_tame h hstep).1
  obtain ⟨ht, hlast⟩ := hrest.invariant (I := fun bs t => Tame t.kernel ∧
      (.cleanupProc p ∉ bs → p ∈ t.kernel.table ∧ t.kernel.state p = .exited))
    ⟨hs, fun _ => ⟨hp, hexited⟩⟩ fun bs t b u ⟨ht, hkeep⟩ hstep => by
      obtain ⟨hu, hone⟩ := step_tame ht hstep
      refine ⟨hu, fun hno => ?_⟩
      rw [List.mem_append, not_or, List.mem_singleton] at hno
      obtain ⟨hin, he⟩ := hkeep hno.1
      exact hone p hin (Ne.symm hno.2) he
  obtain ⟨-, hst⟩ := hlast hkept
  refine ⟨hst, fun hcur => ?_⟩
  rw [Tame.schedule_currentProc, some.injEq] at hcur
  exact ht.chosen.2 (hcur ▸ hst)

instance (s : Table) (a : Action) : Decidable (Permitted s a) := by
  cases a <;> unfold Permitted <;> infer_instance

def advance (guard : Table → Action → Bool) (s : Table) (a : Action) : Option Table :=
  if guard s a ∧ Permitted s a then perform s a else none

lemma advance_step {guard : Table → Action → Bool} {s t : Table} {a : Action}
    (h : advance guard s a = some t) : guard s a = true ∧ Step s a t := by
  unfold advance at h
  split_ifs at h with hc
  exact ⟨hc.1, hc.2, h⟩

def caught : SignalData := ⟨0, 0, 0, fun i => if i = 9 then ⟨4096, 0⟩ else ⟨0, 0⟩⟩

def exitWithHandler : List Action :=
  [.op (.newProc 1 100), .op (.newProc 0 200), .op (.configure 200 caught 1 0), .op .schedule,
    .op (.exitProc 200 0)]

theorem signal_revives_exited : (∃ k s t, initScheduler 8 blankMemory 50 = some k ∧
      Run Step ⟨k, fun _ => 0, fun _ => true⟩ exitWithHandler s ∧ s.kernel.state 200 = .exited ∧
      Step s (.sendSignal 3 10) t ∧ t.kernel.state 200 = .running) ∧
    ∃ k s, initScheduler 8 blankMemory 50 = some k ∧
      Run Step ⟨k, fun _ => 0, fun _ => true⟩ [.op (.newProc 1 100), .sendSignal 2 9] s ∧
      s.kernel.state 50 = .exited ∧ (schedule s.kernel).currentProc = some 50 := by
  have hstep : ∀ s a t, advance (fun _ _ => true) s a = some t → Step s a t :=
    fun s a t h => (advance_step h).2
  refine ⟨(exists_run_from hstep (p := fun _ s => s.kernel.state 200 = .exited ∧
      ∃ t ∈ advance (fun _ _ => true) s (.sendSignal 3 10), t.kernel.state 200 = .running)
    (by decide +kernel)).imp fun k ⟨s, hk, hrun, hexited, t, hlast, ht⟩ =>
      ⟨s, t, hk, hrun, hexited, hstep _ _ _ hlast, ht⟩, exists_run_from hstep (by decide +kernel)⟩

def unconditional : Action → Bool
  | .op (.resumeProcWithoutRestart _) => false
  | .op (.exitProc p _) => p = 200
  | .op (.dispatchSignal _ _) => false
  | .op _ => true
  | .resumeBlockedProcs _ _ _ => true
  | _ => false

theorem exited_stays_exited_resume : ∃ k s t, initScheduler 8 blankMemory 50 = some k ∧
    Run (Guarded Lively Step) ⟨k, fun _ => 0, fun _ => true⟩ exitWithHandler s ∧
    Run (Guarded Lively Step) s [.op (.resumeProc 200), .op .schedule] t ∧
    t.kernel.state 200 = .exited ∧ (schedule t.kernel).currentProc ≠ some 200 := by
  have hstep : ∀ s a t, advance (fun s a => unconditional a && decide (s.kernel.idleProc = 50)) s a =
      some t → Guarded Lively Step s a t := by
    intro s a t h
    obtain ⟨hg, hs⟩ := advance_step h
    rw [Bool.and_eq_true, decide_eq_true_eq] at hg
    refine ⟨?_, hs⟩
    cases a with
    | op o => cases o with
      | exitProc p status =>
        have hp : p = 200 := by simpa [unconditional] using hg.1
        show p ≠ s.kernel.idleProc
        rw [hp, hg.2]
        decide
      | resumeProcWithoutRestart p => simp [unconditional] at hg
      | dispatchSignal p signum => simp [unconditional] at hg
      | _ => trivial
    | resumeBlockedProcs fuel events checks => trivial
    | _ => simp [unconditional] at hg
  obtain ⟨k, s, hk, hrun, hin, hexited, hrest⟩ : ∃ k s, initScheduler 8 blankMemory 50 = some k ∧
      Run (Guarded Lively Step) ⟨k, fun _ => 0, fun _ => true⟩ exitWithHandler s ∧
      200 ∈ s.kernel.table ∧ s.kernel.state 200 = .exited ∧
      ∃ t ∈ execute (advance fun s a => unconditional a && decide (s.kernel.idleProc = 50)) s
        [.op (.resumeProc 200), .op .schedule], True := exists_run_from hstep (by decide +kernel)
  obtain ⟨t, hrest, -⟩ := exists_run hstep hrest
  exact ⟨k, s, t, hk, hrun, hrest, exited_stays_exited hk hrun hin hexited hrest (by simp)⟩

end Gloworm.ExitedProcess
