import Gloworm.SchedulerSignals

/-! Creating processes, choosing the next one, and the agreement of queues and states
over whole histories. -/
namespace Gloworm.Scheduler
open List Option Function Queue LinkedSegments Transition

namespace Consistent
variable {s : Kernel} {xs : QueueId → List Proc} {p : Proc}

section
variable {n : Proc} (h : Consistent s xs)
include h

lemma head_mem (hn : s.queues.head .run = some n) : n ∈ s.table := by
  rw [h.holds.head .run] at hn
  exact ((h.run n).mp (List.mem_of_mem_head? hn)).1

lemma nextNode_mem (hn : nextNode s = some n) : n ∈ s.table := by
  unfold nextNode at hn
  cases hc : s.currentProc with
  | none =>
    rw [hc] at hn
    exact h.head_mem hn
  | some c =>
    simp only [hc] at hn
    split_ifs at hn with hrun
    · cases hx : s.queues.next c with
      | none =>
        rw [hx] at hn
        exact h.head_mem hn
      | some m =>
        simp only [hx, some.injEq] at hn
        subst hn
        by_cases hin : c ∈ xs .run
        · exact ((h.run m).mp (h.holds.next_mem hin hx)).1
        · have hb : s.state c ≠ .blocked := by
            intro hb
            simp [hb, ProcState.isRunning] at hrun
          have hfree : ∀ k, c ∉ xs k := by
            intro k
            cases k with
            | run => exact hin
            | blocked => exact h.not_blocked_of_state hb
          rw [(h.holds.free c hfree).1] at hx
          simp at hx
    · exact h.head_mem hn

lemma restartCurrentSyscall_spec (p : Proc) : Consistent (restartCurrentSyscall s p) xs := by
  unfold restartCurrentSyscall
  split_ifs
  · refine h.same rfl rfl rfl rfl fun q => ?_
    by_cases hq : q = p
    · simp [Kernel.state, Kernel.modify, hq]
    · simp [Kernel.state, Kernel.modify, hq]
  · exact h

lemma schedule_spec : Consistent (schedule s) xs := by
  have hnext : (nextNode s).getD s.idleProc ∈ s.table := by
    cases hn : nextNode s with
    | none => exact h.idle
    | some n => exact h.nextNode_mem hn
  rw [schedule]
  generalize (nextNode s).getD s.idleProc = n at hnext
  have hcur : Consistent { s with needReschedule := false, currentProc := some n } xs := by
    refine ⟨h.holds, h.run, h.blocked, h.idle, fun c hc => ?_⟩
    simp only [some.injEq] at hc
    exact hc ▸ hnext
  by_cases hres : ({ s with needReschedule := false, currentProc := some n } : Kernel).state n =
      .resuming
  · rw [if_pos hres]
    apply restartCurrentSyscall_spec
    refine hcur.keep (frame_setState _ n _) hnext rfl (fun _ => ?_) ?_
    · simp [hres, ProcState.isRunning]
    · simp [hres]
  · rw [if_neg hres]
    exact hcur
end
end Consistent

variable {xs : QueueId → List Proc} {list : List (Option Proc)} {slot : ℕ}

lemma nextSlotnum_free {fuel next : ℕ} {once : Bool} {r : ℕ}
    (h : nextSlotnum list fuel slot once = some (some r, next)) : list[r]? = some none := by
  induction fuel generalizing slot once with
  | zero => simp [nextSlotnum] at h
  | succ fuel ih =>
    rw [nextSlotnum] at h
    obtain ⟨entry, hentry, h⟩ := bind_eq_some_iff.mp h
    split_ifs at h with h1 h2 h3
    · simp only [some.injEq, Prod.mk.injEq] at h
      rw [← h.1, hentry]
      simpa using h1
    · simp at h
    · exact ih h
    · exact ih h

variable {s : Kernel}

lemma mem_table {q : Proc} : q ∈ s.table ↔ some q ∈ s.processList := by
  simp [Kernel.table, mem_filterMap]

lemma mem_set_free {p : Proc} (h : list[slot]? = some none) (q : Proc) :
    some q ∈ list.set slot (some p) ↔ q = p ∨ some q ∈ list := by
  induction list generalizing slot with
  | nil => simp at h
  | cons e list ih =>
    cases slot with
    | zero =>
      simp only [List.getElem?_cons_zero, some.injEq] at h
      subst h
      simp
    | succ slot =>
      simp only [List.getElem?_cons_succ] at h
      have := ih h
      simp only [set_cons_succ, mem_cons, this]
      tauto

variable {addr : Proc} {r : Option Proc}

lemma newProc_cases {s' : Kernel} {pid : ℤ} (h : newProc s pid addr = some (r, s')) :
    ∃ t : Kernel, t.queues = s.queues ∧ t.procs = s.procs ∧ t.processList = s.processList ∧
      t.idleProc = s.idleProc ∧ t.currentProc = s.currentProc ∧
      ((r = none ∧ s' = t) ∨ (r = some addr ∧ ∃ slot pid', s.processList[slot]? = some none ∧
        s' = fillSlot t slot pid' addr)) := by
  have hpid : ∃ n, (takePid s pid).2 = { s with nextPid := n } := by
    unfold takePid
    split_ifs
    · exact ⟨_, rfl⟩
    · exact ⟨s.nextPid, rfl⟩
  obtain ⟨n, hn⟩ := hpid
  simp only [newProc, hn] at h
  split_ifs at h with hfull
  · simp only [some.injEq, Prod.mk.injEq] at h
    exact ⟨s', by simp [← h.2], by simp [← h.2], by simp [← h.2], by simp [← h.2],
      by simp [← h.2], .inl ⟨h.1.symm, rfl⟩⟩
  · cases hslot : nextSlotnum s.processList (2 * s.processList.length + 3) s.nextProcessSlot
        false with
    | none => simp [hslot] at h
    | some res =>
      obtain ⟨slot, next⟩ := res
      cases slot with
      | none =>
        simp only [hslot, some.injEq, Prod.mk.injEq] at h
        exact ⟨s', by simp [← h.2], by simp [← h.2], by simp [← h.2], by simp [← h.2],
          by simp [← h.2], .inl ⟨h.1.symm, rfl⟩⟩
      | some slot =>
        simp only [hslot, some.injEq, Prod.mk.injEq] at h
        exact ⟨{ s with nextPid := n, nextProcessSlot := next }, rfl, rfl, rfl, rfl, rfl,
          .inr ⟨h.1.symm, slot, _, nextSlotnum_free hslot, h.2.symm⟩⟩

lemma table_fillSlot (pid : ℤ) (h : s.processList[slot]? = some none) (q : Proc) :
    q ∈ (fillSlot s slot pid addr).table ↔ q = addr ∨ q ∈ s.table := by
  rw [mem_table, mem_table]
  exact mem_set_free h q

lemma state_fillSlot (s : Kernel) (slot : ℕ) (pid : ℤ) (addr q : Proc) :
    (fillSlot s slot pid addr).state q = if q = addr then .running else s.state q := by
  by_cases hq : q = addr
  · simp [fillSlot, insertProc, Kernel.insert, Kernel.state, hq, newProcess]
  · simp [fillSlot, insertProc, Kernel.insert, Kernel.state, hq]

lemma queues_fillSlot (slot : ℕ) (pid : ℤ)
    (hn : s.queues.next addr = none) (hp : s.queues.prev addr = none) :
    (fillSlot s slot pid addr).queues = queueInsert s.queues .run addr := by
  have hsame : ({ s.queues with
      next := update s.queues.next addr none
      prev := update s.queues.prev addr none } : Pool QueueId Proc) = s.queues := by
    rw [← hn, update_eq_self, hn, ← hp, update_eq_self]
  rw [← hsame]
  rfl

lemma holds_fillSlot (h : Holds s.queues xs) (slot : ℕ) (pid : ℤ) (hfree : ∀ k, addr ∉ xs k) :
    Holds (fillSlot s slot pid addr).queues (update xs .run (addr :: xs .run)) := by
  obtain ⟨hn, hp⟩ := h.free addr hfree
  rw [queues_fillSlot slot pid hn hp]
  exact h.insert hfree

namespace Consistent
variable {s' : Kernel}

lemma newProc_spec (h : Consistent s xs) {pid : ℤ}
    (hres : newProc s pid addr = some (r, s')) (hfresh : addr ∉ s.table) :
    ∃ ys, Consistent s' ys := by
  obtain ⟨t, hq, hpr, hl, hi, hc, hcase⟩ := newProc_cases hres
  have ht : Consistent t xs := h.same hq hl hi hc fun q => by rw [Kernel.state, hpr, Kernel.state]
  rcases hcase with ⟨_, rfl⟩ | ⟨_, slot, pid', hslot, rfl⟩
  · exact ⟨xs, ht⟩
  · rw [← hl] at hslot
    have hnot : addr ∉ t.table := by
      rw [Kernel.table, hl]
      exact hfresh
    have hfree : ∀ k, addr ∉ xs k := by
      intro k
      cases k with
      | run => exact fun hin => hnot ((ht.run addr).mp hin).1
      | blocked => exact fun hin => hnot ((ht.blocked addr).mp hin).1
    have hidle : addr ≠ t.idleProc := fun he => hnot (he ▸ ht.idle)
    have hmem : ∀ q, q ∈ (fillSlot t slot pid' addr).table ↔ q = addr ∨ q ∈ t.table :=
      table_fillSlot pid' hslot
    have hst := state_fillSlot t slot pid' addr
    refine ⟨_, holds_fillSlot ht.holds slot pid' hfree, ?_, ?_, ?_, ?_⟩
    · intro q
      rw [update_self, mem_cons, hmem, hst, ht.run q]
      by_cases hqa : q = addr
      · subst hqa
        exact iff_of_true (.inl rfl) ⟨.inl rfl, hidle, by simp [ProcState.isRunning]⟩
      · rw [if_neg hqa]
        simp only [hqa, false_or]
        rfl
    · intro q
      rw [update_of_ne (by simp), hmem, hst, ht.blocked q]
      by_cases hqa : q = addr
      · subst hqa
        simp [hnot]
      · simp [hqa]
    · exact (hmem _).mpr (.inr ht.idle)
    · exact fun c hcur => (hmem c).mpr (.inr (ht.current c hcur))
end Consistent

lemma initScheduler_spec {maxProcesses : ℕ} {mem : Proc → Process} {idle : Proc}
    (h : initScheduler maxProcesses mem idle = some s) : Consistent s fun _ => [] := by
  obtain ⟨⟨r, t⟩, hnew, h⟩ := bind_eq_some_iff.mp h
  obtain ⟨u, hq, hpr, hl, hi, hc, hcase⟩ := newProc_cases hnew
  rcases hcase with ⟨rfl, rfl⟩ | ⟨rfl, slot, pid, hslot, rfl⟩
  · simp at h
  · simp only [some.injEq] at h
    rw [← hl] at hslot
    have hempty : Holds u.queues fun _ => [] := by
      rw [hq]
      exact holds_init
    have hins := holds_fillSlot hempty slot pid (fun _ => not_mem_nil (a := idle))
    have hrem := hins.remove (k := .run) (x := idle) (by simp)
    have hnil : update (update (fun _ => []) QueueId.run [idle]) QueueId.run
        ((update (fun _ => ([] : List Proc)) QueueId.run [idle] QueueId.run).erase idle) =
        fun _ => [] := by
      funext k
      cases k <;> simp
    rw [hnil] at hrem
    have hmem : ∀ q, q ∈ (fillSlot u slot pid idle).table ↔ q = idle := by
      intro q
      have hnone : q ∉ u.table := by
        rw [mem_table, hl]
        simp
      rw [table_fillSlot pid hslot]
      tauto
    have hst := state_fillSlot u slot pid idle idle
    rw [if_pos rfl] at hst
    subst h
    refine ⟨hrem, ?_, ?_, (hmem idle).mpr rfl, ?_⟩
    · intro q
      refine iff_of_false (by simp) ?_
      rintro ⟨hin, hne, _⟩
      exact hne ((hmem q).mp hin)
    · intro q
      refine iff_of_false (by simp) ?_
      rintro ⟨hin, hb⟩
      rw [(hmem q).mp hin] at hb
      exact ProcState.noConfusion (hst.symm.trans hb)
    · intro c hcur
      have : u.currentProc = some c := hcur
      rw [hc] at this
      simp at this

def Orderly (s : Kernel) : Op → Prop
  | .newProc _ _ => True
  | .suspendProc p _ => p = s.idleProc → s.state p = .running → s.queues.head .run = none
  | .suspendSyscall p _ _ _ _ =>
    p = s.idleProc → s.state p = .running → s.queues.head .run = none
  | .resumeProc p => ResumeSafe s p
  | .resumeProcWithoutRestart p => WakeSafe s p
  | .stopProc p => StopSafe s p
  | .exitProc p _ => s.state p ≠ .exited → ExitSafe s p
  | .cancelSyscall p => CancelSafe s p
  | .dispatchSignal p signum => SignalSafe s p signum
  | .rescheduleProcToNow p => some p = s.currentProc ∨ ¬ (s.state p).isRunning ∨
      ∀ c ∈ s.currentProc, (s.state c).isRunning → p ≠ s.idleProc ∧ c ≠ s.idleProc
  | .schedule => True
  | .configure _ _ _ _ => True

instance (s : Kernel) (op : Op) : Decidable (Permitted s op) := by
  cases op <;> unfold Permitted <;> infer_instance

instance (s : Kernel) (op : Op) : Decidable (Orderly s op) := by
  cases op <;> unfold Orderly <;> infer_instance

lemma Consistent.step {t : Kernel} {op : Op} (h : Consistent s xs)
    (hstep : Guarded Orderly Step s op t) : ∃ ys, Consistent t ys := by
  obtain ⟨hg, hp, hdo⟩ := hstep
  cases op with
  | newProc pid addr =>
    obtain ⟨⟨r, t'⟩, hnew, rfl⟩ := map_eq_some_iff.mp hdo
    exact h.newProc_spec hnew hp
  | suspendProc p flags =>
    obtain rfl := some.inj hdo
    exact h.suspendProc_spec hp flags hg
  | suspendSyscall p flags events check call =>
    obtain rfl := some.inj hdo
    obtain ⟨ys, hs⟩ := h.suspendProc_spec hp (pbSyscall ||| flags) hg
    refine ⟨ys, hs.same rfl rfl rfl rfl fun q => ?_⟩
    by_cases hq : q = p
    · rw [hq, suspendSyscall, state_modify, if_pos rfl]
      rfl
    · rw [suspendSyscall, state_modify, if_neg hq]
  | resumeProc p =>
    obtain rfl := some.inj hdo
    exact h.resumeProc_spec hp hg
  | resumeProcWithoutRestart p => exact h.resumeProcWithoutRestart_spec hp hdo hg
  | stopProc p =>
    obtain rfl := some.inj hdo
    exact h.stopProc_spec hp hg
  | exitProc p status =>
    by_cases hst : s.state p = .exited
    · simp only [perform, exitProc, if_pos hst, some.injEq] at hdo
      exact ⟨xs, hdo ▸ h⟩
    · exact (h.exitProc_spec hp hst (hg hst) hdo).1
  | cancelSyscall p =>
    obtain rfl := some.inj hdo
    exact h.cancelSyscall_spec hp hg
  | dispatchSignal p signum =>
    obtain ⟨⟨ret, t'⟩, hsig, rfl⟩ := map_eq_some_iff.mp hdo
    exact h.dispatchSignal_spec hp hsig hg
  | rescheduleProcToNow p => exact h.rescheduleProcToNow_spec hp hdo hg
  | schedule =>
    obtain rfl := some.inj hdo
    exact ⟨xs, h.schedule_spec⟩
  | configure p signals parent bits =>
    obtain rfl := some.inj hdo
    exact ⟨xs, h.modify fun _ => rfl⟩

structure WellLinked (q : Pool QueueId Proc) (k : QueueId) (xs : List Proc) : Prop where
  nodup : xs.Nodup
  head : q.head k = xs.head?
  tail : q.tail k = xs.getLast?
  linked : Seg q.next q.prev none xs none

/-- The queues hold the runnable processes but the idle one and the blocked ones, each once. -/
def Agreement (s : Kernel) : Prop :=
  ∃ run blocked, WellLinked s.queues .run run ∧ WellLinked s.queues .blocked blocked ∧
    (∀ p, p ∈ run ↔ p ∈ s.table ∧ p ≠ s.idleProc ∧ (s.state p).isRunning) ∧
    (∀ p, p ∈ blocked ↔ p ∈ s.table ∧ s.state p = .blocked) ∧
    ∀ p, s.state p = .stopped ∨ s.state p = .exited → p ∉ run ∧ p ∉ blocked

lemma Consistent.agreement (h : Consistent s xs) : Agreement s := by
  have hlink : ∀ k, WellLinked s.queues k (xs k) := fun k =>
    ⟨h.holds.nodup k, h.holds.head k, h.holds.tail k, h.holds.linked k⟩
  refine ⟨xs .run, xs .blocked, hlink .run, hlink .blocked, h.run, h.blocked, ?_⟩
  intro p hst
  constructor
  · apply h.not_run_of_state
    rcases hst with hst | hst <;> simp [hst, ProcState.isRunning]
  · apply h.not_blocked_of_state
    rcases hst with hst | hst <;> simp [hst]

def advance (guard : Kernel → Op → Bool) (s : Kernel) (op : Op) : Option Kernel :=
  if guard s op ∧ Permitted s op then perform s op else none

lemma advance_step {guard : Kernel → Op → Bool} {t : Kernel} {op : Op}
    (h : advance guard s op = some t) : guard s op = true ∧ Step s op t := by
  unfold advance at h
  split_ifs at h with hc
  exact ⟨hc.1, hc.2, h⟩

/-- In every history of orderly operations the queues agree with the process states. -/
theorem scheduler_agreement {maxProcesses : ℕ} {mem : Proc → Process} {idle : Proc}
    {s t : Kernel} {ops : List Op} (hinit : initScheduler maxProcesses mem idle = some s)
    (hrun : Run (Guarded Orderly Step) s ops t) : Agreement t := by
  obtain ⟨xs, h⟩ := hrun.preserves (I := fun s => ∃ xs, Consistent s xs)
    ⟨_, initScheduler_spec hinit⟩ (fun _ _ _ ⟨_, h⟩ hstep => h.step hstep)
  exact h.agreement

def stopAndKill : List Op :=
  [.newProc 1 100, .newProc 0 200, .newProc 0 300, .schedule, .dispatchSignal 300 19,
    .dispatchSignal 300 9]

def blankMemory : Proc → Process := fun _ => newProcess 0

/-- A stopped process that is killed is taken off a queue it is not on. -/
theorem kill_stopped_empties_run_queue : ∃ s t, initScheduler 8 blankMemory 50 = some s ∧
    Run Step s stopAndKill t ∧ ¬ Agreement t := by
  obtain ⟨s, t, hs, hrun, hnone, hbad⟩ : ∃ s t, initScheduler 8 blankMemory 50 = some s ∧
      Run Step s stopAndKill t ∧ t.queues.head .run = none ∧ 100 ∈ t.table ∧ 100 ≠ t.idleProc ∧
        (t.state 100).isRunning :=
    exists_run_from (f := advance fun _ _ => true) (fun s e t h => (advance_step h).2)
      (by decide +kernel)
  refine ⟨s, t, hs, hrun, ?_⟩
  rintro ⟨run, _, hrunq, _, hmem, _⟩
  have hin := (hmem 100).mpr hbad
  have hnil := hrunq.head
  rw [hnone] at hnil
  rw [List.head?_eq_none_iff.mp hnil.symm] at hin
  simp at hin

theorem scheduler_agreement_stop_continue : ∃ s t, initScheduler 8 blankMemory 50 = some s ∧
    Run (Guarded Orderly Step) s [.newProc 1 100, .newProc 0 200, .newProc 0 300, .schedule,
      .dispatchSignal 300 19, .dispatchSignal 300 18, .dispatchSignal 300 9] t ∧ Agreement t := by
  exact (exists_run_from (p := fun _ _ => True) (guarded_of_advance fun _ _ _ _ => advance_step)
    (by decide +kernel)).imp fun s ⟨t, hs, hrun, _⟩ => ⟨t, hs, hrun, scheduler_agreement hs hrun⟩

end Gloworm.Scheduler
