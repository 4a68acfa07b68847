import Gloworm.SchedulerExit

/-! Waking a process for a signal, default actions, and the choice of the next process. -/
namespace Gloworm.Scheduler
open Option Function Queue LinkedSegments
variable {s s' : Kernel} {p : Proc} {signum : ℕ}

lemma cancelSyscall_keeps {I : Kernel → Prop} (hs : I s)
    (hwake : s.state p = .blocked → I (resumeProc s p))
    (hrun : ∀ t, t.state p = .resuming → I t → I (t.setState p .running))
    (hmark : ∀ t (b : Process → ℕ) v, I t →
      I (t.modify p fun x => { x with bits := b x, returnValue := v })) :
    I (cancelSyscall s p) := by
  have hwoken : I (if s.state p = .blocked then resumeProc s p else s) := by
    split_ifs with hb
    · exact hwake hb
    · exact hs
  rw [cancelSyscall]
  generalize (if s.state p = .blocked then resumeProc s p else s) = t at hwoken ⊢
  refine hmark _ (fun x => clearBits x.bits pbBlockConditions ||| pbDontSetReturnVal) EINTR ?_
  split_ifs with hr
  · exact hrun t hr hwoken
  · exact hwoken

lemma rescheduleProcToNow_cases (h : rescheduleProcToNow s p = some s') : s' = s ∨
    ∃ c, s.currentProc = some c ∧ c ≠ p ∧ (s.state p).isRunning ∧ (s.state c).isRunning ∧ s' =
      { s with queues := queueInsertAfter (queueRemove s.queues .run p) .run p (some c) } := by
  unfold rescheduleProcToNow at h
  split_ifs at h with hstay
  · exact .inl (some.inj h).symm
  · obtain ⟨hne, hrun⟩ := not_or.mp hstay
    obtain ⟨c, hc, h⟩ := bind_eq_some_iff.mp h
    split_ifs at h with hcur
    · exact .inr ⟨c, hc, fun he => hne (he ▸ hc.symm), not_not.mp hrun, hcur, (some.inj h).symm⟩
    · exact .inl (some.inj h).symm

lemma runSignalHandler_cases (h : runSignalHandler s p signum = some s') :
    ∃ t, (t = s ∨ t = cancelSyscall s p) ∧ resumeProcWithoutRestart
      (t.modify p fun x => { x with signalPending := signum }) p = some s' := by
  unfold runSignalHandler at h
  split_ifs at h
  · exact ⟨_, .inr rfl, h⟩
  · exact ⟨_, .inl rfl, h⟩

lemma dispatchSignal_cases {ret : ℤ}
    (hrange : ¬ (signum = 0 ∨ 32 ≤ signum)) (h : dispatchSignal s p signum = some (ret, s')) :
    (signalToMap signum &&& (s.procs p).signals.ignored ≠ 0 ∧ s' = s) ∨
    (signalToMap signum &&& (s.procs p).signals.ignored = 0 ∧
      signalToMap signum &&& (s.procs p).signals.blocked ≠ 0 ∧
      s' = s.modify p fun x => { x with signals := { x.signals with
        pending := x.signals.pending ||| signalToMap signum } }) ∨
    (signalToMap signum &&& (s.procs p).signals.ignored = 0 ∧
      signalToMap signum &&& (s.procs p).signals.blocked = 0 ∧
      (((sigActionOf s p signum).handler ≠ 0 ∧ runSignalHandler s p signum = some s') ∨
        ((sigActionOf s p signum).handler = 0 ∧
          runSignalDefaultAction s p signum (signalToMap signum) = some s'))) := by
  rw [dispatchSignal, if_neg hrange] at h
  dsimp only at h
  by_cases hign : signalToMap signum &&& (s.procs p).signals.ignored ≠ 0
  · rw [if_pos hign, some.injEq, Prod.mk.injEq] at h
    exact .inl ⟨hign, h.2.symm⟩
  · rw [if_neg hign] at h
    refine .inr ?_
    by_cases hblk : signalToMap signum &&& (s.procs p).signals.blocked ≠ 0
    · rw [if_pos hblk, some.injEq, Prod.mk.injEq] at h
      exact .inl ⟨not_not.mp hign, hblk, h.2.symm⟩
    · rw [if_neg hblk] at h
      refine .inr ⟨not_not.mp hign, not_not.mp hblk, ?_⟩
      by_cases hcaught : (sigActionOf s p signum).handler ≠ 0
      · rw [if_pos hcaught] at h
        obtain ⟨u, hu, he⟩ := map_eq_some_iff.mp h
        exact .inl ⟨hcaught, (Prod.mk.inj he).2 ▸ hu⟩
      · rw [if_neg hcaught] at h
        obtain ⟨u, hu, he⟩ := map_eq_some_iff.mp h
        exact .inr ⟨not_not.mp hcaught, (Prod.mk.inj he).2 ▸ hu⟩

lemma frame_cancelSyscall (s : Kernel) (p : Proc) : Frame s (cancelSyscall s p) p := by
  refine cancelSyscall_keeps (I := fun t => Frame s t p) (.refl s p)
    (fun _ => Consistent.frame_resumeProc s p) ?_ ?_
  · exact fun t _ ht => ht.trans (frame_setState t p _)
  · exact fun t _ _ ht => ht.trans (frame_modify t p _)

lemma state_cancelSyscall (s : Kernel) (p : Proc) : (cancelSyscall s p).state p =
    if s.state p = .blocked ∨ s.state p = .resuming then .running else s.state p := by
  by_cases hb : s.state p = .blocked
  · have hr : (resumeProc s p).state p = .resuming := by
      rw [Consistent.state_resumeProc, if_neg (by simp [hb, ProcState.isRunning])]
    simp only [cancelSyscall, if_pos hb, if_pos hr, if_pos (Or.inl hb), state_modify, if_true]
    exact (state_setState _ p p .running).trans (if_pos rfl)
  · by_cases hr : s.state p = .resuming
    · simp only [cancelSyscall, if_neg hb, if_pos hr, if_pos (Or.inr hr), state_modify, if_true]
      exact (state_setState _ p p .running).trans (if_pos rfl)
    · simp only [cancelSyscall, if_neg hb, if_neg hr, if_neg (not_or.mpr ⟨hb, hr⟩), state_modify,
        if_true]
      rfl

/-- `p` has not exited, and the idle process is not put on a queue or rearranged around. -/
def WakeSafe (s : Kernel) (p : Proc) : Prop :=
  (p ≠ s.idleProc → s.state p ≠ .exited) ∧
  (p = s.idleProc → s.state p ≠ .blocked ∧ s.state p ≠ .stopped) ∧
  (some p = s.currentProc ∨ ∀ c ∈ s.currentProc, (s.state c).isRunning →
    p ≠ s.idleProc ∧ c ≠ s.idleProc)
deriving Decidable

lemma current_of_frame (hf : Frame s s' p) (h : some p = s.currentProc ∨
      ∀ c ∈ s.currentProc, (s.state c).isRunning → p ≠ s.idleProc ∧ c ≠ s.idleProc) :
    some p = s'.currentProc ∨
      ∀ c ∈ s'.currentProc, (s'.state c).isRunning → p ≠ s'.idleProc ∧ c ≠ s'.idleProc := by
  rw [hf.currentProc, hf.idleProc]
  by_cases hself : some p = s.currentProc
  · exact .inl hself
  · refine .inr fun c hc hrun => ?_
    rw [hf.state c fun he => hself (he ▸ hc.symm)] at hrun
    exact h.resolve_left hself c hc hrun

namespace Consistent
variable {xs : QueueId → List Proc}

section
variable (h : Consistent s xs) (hp : p ∈ s.table)
include h hp

lemma cancelSyscall_spec (hg : p = s.idleProc → s.state p ≠ .blocked) :
    ∃ ys, Consistent (cancelSyscall s p) ys := by
  refine (cancelSyscall_keeps (I := fun t => p ∈ t.table ∧ ∃ ys, Consistent t ys) ⟨hp, xs, h⟩
    (fun hb => ?_) ?_ ?_).2
  · exact ⟨(frame_resumeProc s p).table ▸ hp, h.resumeProc_spec hp fun hid => absurd hb (hg hid)⟩
  · rintro t hr ⟨hpt, ys, ht⟩
    refine ⟨hpt, ys, ht.keep (frame_setState t p _) hpt rfl (fun _ => ?_) ?_⟩
    · simp [hr, ProcState.isRunning]
    · simp [hr]
  · rintro t b v ⟨hpt, ys, ht⟩
    exact ⟨hpt, ys, ht.modify fun _ => rfl⟩

lemma rescheduleProcToNow_spec (hres : rescheduleProcToNow s p = some s')
    (hg : some p = s.currentProc ∨ ¬ (s.state p).isRunning ∨
      ∀ c ∈ s.currentProc, (s.state c).isRunning → p ≠ s.idleProc ∧ c ≠ s.idleProc) :
    ∃ ys, Consistent s' ys := by
  obtain rfl | ⟨c, hc, hne, hprun, hrun, rfl⟩ := rescheduleProcToNow_cases hres
  · exact ⟨xs, h⟩
  · have hidle : p ≠ s.idleProc ∧ c ≠ s.idleProc := by
      rcases hg with hg | hg | hg
      · exact absurd (some.inj (hg.trans hc)).symm hne
      · exact absurd hprun hg
      · exact hg c hc hrun
    have hpin : p ∈ xs .run := (h.run p).mpr ⟨hp, hidle.1, hprun⟩
    have hcin : c ∈ xs .run := (h.run c).mpr ⟨h.current c hc, hidle.2, hrun⟩
    have hrem := h.holds.remove hpin
    have hcer : c ∈ (xs .run).erase p := (h.mem_erase .run c).mpr ⟨hne, hcin⟩
    obtain ⟨l, r, hsplit⟩ := List.append_of_mem hcer
    have hfresh := h.fresh_erase fun hin =>
      QueueId.noConfusion (h.holds.disjoint .run .blocked p hpin hin)
    have hins := hrem.insertAfter (k := .run) (x := p) (a := c) (l := l) (r := r)
      (by rw [update_self, hsplit]) hfresh
    refine ⟨_, h.move ⟨rfl, rfl, rfl, fun _ _ => rfl⟩ hp hins ?_ ?_ ?_⟩
    · refine iff_of_true ?_ ⟨hidle.1, hprun⟩
      simp
    · refine iff_of_false ?_ ?_
      · rw [update_of_ne (by simp)]
        exact hfresh .blocked
      · intro hb
        have hst : s.state p = .blocked := hb
        simp [hst, ProcState.isRunning] at hprun
    · intro k q hqp
      cases k with
      | run =>
        have hmem := h.mem_erase (p := p) .run q
        rw [hsplit] at hmem
        rw [update_self]
        simp only [List.mem_append, List.mem_cons] at hmem ⊢
        tauto
      | blocked => rw [update_of_ne (by simp), update_of_ne (by simp)]

lemma resumeProcWithoutRestart_spec (hres : resumeProcWithoutRestart s p = some s')
    (hg : WakeSafe s p) : ∃ ys, Consistent s' ys := by
  obtain ⟨halive, hidle, hcur⟩ := hg
  obtain ⟨ys, h1⟩ := h.resumeProc_spec hp hidle
  have hf := frame_resumeProc s p
  have hst := state_resumeProc s p
  have hpt : p ∈ (resumeProc s p).table := hf.table ▸ hp
  have h2 : Consistent ((resumeProc s p).setState p .running) ys := by
    refine h1.keep (frame_setState _ p _) hpt rfl (fun hne => ?_) ?_
    · rw [hf.idleProc] at hne
      rw [state_setState, if_pos rfl, hst]
      have := halive hne
      split_ifs with hc
      · rcases hc with hc | hc
        · exact iff_of_true (.inl rfl) hc
        · exact absurd hc this
      · simp [ProcState.isRunning]
    · rw [state_setState, if_pos rfl, hst]
      by_cases hc : (s.state p).isRunning ∨ s.state p = .exited
      · rw [if_pos hc]
        rcases hc with hc | hc
        · rcases hc with hc | hc <;> simp [hc]
        · simp [hc]
      · simp [hc]
  have hf2 := hf.trans (frame_setState _ p .running)
  refine h2.rescheduleProcToNow_spec (hf2.table ▸ hp) hres ?_
  exact (current_of_frame hf2 hcur).imp_right .inr

lemma runSignalHandler_spec (hres : runSignalHandler s p signum = some s')
    (hg : WakeSafe s p) : ∃ ys, Consistent s' ys := by
  obtain ⟨halive, hidle, hcur⟩ := hg
  obtain ⟨t, hcase, hrun⟩ := runSignalHandler_cases hres
  obtain ⟨ys, ht, hf, hstate⟩ : ∃ ys, Consistent t ys ∧ Frame s t p ∧
      (t.state p = s.state p ∨ t.state p = .running) := by
    rcases hcase with rfl | rfl
    · exact ⟨xs, h, .refl _ p, .inl rfl⟩
    · obtain ⟨ys, hcan⟩ := h.cancelSyscall_spec hp fun hid => (hidle hid).1
      refine ⟨ys, hcan, frame_cancelSyscall s p, ?_⟩
      rw [state_cancelSyscall]
      split_ifs
      · exact .inr rfl
      · exact .inl rfl
  have hf2 := hf.trans (frame_modify t p fun x => { x with signalPending := signum })
  have hst2 := state_modify_same t p p (f := fun x => { x with signalPending := signum }) fun _ => rfl
  have h2 : Consistent (t.modify p fun x => { x with signalPending := signum }) ys :=
    ht.modify fun _ => rfl
  refine h2.resumeProcWithoutRestart_spec (hf2.table ▸ hp) hrun
    ⟨?_, ?_, current_of_frame hf2 hcur⟩
  all_goals
    rw [hst2, hf2.idleProc]
    rcases hstate with hs | hs
    · rw [hs]
      assumption
    · simp [hs]
end
end Consistent

def TerminateSafe (s : Kernel) (p : Proc) : Prop :=
  (s.state p ≠ .exited → ExitSafe s p) ∧
  (s.state p = .exited → s.Waits s.idleProc →
    getProc s (s.procs p).parent ≠ some s.idleProc)
deriving Decidable

def StopSafe (s : Kernel) (p : Proc) : Prop :=
  p = s.idleProc → (s.state p).isRunning → s.queues.head .run = none
deriving Decidable

def ResumeSafe (s : Kernel) (p : Proc) : Prop :=
  p = s.idleProc → s.state p ≠ .blocked ∧ s.state p ≠ .stopped
deriving Decidable

def CancelSafe (s : Kernel) (p : Proc) : Prop := p = s.idleProc → s.state p ≠ .blocked
deriving Decidable

def DefaultSafe (s : Kernel) (p : Proc) (signum : ℕ) : Prop :=
  if signalToMap signum &&& sigMaskDefaultTerminate ≠ 0 then TerminateSafe s p
  else if signalToMap signum &&& sigMaskDefaultStop ≠ 0 then StopSafe s p
  else if signum = sigcont then ResumeSafe s p
  else (sigActionOf s p signum).flags &&& saRestart = 0 → CancelSafe s p
deriving Decidable

def SignalSafe (s : Kernel) (p : Proc) (signum : ℕ) : Prop :=
  if signum = 0 ∨ 32 ≤ signum then True
  else if signalToMap signum &&& (s.procs p).signals.ignored ≠ 0 then True
  else if signalToMap signum &&& (s.procs p).signals.blocked ≠ 0 then True
  else if (sigActionOf s p signum).handler ≠ 0 then WakeSafe s p
  else DefaultSafe s p signum
deriving Decidable

namespace Consistent
variable {xs : QueueId → List Proc}

section
variable (h : Consistent s xs) (hp : p ∈ s.table)
include h hp

lemma terminate_spec {t : Kernel} (hexit : exitProc s p (-1) = some t)
    (hwake : resumeWaitingParent t p = some s') (hg : TerminateSafe s p) :
    (∃ ys, Consistent s' ys) ∧ s'.table = s.table ∧ s'.idleProc = s.idleProc ∧
      s'.state p = .exited := by
  by_cases hst : s.state p = .exited
  · rw [exitProc, if_pos hst, some.injEq] at hexit
    subst hexit
    obtain ⟨h1, h2, _, h4, _⟩ := h.resumeWaitingParent_spec hwake
      fun hget hw => hg.2 hst hw hget
    exact ⟨h1, h2.table, h2.idleProc, (h4 p (by simp [Kernel.Waits, hst])).trans hst⟩
  · have hsafe := hg.1 hst
    obtain ⟨⟨ys, hc⟩, hids, hgone, hidle, hparent⟩ := h.exitProc_spec hp hst hsafe hexit
    obtain ⟨h1, h2, _, h4, _⟩ := hc.resumeWaitingParent_spec hwake (by
      rw [hids.idleProc, hids.getProc, hparent]
      intro hget hw
      obtain ⟨hne, hws⟩ := waits_closed (hids.bits _) hidle hw
      apply hsafe.2 hne hws
      simp [exitWakes, hget])
    exact ⟨h1, h2.table.trans hids.table, h2.idleProc.trans hids.idleProc,
      (h4 p (by simp [Kernel.Waits, hgone])).trans hgone⟩

lemma signalDefaultEffect_spec
    (hres : signalDefaultEffect s p signum (signalToMap signum) = some s')
    (hg : DefaultSafe s p signum) : (∃ ys, Consistent s' ys) ∧ s'.table = s.table ∧
      ((sigActionOf s' p signum).flags &&& saRestart = 0 → CancelSafe s' p) := by
  unfold DefaultSafe at hg
  unfold signalDefaultEffect at hres
  split_ifs at hg hres with h1 h2 h3
  · obtain ⟨u, hexit, hwake⟩ := bind_eq_some_iff.mp hres
    obtain ⟨hc, htab, hid, hgone⟩ := h.terminate_spec hp hexit hwake hg
    exact ⟨hc, htab, fun _ _ => by simp [hgone]⟩
  · rw [some.injEq] at hres
    subst hres
    refine ⟨h.stopProc_spec hp hg, (frame_stopProc s p).table, fun _ _ => ?_⟩
    rcases state_stopProc s p with hst | hst <;> simp [hst]
  · rw [some.injEq] at hres
    subst hres
    refine ⟨h.resumeProc_spec hp hg, (frame_resumeProc s p).table, fun _ _ => ?_⟩
    rw [state_resumeProc]
    split_ifs with hc
    · rcases hc with hc | hc
      · rcases hc with hc | hc <;> simp [hc]
      · simp [hc]
    · simp
  · rw [some.injEq] at hres
    subst hres
    exact ⟨⟨xs, h⟩, rfl, hg⟩

lemma runSignalDefaultAction_spec
    (hres : runSignalDefaultAction s p signum (signalToMap signum) = some s')
    (hg : DefaultSafe s p signum) : ∃ ys, Consistent s' ys := by
  obtain ⟨t, ht, hlast⟩ := map_eq_some_iff.mp hres
  obtain ⟨⟨ys, hc⟩, htab, hcancel⟩ := h.signalDefaultEffect_spec hp ht hg
  rw [← hlast]
  split_ifs with hflag
  · exact hc.cancelSyscall_spec (htab ▸ hp) (hcancel hflag)
  · exact ⟨ys, hc⟩

lemma dispatchSignal_spec {ret : ℤ} (hres : dispatchSignal s p signum = some (ret, s'))
    (hg : SignalSafe s p signum) : ∃ ys, Consistent s' ys := by
  unfold dispatchSignal at hres
  unfold SignalSafe at hg
  simp only at hres
  split_ifs at hres hg with h1 h2 h3 h4
  · simp only [some.injEq, Prod.mk.injEq] at hres
    exact ⟨xs, hres.2 ▸ h⟩
  · simp only [some.injEq, Prod.mk.injEq] at hres
    exact ⟨xs, hres.2 ▸ h⟩
  · simp only [some.injEq, Prod.mk.injEq] at hres
    obtain ⟨_, rfl⟩ := hres
    exact ⟨xs, h.modify fun _ => rfl⟩
  · obtain ⟨t, ht, heq⟩ := map_eq_some_iff.mp hres
    rw [Prod.mk.injEq] at heq
    exact heq.2 ▸ h.runSignalHandler_spec hp ht hg
  · obtain ⟨t, ht, heq⟩ := map_eq_some_iff.mp hres
    rw [Prod.mk.injEq] at heq
    exact heq.2 ▸ h.runSignalDefaultAction_spec hp ht hg
end
end Consistent
end Gloworm.Scheduler
