import Gloworm.SchedulerModel

/-! Agreement between process states and queue contents, and the operations on one
process that keep it. -/
namespace Gloworm.Scheduler
open Function Queue LinkedSegments

structure Consistent (s : Kernel) (xs : QueueId → List Proc) : Prop where
  holds : Holds s.queues xs
  run : ∀ p, p ∈ xs .run ↔ p ∈ s.table ∧ p ≠ s.idleProc ∧ (s.state p).isRunning
  blocked : ∀ p, p ∈ xs .blocked ↔ p ∈ s.table ∧ s.state p = .blocked
  idle : s.idleProc ∈ s.table
  current : ∀ c, s.currentProc = some c → c ∈ s.table

structure Frame (s s' : Kernel) (p : Proc) : Prop where
  processList : s'.processList = s.processList
  idleProc : s'.idleProc = s.idleProc
  currentProc : s'.currentProc = s.currentProc
  state : ∀ q, q ≠ p → s'.state q = s.state q

lemma Frame.refl (s : Kernel) (p : Proc) : Frame s s p := ⟨rfl, rfl, rfl, fun _ _ => rfl⟩

lemma Frame.trans {s s' s'' : Kernel} {p : Proc} (a : Frame s s' p) (b : Frame s' s'' p) :
    Frame s s'' p :=
  ⟨b.processList.trans a.processList, b.idleProc.trans a.idleProc,
    b.currentProc.trans a.currentProc, fun q hq => (b.state q hq).trans (a.state q hq)⟩

lemma Frame.table {s s' : Kernel} {p : Proc} (a : Frame s s' p) : s'.table = s.table := by
  rw [Kernel.table, a.processList, Kernel.table]

@[simp] lemma state_modify (s : Kernel) (p q : Proc) (f : Process → Process) :
    (s.modify p f).state q = if q = p then (f (s.procs p)).state else s.state q := by
  by_cases h : q = p
  · simp [Kernel.modify, Kernel.state, h]
  · simp [Kernel.modify, Kernel.state, h]

lemma state_modify_same (s : Kernel) (p q : Proc) {f : Process → Process}
    (hf : ∀ x, (f x).state = x.state) : (s.modify p f).state q = s.state q := by
  rw [state_modify]
  split_ifs with hq
  · rw [hf, hq]
    rfl
  · rfl

@[simp] lemma state_setState (s : Kernel) (p q : Proc) (st : ProcState) :
    (s.setState p st).state q = if q = p then st else s.state q := by
  rw [Kernel.setState, state_modify]

lemma frame_modify (s : Kernel) (p : Proc) (f : Process → Process) : Frame s (s.modify p f) p :=
  ⟨rfl, rfl, rfl, fun q hq => by simp [hq]⟩

lemma frame_setState (s : Kernel) (p : Proc) (st : ProcState) : Frame s (s.setState p st) p :=
  frame_modify s p _

namespace Consistent
variable {s s' : Kernel} {xs ys : QueueId → List Proc} {p : Proc}

lemma move (h : Consistent s xs) (hf : Frame s s' p) (hp : p ∈ s.table) (hq : Holds s'.queues ys)
    (hrun : p ∈ ys .run ↔ p ≠ s.idleProc ∧ (s'.state p).isRunning)
    (hblk : p ∈ ys .blocked ↔ s'.state p = .blocked)
    (hother : ∀ k q, q ≠ p → (q ∈ ys k ↔ q ∈ xs k)) : Consistent s' ys := by
  have ht := hf.table
  refine ⟨hq, ?_, ?_, ?_, ?_⟩
  · intro q
    rw [ht, hf.idleProc]
    by_cases hqp : q = p
    · subst hqp
      simp [hrun, hp]
    · rw [hother .run q hqp, hf.state q hqp]
      exact h.run q
  · intro q
    rw [ht]
    by_cases hqp : q = p
    · subst hqp
      simp [hblk, hp]
    · rw [hother .blocked q hqp, hf.state q hqp]
      exact h.blocked q
  · rw [ht, hf.idleProc]
    exact h.idle
  · intro c hc
    rw [ht]
    exact h.current c (hf.currentProc ▸ hc)

section
variable (h : Consistent s xs)
include h

lemma keep (hf : Frame s s' p) (hp : p ∈ s.table) (hq : s'.queues = s.queues)
    (hrun : p ≠ s.idleProc → ((s'.state p).isRunning ↔ (s.state p).isRunning))
    (hblk : s'.state p = .blocked ↔ s.state p = .blocked) : Consistent s' xs := by
  refine h.move hf hp (hq ▸ h.holds) ?_ ?_ (fun _ _ _ => Iff.rfl)
  · rw [h.run p]
    constructor
    · exact fun hx => ⟨hx.2.1, (hrun hx.2.1).mpr hx.2.2⟩
    · exact fun hx => ⟨hp, hx.1, (hrun hx.1).mp hx.2⟩
  · rw [h.blocked p, hblk]
    simp [hp]

lemma not_run_of_state (hst : ¬ (s.state p).isRunning) : p ∉ xs .run :=
  fun hin => hst ((h.run p).mp hin).2.2

lemma not_blocked_of_state (hst : s.state p ≠ .blocked) :
    p ∉ xs .blocked := fun hin => hst ((h.blocked p).mp hin).2

lemma not_queued (hrun : p = s.idleProc ∨ ¬ (s.state p).isRunning) (hblk : s.state p ≠ .blocked) :
    ∀ k, p ∉ xs k := by
  intro k
  cases k with
  | run =>
    intro hin
    have := (h.run p).mp hin
    tauto
  | blocked => exact h.not_blocked_of_state hblk

lemma run_nil (hhead : s.queues.head .run = none) : xs .run = [] := by
  have := h.holds.head .run
  rw [hhead] at this
  exact List.head?_eq_none_iff.mp this.symm

lemma remove_run (hp : p ∈ s.table) (hblk : s.state p ≠ .blocked)
    (hok : (p ≠ s.idleProc ∧ (s.state p).isRunning) ∨ s.queues.head .run = none) :
    Holds (queueRemove s.queues .run p) (update xs .run ((xs .run).erase p)) := by
  by_cases hin : p ∈ xs .run
  · exact h.holds.remove hin
  · have hnil : xs .run = [] := by
      rcases hok with hok | hok
      · exact absurd ((h.run p).mpr ⟨hp, hok⟩) hin
      · exact h.run_nil hok
    have hfree : ∀ k, p ∉ xs k := by
      intro k
      cases k with
      | run => exact hin
      | blocked => exact h.not_blocked_of_state hblk
    rw [h.holds.remove_free hfree hnil, hnil, List.erase_nil, ← hnil, update_eq_self]
    exact h.holds

lemma mem_erase (k : QueueId) (q : Proc) :
    q ∈ (xs k).erase p ↔ q ≠ p ∧ q ∈ xs k := (h.holds.nodup k).mem_erase_iff
end
section
variable (h : Consistent s xs) (hf : Frame s s' p) (hp : p ∈ s.table)
include h hf hp

lemma leave {k : QueueId} (hk : Holds s'.queues (update xs k ((xs k).erase p)))
    (hout : ∀ k', k' ≠ k → p ∉ xs k') (hst : s'.state p = .stopped ∨ s'.state p = .exited) :
    Consistent s' (update xs k ((xs k).erase p)) := by
  have hgone : ∀ k', p ∉ update xs k ((xs k).erase p) k' := by
    intro k'
    by_cases hkk : k' = k
    · subst hkk
      rw [update_self, h.mem_erase]
      tauto
    · rw [update_of_ne hkk]
      exact hout k' hkk
  refine h.move hf hp hk ?_ ?_ ?_
  · refine iff_of_false (hgone .run) ?_
    rcases hst with hst | hst <;> simp [hst, ProcState.isRunning]
  · refine iff_of_false (hgone .blocked) ?_
    rcases hst with hst | hst <;> simp [hst]
  · intro k' q hqp
    by_cases hkk : k' = k
    · subst hkk
      rw [update_self, h.mem_erase]
      tauto
    · rw [update_of_ne hkk]

lemma leave_run (hq : s'.queues = queueRemove s.queues .run p) (hblk : s.state p ≠ .blocked)
    (hok : (p ≠ s.idleProc ∧ (s.state p).isRunning) ∨ s.queues.head .run = none)
    (hst : s'.state p = .stopped ∨ s'.state p = .exited) : ∃ ys, Consistent s' ys := by
  refine ⟨_, h.leave hf hp (hq ▸ h.remove_run hp hblk hok) ?_ hst⟩
  intro k' hkk
  cases k' with
  | run => exact absurd rfl hkk
  | blocked => exact h.not_blocked_of_state hblk

lemma leave_blocked (hq : s'.queues = queueRemove s.queues .blocked p) (hblk : s.state p = .blocked)
    (hst : s'.state p = .stopped ∨ s'.state p = .exited) : ∃ ys, Consistent s' ys := by
  have hin : p ∈ xs .blocked := (h.blocked p).mpr ⟨hp, hblk⟩
  refine ⟨_, h.leave hf hp (hq ▸ h.holds.remove hin) ?_ hst⟩
  intro k' hkk
  cases k' with
  | run => exact h.not_run_of_state (by simp [hblk, ProcState.isRunning])
  | blocked => exact absurd rfl hkk
end

lemma frame_suspendProc (s : Kernel) (p : Proc) (flags : ℕ) : Frame s (suspendProc s p flags) p := by
  unfold suspendProc
  split_ifs
  · exact .refl s p
  · refine ⟨rfl, rfl, rfl, fun q hq => ?_⟩
    simp [Kernel.state, Kernel.modify, Kernel.setState, Kernel.remove, Kernel.insert, hq]

lemma fresh_erase (h : Consistent s xs) (hblk : p ∉ xs .blocked) (k : QueueId) :
    p ∉ update xs .run ((xs .run).erase p) k := by
  cases k with
  | run =>
    rw [update_self, h.mem_erase]
    tauto
  | blocked =>
    rw [update_of_ne (by simp)]
    exact hblk

lemma suspendProc_spec (h : Consistent s xs) (hp : p ∈ s.table) (flags : ℕ)
    (hg : p = s.idleProc → s.state p = .running → s.queues.head .run = none) :
    ∃ ys, Consistent (suspendProc s p flags) ys := by
  have hf := frame_suspendProc s p flags
  by_cases hst : s.state p = .running
  · have hblk : s.state p ≠ .blocked := by simp [hst]
    have hok : (p ≠ s.idleProc ∧ (s.state p).isRunning) ∨ s.queues.head .run = none := by
      by_cases hid : p = s.idleProc
      · exact .inr (hg hid hst)
      · exact .inl ⟨hid, .inl hst⟩
    have hrem := h.remove_run hp hblk hok
    have hfresh := h.fresh_erase (h.not_blocked_of_state hblk)
    have hins := hrem.insert (k := .blocked) hfresh
    have hstate : (suspendProc s p flags).state p = .blocked := by
      rw [suspendProc, if_neg (not_not.mpr hst)]
      simp [Kernel.modify, Kernel.setState, Kernel.state]
    have hqueues : (suspendProc s p flags).queues =
        queueInsert (queueRemove s.queues .run p) .blocked p := by
      rw [suspendProc, if_neg (not_not.mpr hst)]
      rfl
    refine ⟨_, h.move hf hp (hqueues ▸ hins) ?_ ?_ ?_⟩
    · refine iff_of_false ?_ (by simp [hstate, ProcState.isRunning])
      rw [update_of_ne (by simp)]
      exact hfresh .run
    · simp [hstate]
    · intro k q hqp
      cases k with
      | run =>
        rw [update_of_ne (by simp), update_self, h.mem_erase]
        tauto
      | blocked =>
        rw [update_self, List.mem_cons, update_of_ne (by simp)]
        tauto
  · refine ⟨xs, ?_⟩
    rw [suspendProc, if_pos hst]
    exact h

lemma frame_resumeProc (s : Kernel) (p : Proc) : Frame s (resumeProc s p) p := by
  unfold resumeProc
  split_ifs
  · exact .refl s p
  · refine ⟨rfl, rfl, rfl, fun q hq => ?_⟩
    simp [Kernel.state, Kernel.modify, Kernel.setState, Kernel.remove, Kernel.insert, hq]
  · refine ⟨rfl, rfl, rfl, fun q hq => ?_⟩
    simp [Kernel.state, Kernel.modify, Kernel.setState, Kernel.insert, hq]

lemma state_resumeProc (s : Kernel) (p : Proc) : (resumeProc s p).state p =
    if (s.state p).isRunning ∨ s.state p = .exited then s.state p else .resuming := by
  unfold resumeProc
  split_ifs
  · rfl
  · simp [Kernel.state, Kernel.modify, Kernel.setState]
  · simp [Kernel.state, Kernel.modify, Kernel.setState]

lemma queues_resumeProc
    (hst : ¬ ((s.state p).isRunning ∨ s.state p = .exited)) : (resumeProc s p).queues =
      queueInsert (if s.state p = .blocked then queueRemove s.queues .blocked p else s.queues)
        .run p := by
  rw [resumeProc, if_neg hst]
  split_ifs <;> rfl

lemma resumeProc_spec (h : Consistent s xs) (hp : p ∈ s.table)
    (hg : p = s.idleProc → s.state p ≠ .blocked ∧ s.state p ≠ .stopped) :
    ∃ ys, Consistent (resumeProc s p) ys := by
  have hf := frame_resumeProc s p
  have hstate := state_resumeProc s p
  by_cases hst : (s.state p).isRunning ∨ s.state p = .exited
  · refine ⟨xs, ?_⟩
    rw [resumeProc, if_pos hst]
    exact h
  · have hid : p ≠ s.idleProc := by
      intro hid
      have hg' := hg hid
      cases hs : s.state p <;> simp_all [ProcState.isRunning]
    rw [if_neg hst] at hstate
    obtain ⟨hnr, _⟩ := not_or.mp hst
    have hnrun : p ∉ xs .run := h.not_run_of_state hnr
    obtain ⟨zs, hz, hzp, hzo⟩ : ∃ zs : QueueId → List Proc,
        Holds (if s.state p = .blocked then queueRemove s.queues .blocked p else s.queues) zs ∧
        (∀ k, p ∉ zs k) ∧ ∀ k q, q ≠ p → (q ∈ zs k ↔ q ∈ xs k) := by
      by_cases hblk : s.state p = .blocked
      · rw [if_pos hblk]
        refine ⟨_, h.holds.remove ((h.blocked p).mpr ⟨hp, hblk⟩), ?_, ?_⟩
        · intro k
          cases k with
          | run =>
            rw [update_of_ne (by simp)]
            exact hnrun
          | blocked =>
            rw [update_self, h.mem_erase]
            tauto
        · intro k q hqp
          cases k with
          | run => rw [update_of_ne (by simp)]
          | blocked =>
            rw [update_self, h.mem_erase]
            tauto
      · rw [if_neg hblk]
        exact ⟨xs, h.holds, h.not_queued (.inr hnr) hblk, fun _ _ _ => Iff.rfl⟩
    have hins := hz.insert (k := .run) hzp
    rw [← queues_resumeProc hst] at hins
    refine ⟨_, h.move hf hp hins ?_ ?_ ?_⟩
    · simp [hstate, hid, ProcState.isRunning]
    · refine iff_of_false ?_ (by simp [hstate])
      rw [update_of_ne (by simp)]
      exact hzp .blocked
    · intro k q hqp
      cases k with
      | run =>
        rw [update_self, List.mem_cons, hzo .run q hqp]
        tauto
      | blocked =>
        rw [update_of_ne (by simp)]
        exact hzo .blocked q hqp

lemma frame_stopProc (s : Kernel) (p : Proc) : Frame s (stopProc s p) p := by
  unfold stopProc
  split_ifs
  · exact .refl s p
  all_goals
    refine ⟨rfl, rfl, rfl, fun q hq => ?_⟩
    simp [Kernel.state, Kernel.modify, Kernel.setState, Kernel.remove, hq]

lemma state_stopProc (s : Kernel) (p : Proc) :
    (stopProc s p).state p = .stopped ∨ (stopProc s p).state p = .exited := by
  unfold stopProc
  split_ifs with h1
  · exact h1.symm
  all_goals simp [Kernel.state, Kernel.modify, Kernel.setState]

lemma stopProc_spec (h : Consistent s xs) (hp : p ∈ s.table)
    (hg : p = s.idleProc → (s.state p).isRunning → s.queues.head .run = none) :
    ∃ ys, Consistent (stopProc s p) ys := by
  have hf := frame_stopProc s p
  have hstate := state_stopProc s p
  by_cases hout : s.state p = .exited ∨ s.state p = .stopped
  · refine ⟨xs, ?_⟩
    rw [stopProc, if_pos hout]
    exact h
  by_cases hrun : (s.state p).isRunning
  · have hblk : s.state p ≠ .blocked := by
      rintro hblk
      simp [hblk, ProcState.isRunning] at hrun
    have hq : (stopProc s p).queues = queueRemove s.queues .run p := by
      rw [stopProc, if_neg hout, if_pos hrun]
      rfl
    refine h.leave_run hf hp hq hblk ?_ hstate
    by_cases hid : p = s.idleProc
    · exact .inr (hg hid hrun)
    · exact .inl ⟨hid, hrun⟩
  · have hblk : s.state p = .blocked := by
      cases hs : s.state p <;> simp_all [ProcState.isRunning]
    have hq : (stopProc s p).queues = queueRemove s.queues .blocked p := by
      rw [stopProc, if_neg hout, if_neg hrun, if_pos hblk]
      rfl
    exact h.leave_blocked hf hp hq hblk hstate
end Consistent
end Gloworm.Scheduler
