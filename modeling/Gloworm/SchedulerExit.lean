import Gloworm.SchedulerMoves

/-! Ending a process: its children pass to process 1 and a waiting parent is woken. -/
namespace Gloworm.Scheduler
open Option Queue LinkedSegments

structure SameIds (s s' : Kernel) : Prop where
  processList : s'.processList = s.processList
  idleProc : s'.idleProc = s.idleProc
  currentProc : s'.currentProc = s.currentProc
  pid : ∀ q, (s'.procs q).pid = (s.procs q).pid
  bits : ∀ q, (s'.procs q).bits = (s.procs q).bits

lemma SameIds.refl (s : Kernel) : SameIds s s :=
  ⟨rfl, rfl, rfl, fun _ => rfl, fun _ => rfl⟩

variable {s s' : Kernel} {status : ℤ}

lemma SameIds.trans {s'' : Kernel} (a : SameIds s s') (b : SameIds s' s'') : SameIds s s'' :=
  ⟨b.processList.trans a.processList, b.idleProc.trans a.idleProc,
    b.currentProc.trans a.currentProc, fun q => (b.pid q).trans (a.pid q),
    fun q => (b.bits q).trans (a.bits q)⟩

lemma SameIds.table (a : SameIds s s') : s'.table = s.table := by
  rw [Kernel.table, a.processList, Kernel.table]

lemma SameIds.getProc (a : SameIds s s') (pid : ℤ) : getProc s' pid = getProc s pid := by
  simp only [Scheduler.getProc, a.table, a.pid]

variable {p : Proc}

lemma getProc_mem {pid : ℤ} (h : getProc s pid = some p) :
    p ∈ s.table := List.mem_of_find?_eq_some h

lemma sameIds_resumeProc (s : Kernel) (p : Proc) : SameIds s (resumeProc s p) ∧
    ∀ q, ((resumeProc s p).procs q).parent = (s.procs q).parent := by
  unfold resumeProc
  split_ifs
  · exact ⟨.refl s, fun _ => rfl⟩
  all_goals
    refine ⟨⟨rfl, rfl, rfl, fun q => ?_, fun q => ?_⟩, fun q => ?_⟩
    all_goals
      by_cases hq : q = p
      · simp [Kernel.modify, Kernel.setState, Kernel.insert, Kernel.remove, hq]
      · simp [Kernel.modify, Kernel.setState, Kernel.insert, Kernel.remove, hq]

def Kernel.Waits (s : Kernel) (p : Proc) : Prop :=
  s.state p = .blocked ∧ (s.procs p).bits &&& pbWaiting ≠ 0
deriving Decidable

namespace Consistent
variable {xs : QueueId → List Proc}

lemma same (h : Consistent s xs) (hq : s'.queues = s.queues)
    (hl : s'.processList = s.processList) (hi : s'.idleProc = s.idleProc)
    (hc : s'.currentProc = s.currentProc) (hst : ∀ q, s'.state q = s.state q) :
    Consistent s' xs := by
  have hf : Frame s s' s.idleProc := ⟨hl, hi, hc, fun q _ => hst q⟩
  exact h.keep hf h.idle hq (fun hne => absurd rfl hne) (by rw [hst])

lemma modify (h : Consistent s xs) {f : Process → Process} (hf : ∀ x, (f x).state = x.state) :
    Consistent (s.modify p f) xs := by
  exact h.same rfl rfl rfl rfl fun q => state_modify_same s p q hf

lemma resumeWaitingParent_spec (h : Consistent s xs) (hres : resumeWaitingParent s p = some s')
    (hg : getProc s (s.procs p).parent = some s.idleProc → ¬ s.Waits s.idleProc) :
    (∃ ys, Consistent s' ys) ∧ SameIds s s' ∧ (∀ q, (s'.procs q).parent = (s.procs q).parent) ∧
      (∀ q, ¬ s.Waits q → s'.state q = s.state q) ∧ s'.state s.idleProc = s.state s.idleProc := by
  obtain ⟨parent, hparent, hres⟩ := bind_eq_some_iff.mp hres
  by_cases hw : s.state parent = .blocked ∧ (s.procs parent).bits &&& pbWaiting ≠ 0
  · rw [if_pos hw, some.injEq] at hres
    subst hres
    have hne : parent ≠ s.idleProc := by
      rintro rfl
      exact hg hparent hw
    have hf := frame_resumeProc s parent
    refine ⟨h.resumeProc_spec (getProc_mem hparent) (fun he => absurd he hne),
      (sameIds_resumeProc s parent).1, (sameIds_resumeProc s parent).2, ?_,
      hf.state _ (Ne.symm hne)⟩
    intro q hq
    apply hf.state q
    rintro rfl
    exact hq hw
  · rw [if_neg hw, some.injEq] at hres
    subst hres
    exact ⟨⟨xs, h⟩, .refl s, fun _ => rfl, fun _ _ => rfl, rfl⟩
end Consistent

def adopted (s : Kernel) (p q : Proc) : ℤ :=
  if (s.procs q).parent = (s.procs p).pid then initPid else (s.procs q).parent

def exitWakes (s : Kernel) (p : Proc) : List Proc :=
  (if s.table.any fun q => (s.procs q).parent = (s.procs p).pid then
    ((getProc s 1).bind fun first => getProc s (adopted s p first)).toList else []) ++
  (getProc s (adopted s p p)).toList

/-- Only runnable processes leave the run queue, and the idle process is not woken. -/
def ExitSafe (s : Kernel) (p : Proc) : Prop :=
  (s.state p = .stopped ∨ (p = s.idleProc ∧ (s.state p).isRunning) →
    s.queues.head .run = none) ∧
  (p ≠ s.idleProc → s.Waits s.idleProc → s.idleProc ∉ exitWakes s p)
deriving Decidable

def detached (s : Kernel) (p : Proc) (status : ℤ) : Kernel :=
  (if s.state p = .blocked then s.remove .blocked p else s.remove .run p).modify p
    fun x => { x with state := .exited, exitcode := status }

def closed (s : Kernel) (p : Proc) (status : ℤ) : ℕ × Kernel := closeProc (detached s p status) p

lemma exitProc_eq (hst : s.state p ≠ .exited) : exitProc s p status =
      (if (closed s p status).1 ≠ 0 then
        (getProc (closed s p status).2 1).bind (resumeWaitingParent (closed s p status).2)
        else some (closed s p status).2).bind
      fun t => resumeWaitingParent { t with needReschedule := true } p := by
  rw [exitProc, if_neg hst]
  by_cases h0 : (closed s p status).1 = 0
  · simp only [closed, detached] at h0
    simp [closed, detached, h0]
  · simp only [closed, detached] at h0
    simp [closed, detached, h0, bind_assoc]

variable {I : Kernel → Prop}

lemma resumeWaitingParent_keeps (hwake : ∀ t q, q ∈ t.table → I t → I (resumeProc t q)) (hs : I s)
    (hres : resumeWaitingParent s p = some s') : I s' := by
  obtain ⟨parent, hparent, hres⟩ := bind_eq_some_iff.mp hres
  split_ifs at hres
  · exact some.inj hres ▸ hwake s parent (getProc_mem hparent) hs
  · exact some.inj hres ▸ hs

/-- What holds after the files are closed and survives each waking of a process holds at the end. -/
lemma exitProc_keeps (hwake : ∀ t q, q ∈ t.table → I t → I (resumeProc t q))
    (hflag : ∀ t, I t → I { t with needReschedule := true }) (hs : s.state p = .exited → I s)
    (hclosed : I (closed s p status).2) (hres : exitProc s p status = some s') : I s' := by
  by_cases hst : s.state p = .exited
  · rw [exitProc, if_pos hst, some.injEq] at hres
    exact hres ▸ hs hst
  · rw [exitProc_eq hst] at hres
    obtain ⟨t, ht, hres⟩ := bind_eq_some_iff.mp hres
    refine resumeWaitingParent_keeps hwake (hflag t ?_) hres
    split_ifs at ht
    · obtain ⟨first, -, hfirst⟩ := bind_eq_some_iff.mp ht
      exact resumeWaitingParent_keeps hwake hclosed hfirst
    · exact some.inj ht ▸ hclosed

section
variable (s : Kernel) (p : Proc) (status : ℤ)

lemma detached_eq : (detached s p status).procs =
      Function.update s.procs p { s.procs p with state := .exited, exitcode := status } ∧
    (detached s p status).processList = s.processList ∧
    (detached s p status).idleProc = s.idleProc ∧
    (detached s p status).currentProc = s.currentProc := by
  unfold detached
  split_ifs <;> exact ⟨rfl, rfl, rfl, rfl⟩

lemma procs_detached (q : Proc) : ((detached s p status).procs q).pid = (s.procs q).pid ∧
    ((detached s p status).procs q).bits = (s.procs q).bits ∧
    ((detached s p status).procs q).parent = (s.procs q).parent ∧
    (detached s p status).state q = if q = p then .exited else s.state q := by
  rw [Kernel.state, (detached_eq s p status).1]
  by_cases hq : q = p
  · subst hq
    simp
  · simp [hq, Kernel.state]

lemma frame_detached :
    Frame s (detached s p status) p ∧ (detached s p status).state p = .exited := by
  obtain ⟨_, hl, hi, hc⟩ := detached_eq s p status
  have hstate := fun q => (procs_detached s p status q).2.2.2
  exact ⟨⟨hl, hi, hc, fun q hq => by rw [hstate, if_neg hq]⟩, by rw [hstate, if_pos rfl]⟩

lemma table_detached : (detached s p status).table = s.table := by
  rw [Kernel.table, (detached_eq s p status).2.1, Kernel.table]

lemma procs_closed (q : Proc) : ((closed s p status).2.procs q).pid = (s.procs q).pid ∧
    ((closed s p status).2.procs q).bits = (s.procs q).bits ∧
    (q ∈ s.table → ((closed s p status).2.procs q).parent = adopted s p q) ∧
    (closed s p status).2.state q = if q = p then .exited else s.state q := by
  obtain ⟨h1, h2, h3, h4⟩ := procs_detached s p status q
  have hpid := (procs_detached s p status p).1
  have hq : (closed s p status).2.procs q =
      if q ∈ s.table ∧ (s.procs q).parent = (s.procs p).pid then
        { (detached s p status).procs q with parent := initPid }
      else (detached s p status).procs q := by
    simp only [closed, closeProc, table_detached, h3, hpid]
  rw [Kernel.state, hq, ← h4]
  split_ifs with hc
  · exact ⟨h1, h2, fun _ => by rw [adopted, if_pos hc.2], rfl⟩
  · refine ⟨h1, h2, fun hin => ?_, rfl⟩
    rw [adopted, if_neg (fun he => hc ⟨hin, he⟩), h3]

lemma sameIds_closed : SameIds s (closed s p status).2 :=
  ⟨(detached_eq s p status).2.1, (detached_eq s p status).2.2.1, (detached_eq s p status).2.2.2,
    fun q => (procs_closed s p status q).1, fun q => (procs_closed s p status q).2.1⟩

lemma orphans_closed :
    (closed s p status).1 ≠ 0 ↔ s.table.any (fun q => (s.procs q).parent = (s.procs p).pid) := by
  simp only [closed, closeProc, table_detached, (procs_detached s p status p).1,
    fun q => (procs_detached s p status q).2.2.1]
  rw [← Nat.pos_iff_ne_zero, List.countP_pos_iff, List.any_eq_true]
end
namespace Consistent
variable {xs : QueueId → List Proc}

section
variable (h : Consistent s xs) (hp : p ∈ s.table) (status : ℤ) (hst : s.state p ≠ .exited)
  (hsafe : ExitSafe s p)
include h hp hst hsafe

lemma detached_spec : ∃ ys, Consistent (detached s p status) ys := by
  obtain ⟨hf, hgone⟩ := frame_detached s p status
  by_cases hblk : s.state p = .blocked
  · refine h.leave_blocked hf hp ?_ hblk (.inr hgone)
    rw [detached, if_pos hblk]
    rfl
  · refine h.leave_run hf hp ?_ hblk ?_ (.inr hgone)
    · rw [detached, if_neg hblk]
      rfl
    · by_cases hrun : p ≠ s.idleProc ∧ (s.state p).isRunning
      · exact .inl hrun
      · right
        apply hsafe.1
        cases hs : s.state p <;> simp_all [ProcState.isRunning]

lemma closed_spec : ∃ ys, Consistent (closed s p status).2 ys := by
  obtain ⟨ys, hd⟩ := h.detached_spec hp status hst hsafe
  refine ⟨ys, hd.same rfl rfl rfl rfl fun q => ?_⟩
  rw [(procs_closed s p status q).2.2.2, (procs_detached s p status q).2.2.2]
end

lemma waits_closed {t : Kernel} (hbits : (t.procs s.idleProc).bits = (s.procs s.idleProc).bits)
    (hstate : t.state s.idleProc = (closed s p status).2.state s.idleProc) (hw : t.Waits s.idleProc) :
    p ≠ s.idleProc ∧ s.Waits s.idleProc := by
  obtain ⟨hw1, hw2⟩ := hw
  rw [hstate, (procs_closed s p status _).2.2.2] at hw1
  rw [hbits] at hw2
  split_ifs at hw1 with he
  exact ⟨Ne.symm he, hw1, hw2⟩

lemma exitProc_spec (h : Consistent s xs) (hp : p ∈ s.table) (hst : s.state p ≠ .exited)
    (hsafe : ExitSafe s p) (hres : exitProc s p status = some s') :
    (∃ ys, Consistent s' ys) ∧ SameIds s s' ∧ s'.state p = .exited ∧
      s'.state s.idleProc = (closed s p status).2.state s.idleProc ∧
      (s'.procs p).parent = adopted s p p := by
  obtain ⟨ys, hclosed⟩ := h.closed_spec hp status hst hsafe
  have hids := sameIds_closed s p status
  have hparent : ((closed s p status).2.procs p).parent = adopted s p p :=
    (procs_closed s p status p).2.2.1 hp
  have hgone : (closed s p status).2.state p = .exited := by
    rw [(procs_closed s p status p).2.2.2, if_pos rfl]
  rw [exitProc_eq hst] at hres
  obtain ⟨t, ht, hres⟩ := bind_eq_some_iff.mp hres
  obtain ⟨⟨zs, hcons⟩, htids, htparent, htgone, htidle⟩ : (∃ zs, Consistent t zs) ∧
      SameIds (closed s p status).2 t ∧
      (∀ q, (t.procs q).parent = ((closed s p status).2.procs q).parent) ∧
      t.state p = .exited ∧ t.state s.idleProc = (closed s p status).2.state s.idleProc := by
    split_ifs at ht with ho
    · obtain ⟨first, hfirst, hwake⟩ := bind_eq_some_iff.mp ht
      rw [hids.getProc] at hfirst
      have hfp := (procs_closed s p status first).2.2.1 (getProc_mem hfirst)
      obtain ⟨h1, h2, h3, h4, h5⟩ := hclosed.resumeWaitingParent_spec hwake (by
        rw [hids.getProc, hfp, hids.idleProc]
        intro hget hw
        obtain ⟨hne, hws⟩ := waits_closed (hids.bits _) rfl hw
        apply hsafe.2 hne hws
        rw [exitWakes, if_pos ((orphans_closed s p status).mp ho)]
        simp [hfirst, hget])
      rw [hids.idleProc] at h5
      exact ⟨h1, h2, h3, (h4 p (by simp [Kernel.Waits, hgone])).trans hgone, h5⟩
    · rw [some.injEq] at ht
      subst ht
      exact ⟨⟨ys, hclosed⟩, .refl _, fun _ => rfl, hgone, rfl⟩
  have hflag : Consistent { t with needReschedule := true } zs :=
    hcons.same rfl rfl rfl rfl fun _ => rfl
  have hall := hids.trans htids
  have hidle := hall.idleProc
  obtain ⟨h1, h2, h3, h4, h5⟩ := hflag.resumeWaitingParent_spec hres (by
    intro hget hw
    simp only [hidle] at hget hw
    obtain ⟨hne, hws⟩ := waits_closed (hall.bits _) htidle hw
    apply hsafe.2 hne hws
    have hg : getProc t (t.procs p).parent = some s.idleProc := hget
    rw [hall.getProc, htparent, hparent] at hg
    simp [exitWakes, hg])
  refine ⟨h1, hall.trans ⟨h2.processList, h2.idleProc, h2.currentProc, h2.pid, h2.bits⟩, ?_, ?_, ?_⟩
  · refine (h4 p ?_).trans htgone
    rintro ⟨hw, _⟩
    have : t.state p = .blocked := hw
    simp [htgone] at this
  · simp only [hidle] at h5
    exact h5.trans htidle
  · exact (h3 p).trans ((htparent p).trans hparent)
end Consistent

lemma resumeProc_exited (r : Proc) (k : Kernel) (q : Proc) (_ : q ∈ k.table)
    (hr : k.state r = .exited) : (resumeProc k q).state r = .exited := by
  by_cases he : r = q
  · subst he
    simp [Consistent.state_resumeProc, hr]
  · rw [(Consistent.frame_resumeProc k q).state r he, hr]

lemma exitProc_exited (h : exitProc s p status = some s') : s'.state p = .exited := by
  refine exitProc_keeps (I := fun k => k.state p = .exited) (resumeProc_exited p) (fun _ hu => hu)
    id ?_ h
  simp [(procs_closed s p status p).2.2.2]

structure Peopled (s : Kernel) : Prop where
  init : ∃ q, getProc s 1 = some q
  parent : ∀ q ∈ s.table, ∃ r, getProc s (s.procs q).parent = some r

namespace Peopled
variable {k : Kernel} {q : Proc}

lemma of_sameIds {k' : Kernel} (h : Peopled k) (hid : SameIds k k')
    (hpar : ∀ q ∈ k.table, (k'.procs q).parent = (k.procs q).parent ∨
      (k'.procs q).parent = initPid) : Peopled k' := by
  refine ⟨by rw [hid.getProc]; exact h.init, fun q hq => ?_⟩
  rw [hid.table] at hq
  rw [hid.getProc]
  rcases hpar q hq with he | he
  · exact he ▸ h.parent q hq
  · exact he ▸ h.init

lemma resumeWaitingParent (h : Peopled k) (hq : q ∈ k.table) :
    ∃ k', Scheduler.resumeWaitingParent k q = some k' ∧ Peopled k' ∧ k'.table = k.table := by
  obtain ⟨parent, hparent⟩ := h.parent q hq
  rw [Scheduler.resumeWaitingParent, hparent, bind_eq_bind, bind_some]
  split_ifs
  · obtain ⟨hid, hpar⟩ := sameIds_resumeProc k parent
    exact ⟨_, rfl, h.of_sameIds hid fun q _ => .inl (hpar q), hid.table⟩
  · exact ⟨k, rfl, h, rfl⟩

lemma closed (h : Peopled k) (q : Proc) (status : ℤ) : Peopled (Scheduler.closed k q status).2 := by
  apply h.of_sameIds (sameIds_closed k q status)
  intro r hr
  rw [(procs_closed k q status r).2.2.1 hr, adopted]
  split_ifs
  · exact .inr rfl
  · exact .inl rfl

lemma exitProc (h : Peopled k) (hq : q ∈ k.table) (status : ℤ) :
    ∃ k', Scheduler.exitProc k q status = some k' ∧ Peopled k' ∧ k'.table = k.table := by
  by_cases hst : k.state q = .exited
  · exact ⟨k, by rw [Scheduler.exitProc, if_pos hst], h, rfl⟩
  · have hclosed := h.closed q status
    have htable := (sameIds_closed k q status).table
    have hwake : ∃ v, (if (Scheduler.closed k q status).1 ≠ 0 then
        (getProc (Scheduler.closed k q status).2 1).bind
          (Scheduler.resumeWaitingParent (Scheduler.closed k q status).2)
        else some (Scheduler.closed k q status).2) = some v ∧ Peopled v ∧ v.table = k.table := by
      split_ifs
      · obtain ⟨first, hfirst⟩ := hclosed.init
        obtain ⟨v, hv, hpv, htv⟩ := hclosed.resumeWaitingParent (getProc_mem hfirst)
        exact ⟨v, by rw [hfirst, bind_some, hv], hpv, htv.trans htable⟩
      · exact ⟨_, rfl, hclosed, htable⟩
    obtain ⟨v, hv, hpv, htv⟩ := hwake
    have hpv' : Peopled { v with needReschedule := true } := ⟨hpv.init, hpv.parent⟩
    obtain ⟨k', hk', hpk, htk⟩ := hpv'.resumeWaitingParent (q := q)
      (show q ∈ v.table from htv ▸ hq)
    refine ⟨k', ?_, hpk, htk.trans htv⟩
    rw [exitProc_eq hst, hv, bind_some, hk']
end Peopled
end Gloworm.Scheduler
