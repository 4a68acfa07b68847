import Gloworm.SchedulerRuns

/-! The process table: `new_proc`, `exit_proc` and `cleanup_proc`. -/
namespace Gloworm.ProcessTable
open List Option Function Queue Transition Scheduler

structure Table where
  kernel : Kernel
  slotnum : Proc → ℕ
  automatic : Proc → Bool

namespace Table

def processList (s : Table) : List (Option Proc) := s.kernel.processList

def setKernel (s : Table) (k : Kernel) : Table := ⟨k, s.slotnum, s.automatic⟩
end Table

def newProc (s : Table) (pid : ℤ) (p : Proc) : Option (Option Proc × Table) :=
  (Scheduler.newProc s.kernel pid p).map fun r =>
    match r.1 with
    | none => (none, s.setKernel r.2)
    | some p => (some p, ⟨r.2, update s.slotnum p (r.2.nextProcessSlot - 1),
        update s.automatic p (decide (pid = 0))⟩)

def exitProc (s : Table) (p : Proc) (status : ℤ) : Option Table :=
  (Scheduler.exitProc s.kernel p status).map s.setKernel

def cleanupProc (s : Table) (p : Proc) : Table :=
  if s.processList[s.slotnum p]? = some (some p) then
    s.setKernel { s.kernel with
      processList := s.processList.set (s.slotnum p) none
      numProcesses := s.kernel.numProcesses - 1 }
  else s

inductive Call
  | newProc (pid : ℤ) (p : Proc)
  | exitProc (p : Proc) (status : ℤ)
  | cleanupProc (p : Proc)
  deriving DecidableEq

def perform (s : Table) : Call → Option Table
  | .newProc pid p => (newProc s pid p).map Prod.snd
  | .exitProc p status => exitProc s p status
  | .cleanupProc p => some (cleanupProc s p)

/-- `kzalloc` answers an address that is not in use; other calls are made on processes. -/
def Permitted (s : Table) : Call → Prop
  | .newProc _ p => p ∉ s.kernel.table
  | .exitProc p _ => p ∈ s.kernel.table
  | .cleanupProc p => p ∈ s.kernel.table

def Step (s : Table) (c : Call) (t : Table) : Prop := Permitted s c ∧ perform s c = some t

def initProc (maxProcesses : ℕ) (mem : Proc → Process) (idle : Proc) : Table :=
  ⟨⟨queueInit, mem, List.replicate maxProcesses none, 0, 2, 0, true, none, idle, ⟨0, []⟩⟩,
    fun _ => 0, fun _ => false⟩

/-- `next_pid` does not overflow, and the search meets a free slot, if there is one, before the end
of the array. -/
def Room (s : Table) : Call → Prop
  | .newProc pid _ => (pid = 0 → s.kernel.nextPid < 2 ^ 31 - 1) ∧
    (s.kernel.numProcesses < s.processList.length →
      ∃ i < 2 ^ 15, s.kernel.nextProcessSlot ≤ i ∧ s.processList[i]? = some none)
  | _ => True

structure Sound (s : Table) : Prop where
  count : s.kernel.numProcesses = s.kernel.table.length
  nodup : s.kernel.table.Nodup
  slot : ∀ p ∈ s.kernel.table, s.processList[s.slotnum p]? = some (some p)
  below : ∀ p ∈ s.kernel.table, s.automatic p = true → (s.kernel.procs p).pid < s.kernel.nextPid
  pids : ∀ p ∈ s.kernel.table, ∀ q ∈ s.kernel.table, s.automatic p = true →
    s.automatic q = true → (s.kernel.procs p).pid = (s.kernel.procs q).pid → p = q

structure SameTable (s s' : Kernel) : Prop where
  processList : s'.processList = s.processList
  numProcesses : s'.numProcesses = s.numProcesses
  nextPid : s'.nextPid = s.nextPid
  nextProcessSlot : s'.nextProcessSlot = s.nextProcessSlot
  pid : ∀ q, (s'.procs q).pid = (s.procs q).pid

lemma SameTable.refl (s : Kernel) : SameTable s s := ⟨rfl, rfl, rfl, rfl, fun _ => rfl⟩

lemma SameTable.trans {s s' s'' : Kernel} (a : SameTable s s') (b : SameTable s' s'') :
    SameTable s s'' :=
  ⟨b.processList.trans a.processList, b.numProcesses.trans a.numProcesses,
    b.nextPid.trans a.nextPid, b.nextProcessSlot.trans a.nextProcessSlot,
    fun q => (b.pid q).trans (a.pid q)⟩

lemma sameTable_resumeProc (s : Kernel) (p : Proc) : SameTable s (resumeProc s p) := by
  have hpid := (sameIds_resumeProc s p).1.pid
  refine ⟨(sameIds_resumeProc s p).1.processList, ?_, ?_, ?_, hpid⟩
  all_goals
    unfold resumeProc
    split_ifs <;> rfl

lemma sameTable_closed (s : Kernel) (p : Proc) (status : ℤ) :
    SameTable s (closed s p status).2 := by
  refine ⟨(sameIds_closed s p status).processList, ?_, ?_, ?_, (sameIds_closed s p status).pid⟩
  all_goals
    simp only [closed, closeProc, detached]
    split_ifs <;> rfl

variable {p : Proc}

lemma sameTable_exitProc {s s' : Kernel} {status : ℤ}
    (h : Scheduler.exitProc s p status = some s') : SameTable s s' := by
  refine exitProc_keeps (fun t q _ ht => ?_) (fun t ht => ?_) (fun _ => .refl s)
    (sameTable_closed s p status) h
  · exact ht.trans (sameTable_resumeProc t q)
  · exact ht.trans ⟨rfl, rfl, rfl, rfl, fun _ => rfl⟩

namespace Sound
variable {s : Table}

lemma same (h : Sound s) {k : Kernel} (hk : SameTable s.kernel k) : Sound (s.setKernel k) := by
  have ht : k.table = s.kernel.table := by rw [Kernel.table, hk.processList, Kernel.table]
  refine ⟨?_, ?_, ?_, ?_, ?_⟩
  · rw [Table.setKernel, hk.numProcesses, ht]
    exact h.count
  · rw [Table.setKernel, ht]
    exact h.nodup
  · intro p hp
    rw [Table.setKernel, ht] at hp
    simp only [Table.setKernel, Table.processList, hk.processList]
    exact h.slot p hp
  · intro p hp ha
    rw [Table.setKernel, ht] at hp
    simp only [Table.setKernel, hk.pid, hk.nextPid]
    exact h.below p hp ha
  · intro p hp q hq ha hb hpid
    simp only [Table.setKernel, ht] at hp hq
    simp only [Table.setKernel, hk.pid] at hpid
    exact h.pids p hp q hq ha hb hpid
end Sound

variable {list : List (Option Proc)} {i : ℕ}

lemma filterMap_set {e : Option Proc} (h : list[i]? = some e) (e' : Option Proc) :
    ∃ l r, list.filterMap id = l ++ e.toList ++ r ∧
      (list.set i e').filterMap id = l ++ e'.toList ++ r := by
  induction list generalizing i with
  | nil => simp at h
  | cons a list ih =>
    cases i with
    | zero =>
      simp only [List.getElem?_cons_zero, some.injEq] at h
      subst h
      refine ⟨[], list.filterMap id, ?_, ?_⟩
      · cases a <;> rfl
      · cases e' <;> rfl
    | succ i =>
      simp only [List.getElem?_cons_succ] at h
      obtain ⟨l, r, hl, hr⟩ := ih h
      cases a with
      | none => exact ⟨l, r, hl, hr⟩
      | some a =>
        refine ⟨a :: l, r, ?_, ?_⟩
        · simpa using hl
        · simpa using hr

lemma length_filterMap : (list.filterMap id).length = list.countP Option.isSome := by
  induction list with
  | nil => rfl
  | cons a list ih =>
    cases a with
    | none => simpa using ih
    | some p => simpa using ih

lemma full_iff :
    list.length ≤ (list.filterMap id).length ↔ ∀ i < list.length, list[i]? ≠ some none := by
  have hall : list.length ≤ list.countP Option.isSome ↔ ∀ e ∈ list, e.isSome := by
    rw [← countP_eq_length]
    exact ⟨fun h => le_antisymm countP_le_length h, fun h => h.ge⟩
  rw [length_filterMap, hall]
  constructor
  · intro h i _ hi
    simpa using h none (List.mem_of_getElem? hi)
  · intro h e he
    obtain ⟨i, hi⟩ := List.getElem?_of_mem he
    cases e with
    | some p => rfl
    | none => exact absurd hi (h i (List.getElem?_eq_some_iff.mp hi).1)

lemma nextSlotnum_first {fuel slot free : ℕ} (once : Bool)
    (hle : slot ≤ free) (hfree : list[free]? = some none) (hfuel : free < slot + fuel) :
    ∃ i ≤ free, list[i]? = some none ∧ nextSlotnum list fuel slot once = some (some i, i + 1) := by
  have hlen : free < list.length := (List.getElem?_eq_some_iff.mp hfree).1
  induction fuel generalizing slot with
  | zero => omega
  | succ fuel ih =>
    have hslot : list[slot]? = some list[slot] := List.getElem?_eq_getElem (by omega)
    rw [nextSlotnum, hslot]
    cases he : list[slot] with
    | none => exact ⟨slot, hle, by rw [hslot, he], by simp⟩
    | some p =>
      have hne : slot ≠ free := by
        rintro rfl
        rw [hslot, he] at hfree
        simp at hfree
      obtain ⟨i, hi, hnone, hrun⟩ := ih (by omega : slot + 1 ≤ free) (by omega)
      refine ⟨i, hi, hnone, ?_⟩
      have hin : ¬ list.length < slot + 1 := by omega
      simpa [hin] using hrun

def filled (s : Table) (pid : ℤ) (p : Proc) (i : ℕ) : Table :=
  ⟨fillSlot { (takePid s.kernel pid).2 with nextProcessSlot := i + 1 } i (takePid s.kernel pid).1 p,
    update s.slotnum p i, update s.automatic p (decide (pid = 0))⟩

lemma takePid_kernel (s : Kernel) (pid : ℤ) :
    (takePid s pid).2 = { s with nextPid := if pid = 0 then s.nextPid + 1 else s.nextPid } ∧
      (takePid s pid).1 = if pid = 0 then s.nextPid else pid := by
  unfold takePid
  split_ifs <;> exact ⟨rfl, rfl⟩

variable {s : Table}

lemma newProc_spec {pid : ℤ} (hroom : Room s (.newProc pid p)) :
    (s.processList.length ≤ s.kernel.numProcesses ∧
      newProc s pid p = some (none, s.setKernel (takePid s.kernel pid).2)) ∨
    (¬ s.processList.length ≤ s.kernel.numProcesses ∧ ∃ i, s.processList[i]? = some none ∧
      newProc s pid p = some (some p, filled s pid p i)) := by
  obtain ⟨hkernel, -⟩ := takePid_kernel s.kernel pid
  by_cases hfull : s.processList.length ≤ s.kernel.numProcesses
  · refine Or.inl ⟨hfull, ?_⟩
    have hfull' : (takePid s.kernel pid).2.processList.length ≤
        (takePid s.kernel pid).2.numProcesses := by
      rw [hkernel]
      exact hfull
    simp only [newProc, Scheduler.newProc, if_pos hfull', map_some]
  · obtain ⟨free, -, hle, hfree⟩ := hroom.2 (not_le.mp hfull)
    have hlen : free < s.processList.length := (List.getElem?_eq_some_iff.mp hfree).1
    obtain ⟨i, -, hi, hsearch⟩ : ∃ i ≤ free, s.processList[i]? = some none ∧
        nextSlotnum s.processList (2 * s.processList.length + 3) s.kernel.nextProcessSlot false =
          some (some i, i + 1) := nextSlotnum_first false hle hfree (by omega)
    refine Or.inr ⟨hfull, i, hi, ?_⟩
    have hfull' : ¬ (takePid s.kernel pid).2.processList.length ≤
        (takePid s.kernel pid).2.numProcesses := by
      rw [hkernel]
      exact hfull
    have hsearch' : nextSlotnum (takePid s.kernel pid).2.processList
        (2 * (takePid s.kernel pid).2.processList.length + 3)
        (takePid s.kernel pid).2.nextProcessSlot false = some (some i, i + 1) := by
      rw [hkernel]
      exact hsearch
    simp only [newProc, Scheduler.newProc, if_neg hfull', hsearch', map_some]
    rfl

lemma perm_filled (hi : s.processList[i]? = some none) (pid : ℤ) (p : Proc) :
    (filled s pid p i).kernel.table.Perm (p :: s.kernel.table) := by
  obtain ⟨l, r, hold, hnew⟩ := filterMap_set hi (some p)
  have htable : (filled s pid p i).kernel.table = l ++ [p] ++ r := by
    rw [filled, (takePid_kernel s.kernel pid).1]
    exact hnew
  have hbefore : s.kernel.table = l ++ r := by
    rw [toList_none, append_nil] at hold
    exact hold
  rw [htable, hbefore, append_assoc, singleton_append]
  exact perm_middle

lemma perm_cleanupProc (hslot : s.processList[s.slotnum p]? = some (some p)) :
    s.kernel.table.Perm (p :: (cleanupProc s p).kernel.table) := by
  obtain ⟨l, r, hold, hnew⟩ := filterMap_set hslot none
  have hbefore : s.kernel.table = l ++ [p] ++ r := hold
  have hafter : (cleanupProc s p).kernel.table = l ++ r := by
    rw [toList_none, append_nil] at hnew
    rw [cleanupProc, if_pos hslot]
    exact hnew
  rw [hafter, hbefore, append_assoc, singleton_append]
  exact perm_middle

namespace Sound

lemma takePid (h : Sound s) (pid : ℤ) : Sound (s.setKernel (Scheduler.takePid s.kernel pid).2) := by
  rw [(takePid_kernel s.kernel pid).1]
  refine ⟨h.count, h.nodup, h.slot, fun q hq ha => ?_, h.pids⟩
  have hlt := h.below q hq ha
  simp only [Table.setKernel]
  split_ifs
  · exact hlt.trans (Int.lt_succ _)
  · exact hlt

lemma filled (h : Sound s) {pid : ℤ} (hp : p ∉ s.kernel.table)
    (hi : s.processList[i]? = some none) : Sound (filled s pid p i) := by
  obtain ⟨hkernel, hpid⟩ := takePid_kernel s.kernel pid
  have hperm := perm_filled hi pid p
  have hmem : ∀ q, q ∈ (ProcessTable.filled s pid p i).kernel.table ↔
      q = p ∨ q ∈ s.kernel.table := by
    intro q
    rw [hperm.mem_iff, mem_cons]
  have hlist : (ProcessTable.filled s pid p i).processList = s.processList.set i (some p) := by
    simp only [ProcessTable.filled, Table.processList, fillSlot, insertProc, Kernel.insert, hkernel]
  have hnum : (ProcessTable.filled s pid p i).kernel.numProcesses = s.kernel.numProcesses + 1 := by
    simp only [ProcessTable.filled, fillSlot, insertProc, Kernel.insert, hkernel]
  have hnext : (ProcessTable.filled s pid p i).kernel.nextPid =
      if pid = 0 then s.kernel.nextPid + 1 else s.kernel.nextPid := by
    simp only [ProcessTable.filled, fillSlot, insertProc, Kernel.insert, hkernel]
  have hpids : ∀ q, ((ProcessTable.filled s pid p i).kernel.procs q).pid =
      if q = p then (if pid = 0 then s.kernel.nextPid else pid) else (s.kernel.procs q).pid := by
    intro q
    simp only [ProcessTable.filled, fillSlot, insertProc, Kernel.insert, hkernel, hpid]
    by_cases hq : q = p
    · simp [hq, newProcess]
    · simp [hq]
  have hauto : ∀ q, (ProcessTable.filled s pid p i).automatic q =
      if q = p then decide (pid = 0) else s.automatic q := by
    intro q
    simp only [ProcessTable.filled, update_apply]
  have hlt : ∀ q ∈ s.kernel.table, s.automatic q = true →
      (s.kernel.procs q).pid < s.kernel.nextPid := h.below
  have hne : ∀ q ∈ s.kernel.table, q ≠ p := fun q hq he => hp (he ▸ hq)
  refine ⟨?_, ?_, fun q hq => ?_, fun q hq ha => ?_, fun q hq q' hq' ha ha' he => ?_⟩
  · rw [hnum, hperm.length_eq, h.count, length_cons]
  · rw [hperm.nodup_iff]
    exact nodup_cons.mpr ⟨hp, h.nodup⟩
  · have hin : i < s.processList.length := (List.getElem?_eq_some_iff.mp hi).1
    rw [hlist]
    rcases (hmem q).mp hq with rfl | hq
    · simp [ProcessTable.filled, hin]
    · have hslot := h.slot q hq
      have hother : s.slotnum q ≠ i := by
        intro he
        rw [he, hi] at hslot
        simp at hslot
      simp only [ProcessTable.filled, update_of_ne (hne q hq)]
      rw [List.getElem?_set_ne (Ne.symm hother)]
      exact hslot
  · rw [hauto] at ha
    rw [hpids, hnext]
    rcases (hmem q).mp hq with rfl | hq
    · rw [if_pos rfl, decide_eq_true_eq] at ha
      simp [ha]
    · rw [if_neg (hne q hq)] at ha ⊢
      have := hlt q hq ha
      split_ifs <;> omega
  · rw [hauto] at ha ha'
    rw [hpids, hpids] at he
    rcases (hmem q).mp hq with rfl | hin <;> rcases (hmem q').mp hq' with rfl | hin'
    · rfl
    · rw [if_pos rfl, decide_eq_true_eq] at ha
      rw [if_neg (hne q' hin')] at ha' he
      rw [if_pos rfl, if_pos ha] at he
      exact absurd he (ne_of_gt (hlt q' hin' ha'))
    · rw [if_pos rfl, decide_eq_true_eq] at ha'
      rw [if_neg (hne q hin)] at ha he
      rw [if_pos rfl, if_pos ha'] at he
      exact absurd he (ne_of_lt (hlt q hin ha))
    · rw [if_neg (hne q hin)] at ha he
      rw [if_neg (hne q' hin')] at ha' he
      exact h.pids q hin q' hin' ha ha' he

lemma cleanupProc (h : Sound s) (hp : p ∈ s.kernel.table) : Sound (cleanupProc s p) := by
  have hslot := h.slot p hp
  have hperm := perm_cleanupProc hslot
  obtain ⟨hout, hnd⟩ := nodup_cons.mp (hperm.nodup_iff.mp h.nodup)
  have hsub : ∀ q ∈ (ProcessTable.cleanupProc s p).kernel.table, q ∈ s.kernel.table ∧ q ≠ p := by
    intro q hq
    exact ⟨hperm.mem_iff.mpr (mem_cons_of_mem p hq), ne_of_mem_of_not_mem hq hout⟩
  have hcount := h.count
  rw [hperm.length_eq, length_cons] at hcount
  have hlist : (ProcessTable.cleanupProc s p).processList =
      s.processList.set (s.slotnum p) none := by
    rw [ProcessTable.cleanupProc, if_pos hslot]
    rfl
  have hrest : (ProcessTable.cleanupProc s p).slotnum = s.slotnum ∧
      (ProcessTable.cleanupProc s p).automatic = s.automatic ∧
      (ProcessTable.cleanupProc s p).kernel.procs = s.kernel.procs ∧
      (ProcessTable.cleanupProc s p).kernel.nextPid = s.kernel.nextPid ∧
      (ProcessTable.cleanupProc s p).kernel.numProcesses = s.kernel.numProcesses - 1 := by
    rw [ProcessTable.cleanupProc, if_pos hslot]
    exact ⟨rfl, rfl, rfl, rfl, rfl⟩
  obtain ⟨hnum, hauto, hprocs, hnext, hless⟩ := hrest
  refine ⟨?_, ?_, fun q hq => ?_, fun q hq ha => ?_, fun q hq q' hq' ha ha' he => ?_⟩
  · rw [hless, hcount, Nat.add_sub_cancel]
  · exact hnd
  · obtain ⟨hin, hne⟩ := hsub q hq
    have hq' := h.slot q hin
    have hother : s.slotnum p ≠ s.slotnum q := by
      intro he
      rw [← he, hslot] at hq'
      exact hne (some.inj (some.inj hq')).symm
    rw [hlist, hnum, List.getElem?_set_ne hother]
    exact hq'
  · rw [hauto] at ha
    rw [hprocs, hnext]
    exact h.below q (hsub q hq).1 ha
  · rw [hauto] at ha ha'
    rw [hprocs] at he
    exact h.pids q (hsub q hq).1 q' (hsub q' hq').1 ha ha' he

lemma step {t : Table} {c : Call} (h : Sound s) (hstep : Guarded Room Step s c t) :
    Sound t ∧ t.processList.length = s.processList.length := by
  obtain ⟨hroom, hp, hdo⟩ := hstep
  cases c with
  | newProc pid p =>
    obtain ⟨res, hres, rfl⟩ := map_eq_some_iff.mp hdo
    rcases newProc_spec hroom with ⟨-, hrun⟩ | ⟨-, i, hi, hrun⟩
    · obtain rfl := some.inj (hrun.symm.trans hres)
      refine ⟨h.takePid pid, ?_⟩
      simp only [Table.setKernel, Table.processList, (takePid_kernel s.kernel pid).1]
    · obtain rfl := some.inj (hrun.symm.trans hres)
      refine ⟨h.filled hp hi, ?_⟩
      simp [ProcessTable.filled, Table.processList, fillSlot, insertProc, Kernel.insert,
        (takePid_kernel s.kernel pid).1]
  | exitProc p status =>
    obtain ⟨k, hk, rfl⟩ := map_eq_some_iff.mp hdo
    have hsame := sameTable_exitProc hk
    exact ⟨h.same hsame, congrArg List.length hsame.processList⟩
  | cleanupProc p =>
    obtain rfl := some.inj hdo
    refine ⟨h.cleanupProc hp, ?_⟩
    rw [ProcessTable.cleanupProc, if_pos (h.slot p hp)]
    simp [Table.setKernel, Table.processList]
end Sound

lemma initProc_sound (maxProcesses : ℕ) (mem : Proc → Process) (idle : Proc) :
    Sound (initProc maxProcesses mem idle) := by
  have hempty : (initProc maxProcesses mem idle).kernel.table = [] := by
    simp [initProc, Kernel.table]
  refine ⟨?_, ?_, ?_, ?_, ?_⟩ <;> simp [hempty]
  rfl

/-- In every run with room the occupied slots are counted, every process is in one slot, chosen
numbers differ, and `new_proc` fills an empty slot or answers `NULL`. -/
theorem process_table_sound {maxProcesses : ℕ} {mem : Proc → Process} {idle : Proc} {s : Table}
    {cs : List Call} (hrun : Run (Guarded Room Step) (initProc maxProcesses mem idle) cs s) :
    s.kernel.numProcesses = s.processList.countP Option.isSome ∧
    (∀ p ∈ s.kernel.table, ∃! i : ℕ, s.processList[i]? = some (some p)) ∧
    (∀ p ∈ s.kernel.table, ∀ q ∈ s.kernel.table, s.automatic p = true → s.automatic q = true →
      (s.kernel.procs p).pid = (s.kernel.procs q).pid → p = q) ∧
    ∀ pid p, Permitted s (.newProc pid p) → Room s (.newProc pid p) →
      ∃ r t, newProc s pid p = some (r, t) ∧
        (r = none ↔ ∀ i < maxProcesses, s.processList[i]? ≠ some none) ∧
        (r = none → t.processList = s.processList) ∧
        (r ≠ none → r = some p ∧ ∃ i < maxProcesses, s.processList[i]? = some none ∧
          t.processList = s.processList.set i (some p)) := by
  obtain ⟨h, hlen⟩ := hrun.preserves
    (I := fun s => Sound s ∧ s.processList.length = maxProcesses)
    ⟨initProc_sound _ _ _, by simp [initProc, Table.processList]⟩
    (fun _ _ _ ht hstep => ⟨(ht.1.step hstep).1, (ht.1.step hstep).2.trans ht.2⟩)
  refine ⟨?_, fun p hp => ?_, h.pids, fun pid p hp hroom => ?_⟩
  · rw [h.count]
    exact length_filterMap
  · refine ⟨s.slotnum p, h.slot p hp, fun i hi => ?_⟩
    by_contra hne
    -- a process in two slots would be in the table twice
    obtain ⟨l, r, hold, hnew⟩ := filterMap_set (h.slot p hp) none
    have hstill : some p ∈ s.processList.set (s.slotnum p) none := by
      refine List.mem_of_getElem? (i := i) ?_
      rw [List.getElem?_set_ne (Ne.symm hne)]
      exact hi
    have hin : p ∈ l ++ r := by
      have hmem : p ∈ (s.processList.set (s.slotnum p) none).filterMap id := by
        simpa [mem_filterMap] using hstill
      rw [hnew] at hmem
      simpa using hmem
    have hnd : (l ++ [p] ++ r).Nodup := hold ▸ h.nodup
    have hperm : (l ++ [p] ++ r).Perm (p :: (l ++ r)) := by
      rw [append_assoc, singleton_append]
      exact perm_middle
    exact (nodup_cons.mp (hperm.nodup_iff.mp hnd)).1 hin
  · have hfull : s.processList.length ≤ s.kernel.numProcesses ↔
        ∀ i < maxProcesses, s.processList[i]? ≠ some none := by
      rw [h.count, ← hlen]
      exact full_iff
    rcases newProc_spec hroom with ⟨hyes, hdo⟩ | ⟨hno, i, hi, hdo⟩
    · refine ⟨_, _, hdo, iff_of_true rfl (hfull.mp hyes), fun _ => ?_, fun hne => absurd rfl hne⟩
      simp only [Table.setKernel, Table.processList, (takePid_kernel s.kernel pid).1]
    · have hin : i < maxProcesses := hlen ▸ (List.getElem?_eq_some_iff.mp hi).1
      refine ⟨_, _, hdo, iff_of_false (by simp) fun hall => hno (hfull.mpr hall), by simp,
        fun _ => ⟨rfl, i, hin, hi, ?_⟩⟩
      simp [filled, Table.processList, fillSlot, insertProc, Kernel.insert,
        (takePid_kernel s.kernel pid).1]

instance (s : Table) (c : Call) : Decidable (Permitted s c) := by
  cases c <;> unfold Permitted <;> infer_instance

def advance (s : Table) (c : Call) : Option Table := if Permitted s c then perform s c else none

lemma advance_step {t : Table} {c : Call} (h : advance s c = some t) : Step s c t := by
  unfold advance at h
  split_ifs at h with hp
  exact ⟨hp, h⟩

/-- The search for a slot starts behind the table. -/
theorem search_leaves_table : ∃ t, Run Step (initProc 2 blankMemory 0)
    [.newProc 0 100, .newProc 0 200, .cleanupProc 100] t ∧ t.processList[0]? = some none ∧
      newProc t 0 300 = none := by
  exact exists_run (f := advance) (fun _ _ _ h => advance_step h) (by decide +kernel)

/-- `Room`, with an empty slot among the first four. -/
def roomInFour (s : Table) : Call → Bool
  | .newProc pid _ => (pid ≠ 0 ∨ s.kernel.nextPid < 2 ^ 31 - 1) ∧
      ∃ i < 4, s.kernel.nextProcessSlot ≤ i ∧ s.processList[i]? = some none
  | _ => true

lemma room_of_roomInFour {s : Table} {c : Call} (h : roomInFour s c = true) : Room s c := by
  cases c with
  | newProc pid p =>
    obtain ⟨hpid, i, hi, hslot, hnone⟩ := of_decide_eq_true h
    exact ⟨fun hzero => hpid.resolve_left (not_not_intro hzero), fun _ => ⟨i, by omega, hslot, hnone⟩⟩
  | exitProc p status => trivial
  | cleanupProc p => trivial

theorem process_table_sound_reused : ∃ t, Run (Guarded Room Step) (initProc 2 blankMemory 0)
    [.newProc 0 100, .cleanupProc 100, .newProc 0 100] t ∧ t.processList = [none, some 100] ∧
      t.kernel.numProcesses = t.processList.countP Option.isSome := by
  obtain ⟨t, hrun, hlist⟩ : ∃ t, Run (Guarded Room Step) (initProc 2 blankMemory 0)
      [.newProc 0 100, .cleanupProc 100, .newProc 0 100] t ∧ t.processList = [none, some 100] := by
    refine exists_run (f := fun s c => if roomInFour s c then advance s c else none) ?_
      (by decide +kernel)
    intro s c t h
    split_ifs at h with hroom
    exact ⟨room_of_roomInFour hroom, advance_step h⟩
  exact ⟨t, hrun, hlist, (process_table_sound hrun).1⟩

end Gloworm.ProcessTable
