import Gloworm.ProcessTable

/-! Parents and children: `clone_process`, `exit_proc` and the `cleanup_proc` of a `waitpid`. -/
namespace Gloworm.ProcessFamily
open List Option Function Queue Transition Scheduler ProcessTable

/-- The process table, and the words that lie behind it in memory. -/
structure Family where
  table : Table
  behind : ℕ → Option Proc

namespace Family
variable (s : Family)

def kernel : Kernel := s.table.kernel

def size : ℕ := s.table.processList.length

/-- The entry at an index that may be behind the table. -/
def word (i : ℕ) : Option Proc :=
  match s.table.processList[i]? with
  | some entry => entry
  | none => s.behind (i - s.size)

def assign (i : ℕ) (entry : Option Proc) : ℕ → Option Proc :=
  if i < s.size then s.behind else update s.behind (i - s.size) entry

def setKernel (k : Kernel) : Family := { s with table := s.table.setKernel k }

def modify (p : Proc) (f : Process → Process) : Family := s.setKernel (s.kernel.modify p f)

/-- The slot of the process holds it. -/
def Present (p : Proc) : Prop := s.word (s.table.slotnum p) = some p
deriving Decidable
end Family

/-- The search reads the word behind the array before it starts over. -/
def nextSlotnum (word : ℕ → Option Proc) (size : ℕ) : ℕ → ℕ → Bool → Option (Option ℕ)
  | 0, _, _ => none
  | fuel + 1, slot, once =>
    if (word slot).isNone then some (some slot)
    else if size < slot + 1 then
      if once then some none else nextSlotnum word size fuel 0 true
    else nextSlotnum word size fuel (slot + 1) once

/-- `none` for the null pointer, after which its callers panic, and where `next_pid` overflows. -/
def newProc (s : Family) (pid : ℤ) (p : Proc) : Option Family :=
  if pid = 0 ∧ 2 ^ 31 - 1 ≤ s.kernel.nextPid then none
  else if s.size ≤ s.kernel.numProcesses then none
  else
    match nextSlotnum s.word s.size (2 * s.size + 4) s.kernel.nextProcessSlot false with
    | some (some i) =>
      if 2 ^ 15 ≤ i then none else some ⟨filled s.table pid p i, s.assign i (some p)⟩
    | _ => none

def exitProc (s : Family) (p : Proc) (status : ℤ) : Option Family :=
  (Scheduler.exitProc s.kernel p status).map s.setKernel

def cleanupProc (s : Family) (p : Proc) : Family :=
  if s.word (s.table.slotnum p) = some p then
    ⟨s.table.setKernel { s.kernel with
      processList := s.table.processList.set (s.table.slotnum p) none
      numProcesses := s.kernel.numProcesses - 1 }, s.assign (s.table.slotnum p) none⟩
  else s

/-- A child that has exited and was not waited for. -/
def findExitedChild (s : Kernel) (parent child : ℤ) : Option Proc :=
  s.table.find? fun p =>
    s.state p = .exited ∧ (s.procs p).parent = parent ∧ (child = -1 ∨ (s.procs p).pid = child)

def enrol (s : Family) (parent p : Proc) (thread : Bool) : Family :=
  let pid := (s.kernel.procs parent).pid
  let s := s.modify p fun x => { x with parent := pid }
  if thread then
    let s := s.modify p fun x => { x with pid := pid }
    { s with table := { s.table with automatic := update s.table.automatic p false } }
  else s

def cloneProcess (s : Family) (parent p : Proc) (thread : Bool) (error : ℤ) : Option Family := do
  let s ← newProc s 0 p
  let s := enrol s parent p thread
  if error < 0 then (exitProc s p error).map fun s => cleanupProc s p else some s

inductive Call
  | cloneProcess (parent p : Proc) (thread : Bool) (error : ℤ)
  | exitProc (p : Proc) (status : ℤ)
  | cleanupProc (p : Proc)
  | suspendProc (p : Proc) (flags : ℕ)

def perform (s : Family) : Call → Option Family
  | .cloneProcess parent p thread error => cloneProcess s parent p thread error
  | .exitProc p status => exitProc s p status
  | .cleanupProc p => some (cleanupProc s p)
  | .suspendProc p flags => some (s.setKernel (suspendProc s.kernel p flags))

/-- The init process does not exit, and only exited processes are cleaned up. -/
def Permitted (first : Proc) (s : Family) : Call → Prop
  | .cloneProcess parent p _ _ =>
    s.Present parent ∧ s.kernel.state parent ≠ .exited ∧ ¬s.Present p
  | .exitProc p _ => s.Present p ∧ p ≠ first
  | .cleanupProc p => s.Present p ∧ s.kernel.state p = .exited
  | .suspendProc p _ => s.Present p

def Step (first : Proc) (s : Family) (c : Call) (t : Family) : Prop :=
  Permitted first s c ∧ perform s c = some t

/-- The table with the idle and the first process. -/
def boot (maxProcesses : ℕ) (mem : Proc → Process) (behind : ℕ → Option Proc) (idle first : Proc) :
    Option Family := do
  let s ← newProc ⟨initProc maxProcesses mem idle, behind⟩ 0 idle
  newProc (s.setKernel (s.kernel.remove .run idle)) initPid first

/-- There is a free slot at or after `next_process_slot`, or the word behind the array is not
zero. -/
def Room (s : Family) : Call → Prop
  | .cloneProcess _ _ _ _ =>
    (∃ i < s.size, s.kernel.nextProcessSlot ≤ i ∧ s.table.processList[i]? = some none) ∨
      s.behind (s.kernel.nextProcessSlot - s.size) ≠ none
  | _ => True

section Search
variable {word : ℕ → Option Proc} {size : ℕ} {fuel i : ℕ} {k : Kernel}

lemma nextSlotnum_first {slot free : ℕ} (once : Bool) (hle : slot ≤ free) (hfree : word free = none)
    (hsize : free < size) (hfuel : free < slot + fuel) :
    ∃ i < size, word i = none ∧ nextSlotnum word size fuel slot once = some (some i) := by
  induction fuel generalizing slot with
  | zero => omega
  | succ fuel ih =>
    rw [nextSlotnum]
    cases hword : word slot with
    | none => exact ⟨slot, by omega, hword, by simp⟩
    | some q =>
      have hne : slot ≠ free := by
        rintro rfl
        simp [hword] at hfree
      obtain ⟨i, hi, hnone, hrun⟩ := ih (show slot + 1 ≤ free by omega) (by omega)
      refine ⟨i, hi, hnone, ?_⟩
      have hin : ¬size < slot + 1 := by omega
      simpa [hin] using hrun

lemma nextSlotnum_wrap {slot : ℕ} (htaken : ∀ i, slot ≤ i → i ≤ max slot size → word i ≠ none) :
    nextSlotnum word size (fuel + (size - slot + 1)) slot false =
      nextSlotnum word size fuel 0 true := by
  have hword : ¬(word slot).isNone := by
    simpa using htaken slot le_rfl (le_max_left _ _)
  induction h : size - slot generalizing slot with
  | zero =>
    rw [← Nat.add_assoc, nextSlotnum, if_neg hword, if_pos (by omega)]
    rfl
  | succ k ih =>
    have hnext : nextSlotnum word size (fuel + (k + 1)) (slot + 1) false =
        nextSlotnum word size fuel 0 true := ih (fun i hlo hhi => htaken i (by omega) (by omega))
      (by simpa using htaken (slot + 1) (by omega) (by omega)) (by omega)
    rw [← hnext, ← Nat.add_assoc, nextSlotnum, if_neg hword, if_neg (by omega)]
end Search
section Words
variable {s : Family}

lemma word_of_lt (hi : i < s.size) : s.table.processList[i]? = some (s.word i) := by
  have hget : s.table.processList[i]? = some (s.table.processList.get ⟨i, hi⟩) :=
    List.getElem?_eq_getElem hi
  rw [Family.word, hget]

lemma word_of_ge (hi : s.size ≤ i) : s.word i = s.behind (i - s.size) := by
  have hget : s.table.processList[i]? = none := List.getElem?_eq_none hi
  rw [Family.word, hget]

lemma newProc_spec {s' : Family}
    (hroom : (∃ i < s.size, s.kernel.nextProcessSlot ≤ i ∧ s.table.processList[i]? = some none) ∨
      s.behind (s.kernel.nextProcessSlot - s.size) ≠ none)
    (hcount : s.kernel.numProcesses = s.kernel.table.length) (h : newProc s pid p = some s') :
    ∃ i, s.table.processList[i]? = some none ∧ s' = ⟨filled s.table pid p i, s.behind⟩ := by
  rw [newProc] at h
  split_ifs at h with hover hfull
  have hsearch : ∃ i < s.size, s.word i = none ∧
      nextSlotnum s.word s.size (2 * s.size + 4) s.kernel.nextProcessSlot false = some (some i) := by
    by_cases hfree : ∃ i < s.size, s.kernel.nextProcessSlot ≤ i ∧
        s.table.processList[i]? = some none
    · obtain ⟨i, hlt, hle, hi⟩ := hfree
      have hword := (word_of_lt hlt).symm.trans hi
      exact nextSlotnum_first false hle (some.inj hword) hlt (by omega)
    · obtain ⟨i, hlt, hi⟩ : ∃ i < s.size, s.table.processList[i]? = some none := by
        by_contra hnone
        push Not at hnone
        exact hfull (hcount ▸ full_iff.2 hnone)
      have hword := (word_of_lt hlt).symm.trans hi
      have htaken : ∀ j, s.kernel.nextProcessSlot ≤ j → j ≤ max s.kernel.nextProcessSlot s.size →
          s.word j ≠ none := by
        intro j hlo hhi hnone
        rcases Nat.lt_or_ge j s.size with hj | hj
        · exact hfree ⟨j, hj, hlo, (word_of_lt hj).trans (congrArg some hnone)⟩
        · rw [word_of_ge hj, show j - s.size = s.kernel.nextProcessSlot - s.size by omega] at hnone
          exact hroom.resolve_left hfree hnone
      have hfuel : 2 * s.size + 4 = (2 * s.size + 4 - (s.size - s.kernel.nextProcessSlot + 1)) +
          (s.size - s.kernel.nextProcessSlot + 1) := by omega
      rw [hfuel, nextSlotnum_wrap htaken]
      exact nextSlotnum_first true (Nat.zero_le i) (some.inj hword) hlt (by omega)
  obtain ⟨i, hlt, hi, hrun⟩ := hsearch
  rw [hrun] at h
  simp only at h
  split_ifs at h
  refine ⟨i, (word_of_lt hlt).trans (congrArg some hi), ?_⟩
  rw [← some.inj h, Family.assign, if_pos hlt]
end Words

structure Undisturbed (k t : Kernel) : Prop where
  same : SameTable k t
  parent : ∀ q, (t.procs q).parent = (k.procs q).parent
  exited : ∀ q, t.state q = .exited ↔ k.state q = .exited

lemma Undisturbed.refl (k : Kernel) : Undisturbed k k := ⟨.refl k, fun _ => rfl, fun _ => Iff.rfl⟩

lemma Undisturbed.table {t : Kernel} (a : Undisturbed k t) : t.table = k.table := by
  rw [Kernel.table, a.same.processList, Kernel.table]

lemma undisturbed_resumeProc (k : Kernel) (p : Proc) : Undisturbed k (resumeProc k p) := by
  refine ⟨sameTable_resumeProc k p, (sameIds_resumeProc k p).2, fun q => ?_⟩
  by_cases hq : q = p
  · subst hq
    rw [Consistent.state_resumeProc]
    split_ifs with hst
    · exact Iff.rfl
    · simp only [not_or] at hst
      simp [hst.2]
  · rw [(Consistent.frame_resumeProc k p).state q hq]

lemma undisturbed_suspendProc (k : Kernel) (p : Proc) (flags : ℕ) :
    Undisturbed k (suspendProc k p flags) := by
  have hframe := Consistent.frame_suspendProc k p flags
  unfold suspendProc at hframe ⊢
  split_ifs at hframe ⊢ with hst
  · exact .refl k
  · rw [not_not] at hst
    refine ⟨⟨rfl, rfl, rfl, rfl, fun q => ?_⟩, fun q => ?_, fun q => ?_⟩
    rotate_right
    · by_cases hq : q = p
      · subst hq
        rw [hst]
        simp [Kernel.modify, Kernel.setState, Kernel.state]
      · rw [hframe.state q hq]
    all_goals
      by_cases hq : q = p
      · simp [Kernel.modify, Kernel.setState, Kernel.insert, Kernel.remove, hq]
      · simp [Kernel.modify, Kernel.setState, Kernel.insert, Kernel.remove, hq]

@[mk_iff]
structure Rooted (first : Proc) (k : Kernel) : Prop where
  mem : first ∈ k.table
  pid : (k.procs first).pid = initPid
  live : k.state first ≠ .exited
  parents : ∀ q ∈ k.table, ∃ p ∈ k.table, k.state p ≠ .exited ∧ (k.procs p).pid = (k.procs q).parent

lemma exists_getProc (hp : p ∈ k.table) : ∃ q ∈ k.table, getProc k (k.procs p).pid = some q := by
  have hsome : (getProc k (k.procs p).pid).isSome := by
    rw [getProc, List.find?_isSome]
    exact ⟨p, hp, by simp⟩
  obtain ⟨q, hq⟩ := isSome_iff_exists.1 hsome
  exact ⟨q, getProc_mem hq, hq⟩

namespace Rooted
variable {first p : Proc} {k t : Kernel}

section
variable (h : Rooted first k)
include h

lemma undisturbed (hk : Undisturbed k t) : Rooted first t := by
  refine ⟨hk.table ▸ h.mem, (hk.same.pid first).trans h.pid, fun he => h.live ((hk.exited _).1 he),
    fun q hq => ?_⟩
  rw [hk.table] at hq
  obtain ⟨w, hw, hlive, hpid⟩ := h.parents q hq
  refine ⟨w, hk.table ▸ hw, fun he => hlive ((hk.exited w).1 he), ?_⟩
  rw [hk.same.pid, hk.parent, hpid]

lemma getProc_parent (hp : p ∈ k.table) : ∃ q ∈ k.table, getProc k (k.procs p).parent = some q := by
  obtain ⟨w, hw, -, hpid⟩ := h.parents p hp
  rw [← hpid]
  exact exists_getProc hw

lemma closed (hne : p ≠ first) (status : ℤ) : Rooted first (closed k p status).2 := by
  have htable := (sameIds_closed k p status).table
  have hstate : ∀ q, q ≠ p → (Scheduler.closed k p status).2.state q = k.state q := by
    intro q hq
    rw [(procs_closed k p status q).2.2.2, if_neg hq]
  have hpid := (sameIds_closed k p status).pid
  refine ⟨htable ▸ h.mem, (hpid first).trans h.pid, ?_, fun q hq => ?_⟩
  · rw [hstate first hne.symm]
    exact h.live
  · rw [htable] at hq ⊢
    rw [(procs_closed k p status q).2.2.1 hq, adopted]
    split_ifs with hchild
    · exact ⟨first, h.mem, (hstate first hne.symm).symm ▸ h.live, (hpid first).trans h.pid⟩
    · obtain ⟨w, hw, hlive, hparent⟩ := h.parents q hq
      have hwp : w ≠ p := by
        rintro rfl
        exact hchild hparent.symm
      exact ⟨w, hw, (hstate w hwp).symm ▸ hlive, (hpid w).trans hparent⟩

lemma peopled : Peopled k := by
  refine ⟨?_, fun q hq => (h.getProc_parent hq).imp fun _ => And.right⟩
  obtain ⟨q, -, hget⟩ := exists_getProc h.mem
  rw [h.pid] at hget
  exact ⟨q, hget⟩

lemma exitProc (hp : p ∈ k.table) (hne : p ≠ first) (status : ℤ) :
    ∃ t, Scheduler.exitProc k p status = some t ∧ SameTable k t ∧ Rooted first t ∧
      t.state p = .exited := by
  obtain ⟨t, ht, -⟩ := h.peopled.exitProc hp status
  refine ⟨t, ht, sameTable_exitProc ht, ?_, exitProc_exited ht⟩
  refine exitProc_keeps (fun u q _ hu => ?_) (fun u hu => ?_) (fun _ => h) (h.closed hne status) ht
  · exact hu.undisturbed (undisturbed_resumeProc u q)
  · exact ⟨hu.mem, hu.pid, hu.live, hu.parents⟩

lemma cleanup (hst : k.state p = .exited) (hperm : k.table.Perm (p :: t.table))
    (hprocs : t.procs = k.procs) : Rooted first t := by
  have hmem : ∀ q ∈ k.table, k.state q ≠ .exited → q ∈ t.table := by
    intro q hq hlive
    rcases mem_cons.1 (hperm.mem_iff.1 hq) with rfl | hin
    · exact absurd hst hlive
    · exact hin
  simp only [rooted_iff, Kernel.state, hprocs]
  refine ⟨hmem first h.mem h.live, h.pid, h.live, fun q hq => ?_⟩
  obtain ⟨w, hw, hlive, hpid⟩ := h.parents q (hperm.mem_iff.2 (mem_cons_of_mem p hq))
  exact ⟨w, hmem w hw hlive, hlive, hpid⟩
end

lemma born (h : Rooted first k) {parent : Proc} (hparent : parent ∈ k.table)
    (hlive : k.state parent ≠ .exited) (hp : p ∉ k.table) (hperm : t.table.Perm (p :: k.table))
    (hnew : (t.procs p).parent = (k.procs parent).pid)
    (hprocs : ∀ q, q ≠ p → t.procs q = k.procs q) : Rooted first t := by
  have hold : ∀ q ∈ k.table, q ∈ t.table ∧ t.procs q = k.procs q := by
    intro q hq
    exact ⟨hperm.mem_iff.2 (mem_cons_of_mem p hq), hprocs q fun he => hp (he ▸ hq)⟩
  have hstate : ∀ q ∈ k.table, t.state q = k.state q := by
    intro q hq
    rw [Kernel.state, (hold q hq).2, Kernel.state]
  obtain ⟨hmem, heq⟩ := hold first h.mem
  refine ⟨hmem, heq ▸ h.pid, hstate first h.mem ▸ h.live, fun q hq => ?_⟩
  rcases mem_cons.1 (hperm.mem_iff.1 hq) with rfl | hin
  · exact ⟨parent, (hold parent hparent).1, hstate parent hparent ▸ hlive,
      (congrArg Process.pid (hold parent hparent).2).trans hnew.symm⟩
  · obtain ⟨w, hw, hwlive, hpid⟩ := h.parents q hin
    rw [(hold q hin).2]
    exact ⟨w, (hold w hw).1, hstate w hw ▸ hwlive, (congrArg Process.pid (hold w hw).2).trans hpid⟩
end Rooted

structure Kin (first : Proc) (s : Family) : Prop where
  sound : Sound s.table
  slots : ∀ p, s.table.slotnum p < s.size
  rooted : Rooted first s.kernel

namespace Kin
variable {first p : Proc} {s : Family}

lemma present_iff (h : Kin first s) : s.Present p ↔ p ∈ s.kernel.table := by
  constructor
  · intro hp
    have hget := word_of_lt (h.slots p)
    rw [hp] at hget
    exact mem_filterMap.2 ⟨some p, List.mem_of_getElem? hget, rfl⟩
  · intro hp
    exact some.inj ((word_of_lt (h.slots p)).symm.trans (h.sound.slot p hp))

lemma undisturbed (h : Kin first s) (hk : Undisturbed s.kernel k) : Kin first (s.setKernel k) :=
  ⟨h.sound.same hk.same, fun p => by
    have hlen : (s.setKernel k).size = s.size := congrArg List.length hk.same.processList
    rw [hlen]
    exact h.slots p, h.rooted.undisturbed hk⟩

section
variable (h : Kin first s) (hp : p ∈ s.kernel.table)
include h hp

lemma exitProc (hne : p ≠ first) (status : ℤ) :
    ∃ t, exitProc s p status = some t ∧ Kin first t ∧ t.kernel.table = s.kernel.table ∧
      t.kernel.state p = .exited := by
  obtain ⟨k, hk, hsame, hrooted, hst⟩ := h.rooted.exitProc hp hne status
  refine ⟨s.setKernel k, by rw [ProcessFamily.exitProc, hk, map_some],
    ⟨h.sound.same hsame, fun q => ?_, hrooted⟩, ?_, hst⟩
  · have hlen : (s.setKernel k).size = s.size := congrArg List.length hsame.processList
    rw [hlen]
    exact h.slots q
  · exact congrArg (List.filterMap id) hsame.processList

lemma cleanupProc_eq : cleanupProc s p = ⟨ProcessTable.cleanupProc s.table p, s.behind⟩ := by
  have hword : s.word (s.table.slotnum p) = some p := h.present_iff.2 hp
  rw [cleanupProc, if_pos hword, ProcessTable.cleanupProc, if_pos (h.sound.slot p hp), Family.assign, if_pos (h.slots p)]
  rfl

lemma cleanupProc (hst : s.kernel.state p = .exited) : Kin first (cleanupProc s p) ∧
      s.kernel.table.Perm (p :: (ProcessFamily.cleanupProc s p).kernel.table) ∧
      (ProcessFamily.cleanupProc s p).kernel.procs = s.kernel.procs := by
  rw [h.cleanupProc_eq hp]
  have hslot := h.sound.slot p hp
  have hperm := perm_cleanupProc hslot
  have hprocs : (ProcessTable.cleanupProc s.table p).kernel.procs = s.kernel.procs := by
    rw [ProcessTable.cleanupProc, if_pos hslot]
    rfl
  refine ⟨⟨h.sound.cleanupProc hp, fun q => ?_, h.rooted.cleanup hst hperm hprocs⟩, hperm, hprocs⟩
  have hlen : (ProcessTable.cleanupProc s.table p).processList.length = s.size := by
    rw [ProcessTable.cleanupProc, if_pos hslot]
    exact length_set ..
  have hslotnum : (ProcessTable.cleanupProc s.table p).slotnum = s.table.slotnum := by
    rw [ProcessTable.cleanupProc, if_pos hslot]
    rfl
  simp only [Family.size, hlen, hslotnum]
  exact h.slots q
end
end Kin

lemma sound_renumbered {s : Table} (h : Sound s) (p : Proc) (f : Process → Process) :
    Sound ⟨s.kernel.modify p f, s.slotnum, update s.automatic p false⟩ := by
  have hother : ∀ q, update s.automatic p false q = true →
      s.automatic q = true ∧ (s.kernel.modify p f).procs q = s.kernel.procs q := by
    intro q hq
    by_cases hqp : q = p
    · simp [hqp] at hq
    · rw [update_of_ne hqp] at hq
      exact ⟨hq, update_of_ne hqp _ _⟩
  refine ⟨h.count, h.nodup, h.slot, fun q hq ha => ?_, fun q hq q' hq' ha ha' he => ?_⟩
  · obtain ⟨hauto, hsame⟩ := hother q ha
    simp only [hsame]
    exact h.below q hq hauto
  · obtain ⟨hauto, hsame⟩ := hother q ha
    obtain ⟨hauto', hsame'⟩ := hother q' ha'
    simp only [hsame, hsame'] at he
    exact h.pids q hq q' hq' hauto hauto' he

section Enrol
variable {s : Family} (parent p : Proc)

lemma enrol_processList (thread : Bool) :
    (enrol s parent p thread).table.processList = s.table.processList ∧
      (enrol s parent p thread).table.slotnum = s.table.slotnum := by
  cases thread <;> exact ⟨rfl, rfl⟩

lemma enrol_procs (thread : Bool) :
    ((enrol s parent p thread).kernel.procs p).parent = (s.kernel.procs parent).pid ∧
      ∀ q, q ≠ p → (enrol s parent p thread).kernel.procs q = s.kernel.procs q := by
  cases thread with
  | false =>
    refine ⟨by simp [enrol, Family.modify, Family.setKernel, Family.kernel, Table.setKernel,
      Kernel.modify], fun q hq => ?_⟩
    simp [enrol, Family.modify, Family.setKernel, Family.kernel, Table.setKernel, Kernel.modify, hq]
  | true =>
    refine ⟨by simp [enrol, Family.modify, Family.setKernel, Family.kernel, Table.setKernel,
      Kernel.modify], fun q hq => ?_⟩
    simp [enrol, Family.modify, Family.setKernel, Family.kernel, Table.setKernel, Kernel.modify, hq]

lemma enrol_sound (h : Sound s.table) (thread : Bool) : Sound (enrol s parent p thread).table := by
  have hparent : Sound (s.modify p fun x =>
      { x with parent := (s.kernel.procs parent).pid }).table := by
    refine h.same ⟨rfl, rfl, rfl, rfl, fun q => ?_⟩
    by_cases hq : q = p
    · simp [Kernel.modify, Family.kernel, hq]
    · simp [Kernel.modify, Family.kernel, hq]
  cases thread with
  | false => exact hparent
  | true => exact sound_renumbered hparent p fun x => { x with pid := (s.kernel.procs parent).pid }
end Enrol
namespace Kin
variable {first parent p : Proc} {s : Family}

section
variable (h : Kin first s) (hparent : parent ∈ s.kernel.table)
  (hlive : s.kernel.state parent ≠ .exited) (hp : p ∉ s.kernel.table)
include h hparent hlive hp

lemma enrol (hi : s.table.processList[i]? = some none) (thread : Bool) :
    Kin first (enrol ⟨filled s.table 0 p i, s.behind⟩ parent p thread) ∧
      p ∈ (enrol ⟨filled s.table 0 p i, s.behind⟩ parent p thread).kernel.table := by
  have hbirth : ∀ q, q ≠ p → (filled s.table 0 p i).kernel.procs q = s.kernel.procs q := by
    intro q hq
    simp [filled, fillSlot, insertProc, Kernel.insert, (takePid_kernel _ _).1, hq, Family.kernel]
  have hlist : (filled s.table 0 p i).processList = s.table.processList.set i (some p) := by
    simp [filled, Table.processList, fillSlot, insertProc, Kernel.insert, (takePid_kernel _ _).1]
  obtain ⟨hsame, hslots⟩ := enrol_processList (s := ⟨filled s.table 0 p i, s.behind⟩)
    parent p thread
  obtain ⟨hnew, hprocs⟩ := enrol_procs (s := ⟨filled s.table 0 p i, s.behind⟩)
    parent p thread
  have hperm : (ProcessFamily.enrol ⟨filled s.table 0 p i, s.behind⟩ parent p thread).kernel.table.Perm
      (p :: s.kernel.table) := by
    have htable : (ProcessFamily.enrol ⟨filled s.table 0 p i, s.behind⟩ parent p thread).kernel.table =
        (filled s.table 0 p i).kernel.table := congrArg (List.filterMap id) hsame
    rw [htable]
    exact perm_filled hi 0 p
  refine ⟨⟨enrol_sound parent p (h.sound.filled hp hi) thread, fun q => ?_, ?_⟩,
    hperm.mem_iff.2 (mem_cons_self ..)⟩
  · rw [Family.size, hsame, hslots, hlist, length_set]
    by_cases hq : q = p
    · simpa [filled, hq] using (List.getElem?_eq_some_iff.1 hi).1
    · simpa [filled, hq, Family.size] using h.slots q
  · refine h.rooted.born hparent hlive hp hperm ?_ fun q hq => (hprocs q hq).trans (hbirth q hq)
    rw [hnew]
    exact congrArg Process.pid (hbirth parent fun he => hp (he ▸ hparent))

lemma cloneProcess (thread : Bool) (error : ℤ)
    (hroom : Room s (.cloneProcess parent p thread error)) (hnew : newProc s 0 p = some t) :
    ∃ u, cloneProcess s parent p thread error = some u ∧ Kin first u := by
  obtain ⟨i, hi, rfl⟩ := newProc_spec hroom h.sound.count hnew
  obtain ⟨hkin, hmem⟩ := h.enrol hparent hlive hp hi thread
  simp only [ProcessFamily.cloneProcess, hnew, bind_eq_bind, bind_some]
  split_ifs
  · have hne : p ≠ first := fun he => hp (he ▸ h.rooted.mem)
    obtain ⟨v, hv, hkin', htable, hst⟩ := hkin.exitProc hmem hne error
    rw [hv, map_some]
    exact ⟨_, rfl, (hkin'.cleanupProc (htable ▸ hmem) hst).1⟩
  · exact ⟨_, rfl, hkin⟩
end

lemma step (h : Kin first s) (hstep : Guarded Room (Step first) s c t) : Kin first t := by
  obtain ⟨hroom, hp, hdo⟩ := hstep
  cases c with
  | cloneProcess parent p thread error =>
    obtain ⟨hparent, hlive, hfresh⟩ := hp
    rw [h.present_iff] at hparent hfresh
    cases hnew : newProc s 0 p with
    | none => simp [perform, ProcessFamily.cloneProcess, hnew] at hdo
    | some u =>
      obtain ⟨v, hv, hkin⟩ := h.cloneProcess hparent hlive hfresh thread error hroom hnew
      rw [perform, hv] at hdo
      exact some.inj hdo ▸ hkin
  | exitProc p status =>
    obtain ⟨v, hv, hkin, -⟩ := h.exitProc (h.present_iff.1 hp.1) hp.2 status
    rw [perform, hv] at hdo
    exact some.inj hdo ▸ hkin
  | cleanupProc p =>
    obtain rfl := some.inj hdo
    exact (h.cleanupProc (h.present_iff.1 hp.1) hp.2).1
  | suspendProc p flags =>
    obtain rfl := some.inj hdo
    exact h.undisturbed (undisturbed_suspendProc s.kernel p flags)
end Kin

def collect : ℕ → Family → ℤ → List Proc
  | 0, _, _ => []
  | fuel + 1, s, parent =>
    match findExitedChild s.kernel parent (-1) with
    | none => []
    | some c => c :: collect fuel (cleanupProc s c) parent

lemma Kin.mem_collect {q : Proc} (h : Kin first s) (hq : q ∈ s.kernel.table)
    (hst : s.kernel.state q = .exited) (hfuel : s.kernel.table.length ≤ fuel) :
    q ∈ collect fuel s (s.kernel.procs q).parent := by
  induction fuel generalizing s with
  | zero =>
    rw [eq_nil_of_length_eq_zero (Nat.le_zero.1 hfuel)] at hq
    exact absurd hq (not_mem_nil)
  | succ fuel ih =>
    have hfound : (findExitedChild s.kernel (s.kernel.procs q).parent (-1)).isSome := by
      rw [findExitedChild, List.find?_isSome]
      exact ⟨q, hq, by simp [hst]⟩
    obtain ⟨c, hc⟩ := isSome_iff_exists.1 hfound
    have hexited : s.kernel.state c = .exited := by
      have := List.find?_some hc
      simp only [decide_eq_true_eq] at this
      exact this.1
    rw [collect, hc]
    by_cases hqc : q = c
    · exact hqc ▸ mem_cons_self ..
    · obtain ⟨hkin, hperm, hprocs⟩ := h.cleanupProc (List.mem_of_find?_eq_some hc) hexited
      have hin : q ∈ (ProcessFamily.cleanupProc s c).kernel.table :=
        (mem_cons.1 (hperm.mem_iff.1 hq)).resolve_left hqc
      have hlen := hperm.length_eq
      rw [length_cons] at hlen
      have hrest := ih hkin hin (by rw [Kernel.state, hprocs]; exact hst) (by omega)
      rw [hprocs] at hrest
      exact mem_cons_of_mem c hrest

section Boot
variable {maxProcesses : ℕ} {mem : Proc → Process} {behind : ℕ → Option Proc} {idle first : Proc}
  {s t : Family}

lemma newProc_here (hfree : s.table.processList[s.kernel.nextProcessSlot]? = some none)
    (h : newProc s pid p = some t) :
    t = ⟨filled s.table pid p s.kernel.nextProcessSlot, s.behind⟩ := by
  have hlt : s.kernel.nextProcessSlot < s.size := (List.getElem?_eq_some_iff.1 hfree).1
  have hword : s.word s.kernel.nextProcessSlot = none :=
    some.inj ((word_of_lt hlt).symm.trans hfree)
  rw [newProc] at h
  simp only [nextSlotnum, hword, isNone_none, if_true] at h
  split_ifs at h
  rw [← some.inj h, Family.assign, if_pos hlt]

lemma newProc_room (h : newProc s pid p = some t) : s.kernel.numProcesses < s.size := by
  rw [newProc] at h
  split_ifs at h with hover hfull
  omega

lemma procs_filled (s : Table) (pid : ℤ) (p : Proc) (i : ℕ) : (filled s pid p i).kernel.procs =
      update s.kernel.procs p (newProcess (takePid s.kernel pid).1) := by
  simp [filled, fillSlot, insertProc, Kernel.insert, (takePid_kernel _ _).1]

lemma processList_filled (s : Table) (pid : ℤ) (p : Proc) (i : ℕ) :
    (filled s pid p i).processList = s.processList.set i (some p) := by
  simp [filled, Table.processList, fillSlot, insertProc, Kernel.insert, (takePid_kernel _ _).1]

def idling (maxProcesses : ℕ) (mem : Proc → Process) (idle : Proc) : Table :=
  let s := filled (initProc maxProcesses mem idle) 0 idle 0
  s.setKernel (s.kernel.remove .run idle)

lemma boot_eq (h : boot maxProcesses mem behind idle first = some s) :
    1 < maxProcesses ∧ s = ⟨filled (idling maxProcesses mem idle) initPid first 1, behind⟩ := by
  obtain ⟨t, ht, h⟩ := bind_eq_some_iff.1 h
  have hone : 0 < maxProcesses := by
    simpa [Family.size, Family.kernel, Table.processList, initProc] using newProc_room ht
  have hidle : t = ⟨filled (initProc maxProcesses mem idle) 0 idle 0, behind⟩ :=
    newProc_here (by simp [Family.kernel, Table.processList, initProc, hone])
      ht
  subst hidle
  have htwo : 1 < maxProcesses := by
    have hroom := newProc_room h
    have hlen : (idling maxProcesses mem idle).processList.length = maxProcesses := by
      show (filled (initProc maxProcesses mem idle) 0 idle 0).processList.length = maxProcesses
      rw [processList_filled, length_set]
      exact length_replicate
    exact hlen ▸ hroom
  refine ⟨htwo, newProc_here (s := ⟨idling maxProcesses mem idle, behind⟩) ?_ h⟩
  show (filled (initProc maxProcesses mem idle) 0 idle 0).processList[1]? = some none
  rw [processList_filled, List.getElem?_set_ne (by omega)]
  simp [Table.processList, initProc, htwo]

lemma boot_kin (hne : idle ≠ first)
    (h : boot maxProcesses mem behind idle first = some s) : Kin first s := by
  obtain ⟨htwo, rfl⟩ := boot_eq h
  have hfree : ∀ i < maxProcesses, (initProc maxProcesses mem idle).processList[i]? = some none := by
    intro i hi
    simp [Table.processList, initProc, hi]
  have hempty : (initProc maxProcesses mem idle).kernel.table = [] := by
    simp [initProc, Kernel.table]
  have hlist : (idling maxProcesses mem idle).processList =
      (initProc maxProcesses mem idle).processList.set 0 (some idle) := processList_filled _ _ _ _
  have hslot : (idling maxProcesses mem idle).processList[1]? = some none := by
    rw [hlist, List.getElem?_set_ne (by omega)]
    exact hfree 1 htwo
  have hidle : (idling maxProcesses mem idle).kernel.table.Perm [idle] :=
    hempty ▸ perm_filled (hfree 0 (by omega)) 0 idle
  have hboth := (perm_filled hslot initPid first).trans (hidle.cons first)
  have hsound : Sound (idling maxProcesses mem idle) :=
    ((initProc_sound maxProcesses mem idle).filled (by simp [hempty]) (hfree 0 (by omega))).same
      ⟨rfl, rfl, rfl, rfl, fun _ => rfl⟩
  have hprocs : (filled (idling maxProcesses mem idle) initPid first 1).kernel.procs =
      update (update mem idle (newProcess 2)) first (newProcess 1) := by
    rw [procs_filled]
    congr 1
  refine ⟨hsound.filled ?_ hslot, fun q => ?_, ?_⟩
  · rw [hidle.mem_iff, mem_singleton]
    exact hne.symm
  · have hlen : (filled (idling maxProcesses mem idle) initPid first 1).processList.length =
        maxProcesses := by
      rw [processList_filled, hlist, length_set, length_set]
      exact length_replicate
    rw [Family.size, hlen]
    by_cases hq : q = first
    · simpa [filled, hq] using htwo
    · simp [filled, idling, Table.setKernel, hq, initProc]
      omega
  · refine ⟨hboth.mem_iff.2 (by simp), ?_, ?_, fun q hq => ⟨first, hboth.mem_iff.2 (by simp), ?_, ?_⟩⟩
    · simp only [Family.kernel, hprocs]
      simp [newProcess, initPid]
    · simp only [Family.kernel, Kernel.state, hprocs]
      simp [newProcess]
    · simp only [Family.kernel, Kernel.state, hprocs]
      simp [newProcess]
    · simp only [Family.kernel, hprocs]
      rcases mem_cons.1 (hboth.mem_iff.1 hq) with rfl | hin
      · simp [newProcess, initPid]
      · obtain rfl := mem_singleton.1 hin
        simp [newProcess, initPid, hne]
end Boot

/-- In every run whose clones find room each process has a parent that `get_proc` finds, and each
exited process a live one whose `waitpid` collects it. -/
theorem parenthood {maxProcesses : ℕ} {mem : Proc → Process} {behind : ℕ → Option Proc}
    {idle first : Proc} {s₀ s : Family} {cs : List Call} (hne : idle ≠ first)
    (hboot : boot maxProcesses mem behind idle first = some s₀)
    (hrun : Run (Guarded Room (Step first)) s₀ cs s) :
    (∀ q ∈ s.kernel.table, ∃ p, getProc s.kernel (s.kernel.procs q).parent = some p) ∧
    (∀ q ∈ s.kernel.table, (resumeWaitingParent s.kernel q).isSome) ∧
    (∀ p status, Permitted first s (.exitProc p status) → (exitProc s p status).isSome) ∧
    (∀ parent p thread error, Permitted first s (.cloneProcess parent p thread error) →
      Room s (.cloneProcess parent p thread error) → (newProc s 0 p).isSome →
      (cloneProcess s parent p thread error).isSome) ∧
    ∀ q ∈ s.kernel.table, s.kernel.state q = .exited →
      ∃ p ∈ s.kernel.table, s.kernel.state p ≠ .exited ∧
        (s.kernel.procs p).pid = (s.kernel.procs q).parent ∧
        q ∈ collect s.kernel.table.length s (s.kernel.procs p).pid := by
  have h : Kin first s := hrun.preserves (boot_kin hne hboot) fun _ _ _ ht hstep => ht.step hstep
  refine ⟨fun q hq => ?_, fun q hq => ?_, fun p status hp => ?_,
    fun parent p thread error hp hroom hnew => ?_, fun q hq hst => ?_⟩
  · obtain ⟨p, -, hget⟩ := h.rooted.getProc_parent hq
    exact ⟨p, hget⟩
  · obtain ⟨t, ht, -⟩ := h.rooted.peopled.resumeWaitingParent hq
    rw [ht, isSome_some]
  · obtain ⟨t, ht, -⟩ := h.exitProc (h.present_iff.1 hp.1) hp.2 status
    rw [ht, isSome_some]
  · obtain ⟨t, ht⟩ := isSome_iff_exists.1 hnew
    obtain ⟨u, hu, -⟩ := h.cloneProcess (h.present_iff.1 hp.1) hp.2.1
      (fun hin => hp.2.2 (h.present_iff.2 hin)) thread error hroom ht
    rw [hu, isSome_some]
  · obtain ⟨p, hp, hlive, hpid⟩ := h.rooted.parents q hq
    exact ⟨p, hp, hlive, hpid, hpid ▸ h.mem_collect hq hst le_rfl⟩

instance (first : Proc) (s : Family) (c : Call) : Decidable (Permitted first s c) := by
  cases c <;> unfold Permitted <;> infer_instance

instance (s : Family) (c : Call) : Decidable (Room s c) := by
  cases c <;> unfold Room <;> infer_instance

def advance (first : Proc) (s : Family) (c : Call) : Option Family :=
  if Permitted first s c then perform s c else none

def advanceRoom (first : Proc) (s : Family) (c : Call) : Option Family :=
  if Room s c then advance first s c else none

lemma advance_step (h : advance first s c = some t) : Step first s c t := by
  unfold advance at h
  split_ifs at h with hp
  exact ⟨hp, h⟩

lemma advanceRoom_step (h : advanceRoom first s c = some t) : Guarded Room (Step first) s c t := by
  unfold advanceRoom at h
  split_ifs at h with hroom
  exact ⟨hroom, advance_step h⟩

theorem orphan_collected : ∃ s₀ s, boot 4 blankMemory (fun _ => none) 1 2 = some s₀ ∧
    Run (Guarded Room (Step 2)) s₀ [.cloneProcess 2 3 true 0, .cloneProcess 3 4 false 0,
      .exitProc 3 0, .exitProc 4 0] s ∧ ∃ p ∈ s.kernel.table, s.kernel.state p ≠ .exited ∧
      (s.kernel.procs p).pid = (s.kernel.procs 4).parent ∧
      4 ∈ collect s.kernel.table.length s (s.kernel.procs p).pid := by
  exact (exists_run_from (f := advanceRoom 2)
    (p := fun _ s => 4 ∈ s.kernel.table ∧ s.kernel.state 4 = .exited)
    (fun _ _ _ h => advanceRoom_step h) (by decide +kernel)).imp
    fun s₀ ⟨s, hboot, hrun, hin, hexited⟩ =>
      ⟨s, hboot, hrun, (parenthood (by decide) hboot hrun).2.2.2.2 4 hin hexited⟩

theorem parent_behind_table : ∃ s₀ t, boot 4 blankMemory (fun _ => none) 1 2 = some s₀ ∧
    Run (Step 2) s₀ [.cloneProcess 2 3 false 0, .exitProc 3 0, .cleanupProc 3,
      .cloneProcess 2 3 false 0, .exitProc 3 0, .cleanupProc 3,
      .cloneProcess 2 4 false 0, .cloneProcess 4 5 false 0] t ∧
    Permitted 2 t (.exitProc 5 0) ∧ getProc t.kernel (t.kernel.procs 5).parent = none ∧
    exitProc t 5 0 = none := by
  exact exists_run_from (f := advance 2) (fun _ _ _ h => advance_step h) (by decide +kernel)

end Gloworm.ProcessFamily
