import Gloworm.BitmapWords

/-! `select` over the descriptors of a process. A set of descriptors is its words, and the two loops
over words and bits go through the descriptors in order. -/
namespace Gloworm.Select
open Bitmap List

def fdsMax : ℕ := 128

def openMax : ℕ := 20

abbrev FdSet := ℕ → BitVec 32

/-- `VFS_POLL_READ`, `VFS_POLL_WRITE` and `VFS_POLL_ERROR`. -/
inductive PollEvent
  | read
  | write
  | error
  deriving DecidableEq

def pollEvents : List PollEvent := [.read, .write, .error]

/-- The sets `readfds`, `writefds` and `exceptfds`, which may be null. -/
abbrev Sets := PollEvent → Option FdSet

variable {F : Type} (files : ℕ → Option F) (poll : F → PollEvent → Bool)

/-- The entry of a descriptor, with no result behind the end of the table. -/
def fileAt (fd : ℕ) : Option (Option F) := if fd < openMax then some (files fd) else none

def isSet (set : Option FdSet) (fd : ℕ) : Bool := set.any (bitAt · fd)

def isMember (sets : Sets) (fd : ℕ) : Bool := pollEvents.any fun e => isSet (sets e) fd

def checkLoop (sets : Sets) : List ℕ → Option ℤ
  | [] => some 0
  | fd :: fds =>
    if isMember sets fd then
      (fileAt files fd).bind fun file => if file.isNone then some (-1) else checkLoop sets fds
    else checkLoop sets fds

/-- The descriptors that the loops get to. -/
def fdRange (max : ℤ) : List ℕ := List.range (min max.toNat fdsMax)

def selectCheckOpenFds (max : ℤ) (sets : Sets) : Option ℤ := checkLoop files sets (fdRange max)

def pollSet (markReady ready : Bool) (fd : ℕ) : Option FdSet → Option FdSet :=
  Option.map fun bits => if bitAt bits fd && !ready && markReady then clearBit bits fd else bits

def pollLoop (markReady : Bool) : List ℕ → Sets → ℕ → Option (ℕ × Sets × List ℕ)
  | [], sets, ready => some (ready, sets, [])
  | fd :: fds, sets, ready =>
    -- `vfs_poll` uses the file without a test
    (fileAt files fd).join.bind fun file =>
      let next : Sets := fun e => pollSet markReady (poll file e) fd (sets e)
      let ready := ready + pollEvents.countP fun e => isSet (sets e) fd && poll file e
      if markReady = false ∧ ready ≠ 0 then some (1, next, [fd])
      else (pollLoop markReady fds next ready).map fun r => (r.1, r.2.1, fd :: r.2.2)

/-- The answer of `select_poll_fds`, the sets it leaves, and the descriptors it has polled. -/
def selectPollFds (max : ℤ) (sets : Sets) (markReady : Bool) : Option (ℕ × Sets × List ℕ) :=
  pollLoop files poll markReady (fdRange max) sets 0

def isReady (fd : ℕ) (e : PollEvent) : Bool := (files fd).any (poll · e)

def readyCount (sets : Sets) (fds : List ℕ) : ℕ :=
  (fds.map fun fd => pollEvents.countP fun e => isSet (sets e) fd && isReady files poll fd e).sum

/-- Only members are polled; marking leaves exactly the ready ones below the bound and counts
them. -/
structure Exact (max : ℤ) (sets : Sets) : Prop where
  marked : ∃ sets' polled, selectPollFds files poll max sets true =
      some (readyCount files poll sets (fdRange max), sets', polled) ∧
    (∀ fd ∈ polled, isMember sets fd) ∧
    ∀ e fd, isSet (sets' e) fd =
      (isSet (sets e) fd && (fd ∉ fdRange max || isReady files poll fd e))
  unmarked : ∃ r polled, selectPollFds files poll max sets false = some (r, sets, polled) ∧
    (∀ fd ∈ polled, isMember sets fd) ∧ (r ≠ 0 ↔ 0 < readyCount files poll sets (fdRange max))

section Loops
variable {files} {sets : Sets} {fds : List ℕ} {fd : ℕ}

lemma fileAt_of_checkLoop (h : checkLoop files sets fds = some 0) (hfd : fd ∈ fds)
    (hmember : isMember sets fd) : ∃ file, fileAt files fd = some (some file) := by
  induction fds with
  | nil => simp at hfd
  | cons a fds ih =>
    rw [checkLoop] at h
    split_ifs at h with ha
    · obtain ⟨file, hfile, hrest⟩ := Option.bind_eq_some_iff.mp h
      split_ifs at hrest with hnone
      · simp at hrest
      · rcases mem_cons.mp hfd with rfl | hfd
        · obtain ⟨f, rfl⟩ := Option.ne_none_iff_exists'.mp (by simpa using hnone)
          exact ⟨f, hfile⟩
        · exact ih hrest hfd
    · rcases mem_cons.mp hfd with rfl | hfd
      · exact absurd hmember ha
      · exact ih h hfd

lemma isSet_pollSet (markReady ready : Bool) (set : Option FdSet) (fd k : ℕ) :
    isSet (pollSet markReady ready fd set) k =
      (isSet set k && (!markReady || ready || k ≠ fd)) := by
  cases set with
  | none => rfl
  | some bits =>
    simp only [isSet, pollSet, Option.map_some, Option.any_some]
    split_ifs with h
    · simp only [Bool.and_eq_true, Bool.not_eq_true'] at h
      simp [bitAt_clearBit, h]
    · by_cases hk : k = fd
      · subst hk
        cases hb : bitAt bits k <;> simp_all
        cases markReady <;> simp_all
      · simp [hk]

lemma pollSet_unmarked (ready : Bool) (fd : ℕ) (set : Option FdSet) :
    pollSet false ready fd set = set := by
  cases set <;> simp [pollSet]

lemma isReady_of_fileAt {file : F} (h : fileAt files fd = some (some file)) (e : PollEvent) :
    isReady files poll fd e = poll file e := by
  unfold fileAt at h
  split_ifs at h
  rw [isReady, Option.some.inj h, Option.any_some]

lemma pollLoop_marking (hnodup : fds.Nodup)
    (hopen : ∀ fd ∈ fds, ∃ file, fileAt files fd = some (some file)) (sets : Sets) (ready : ℕ) :
    ∃ sets', pollLoop files poll true fds sets ready =
        some (ready + readyCount files poll sets fds, sets', fds) ∧
      ∀ e k, isSet (sets' e) k = (isSet (sets e) k && (k ∉ fds || isReady files poll k e)) := by
  induction fds generalizing sets ready with
  | nil => exact ⟨sets, by simp [pollLoop, readyCount], by simp⟩
  | cons fd fds ih =>
    obtain ⟨hnot, hrest⟩ := nodup_cons.mp hnodup
    obtain ⟨file, hfile⟩ := hopen fd mem_cons_self
    have hready := isReady_of_fileAt poll hfile
    obtain ⟨sets', hloop, hsets⟩ := ih hrest (fun k hk => hopen k (mem_cons_of_mem _ hk))
      (fun e => pollSet true (poll file e) fd (sets e))
      (ready + pollEvents.countP fun e => isSet (sets e) fd && poll file e)
    -- the bits of the later descriptors are still as they were
    have hlater : readyCount files poll (fun e => pollSet true (poll file e) fd (sets e)) fds =
        readyCount files poll sets fds := by
      unfold readyCount
      congr 1
      refine map_congr_left fun k hk => ?_
      have hne : k ≠ fd := fun he => hnot (he ▸ hk)
      simp [isSet_pollSet, hne]
    refine ⟨sets', ?_, fun e k => ?_⟩
    · rw [pollLoop, hfile]
      rw [hlater] at hloop
      simp only [Option.join_some, Option.bind_some, Bool.true_eq_false, false_and, if_false, hloop,
        Option.map_some, readyCount, map_cons, sum_cons, hready, Nat.add_assoc]
    · rw [hsets, isSet_pollSet, ← hready]
      by_cases hk : k = fd
      · subst hk
        simp [hnot]
      · simp [hk]

lemma polled_eq {ready : ℕ} {r : ℕ × Sets × List ℕ}
    (h : pollLoop files poll true fds sets ready = some r) : r.2.2 = fds := by
  induction fds generalizing sets ready r with
  | nil =>
    rw [← Option.some.inj h]
  | cons fd fds ih =>
    obtain ⟨file, -, hrest⟩ := Option.bind_eq_some_iff.mp h
    simp only [Bool.true_eq_false, false_and, if_false] at hrest
    obtain ⟨r', hr', rfl⟩ := Option.map_eq_some_iff.mp hrest
    rw [ih hr']

lemma pollLoop_probing (hopen : ∀ fd ∈ fds, ∃ file, fileAt files fd = some (some file))
    (sets : Sets) : ∃ r polled, pollLoop files poll false fds sets 0 = some (r, sets, polled) ∧
      polled ⊆ fds ∧ (r ≠ 0 ↔ 0 < readyCount files poll sets fds) := by
  induction fds with
  | nil => exact ⟨0, [], by simp [pollLoop], by simp, by simp [readyCount]⟩
  | cons fd fds ih =>
    obtain ⟨file, hfile⟩ := hopen fd mem_cons_self
    obtain ⟨r, polled, hloop, hsub, hiff⟩ := ih fun k hk => hopen k (mem_cons_of_mem _ hk)
    simp only [pollLoop, hfile, Option.join_some, Option.bind_some, pollSet_unmarked, true_and,
      zero_add, readyCount, map_cons, sum_cons, isReady_of_fileAt poll hfile]
    by_cases hnone : (pollEvents.countP fun e => isSet (sets e) fd && poll file e) = 0
    · rw [if_neg (not_not.mpr hnone), hnone, hloop, zero_add]
      exact ⟨r, fd :: polled, rfl, cons_subset_cons _ hsub, hiff⟩
    · rw [if_pos hnone]
      exact ⟨1, [fd], rfl, by simp, by omega⟩
end Loops

/-- When all members are open, `select_poll_fds` is exact just if every descriptor below the bound
is a member of some set. -/
theorem exact_iff_no_gap {files : ℕ → Option F} {max : ℤ} {sets : Sets}
    (hcheck : selectCheckOpenFds files max sets = some 0) :
    Exact files poll max sets ↔ ∀ fd ∈ fdRange max, isMember sets fd := by
  constructor
  · rintro ⟨⟨sets', polled, hpoll, hmembers, -⟩, -⟩ fd hfd
    have hall : polled = fdRange max := polled_eq poll hpoll
    exact hmembers fd (hall ▸ hfd)
  · intro hmembers
    have hopen : ∀ fd ∈ fdRange max, ∃ file, fileAt files fd = some (some file) := fun fd hfd =>
      fileAt_of_checkLoop hcheck hfd (hmembers fd hfd)
    obtain ⟨sets', hpoll, hsets⟩ := pollLoop_marking poll nodup_range hopen sets 0
    obtain ⟨r, polled, hprobe, hsub, hiff⟩ := pollLoop_probing poll hopen sets
    rw [Nat.zero_add] at hpoll
    exact ⟨⟨sets', _, hpoll, hmembers, hsets⟩,
      ⟨r, polled, hprobe, fun fd hfd => hmembers fd (hsub hfd), hiff⟩⟩

/-- The set with a single descriptor, for reading. -/
def readOnly (fd : ℕ) : Sets := fun e => if e = .read then some (setBit (fun _ => 0) fd) else none

/-- Descriptor 0 is polled for reading and descriptor 1 for writing. -/
def readAndWrite : Sets
  | .read => some (setBit (fun _ => 0) 0)
  | .write => some (setBit (fun _ => 0) 1)
  | _ => none

theorem exact_read_and_write : Exact (fun _ => some ()) (fun _ e => e = .write) 2 readAndWrite :=
  (exact_iff_no_gap _ (by decide +kernel)).mpr (by decide +kernel)

/-- A descriptor that is in no set is polled. -/
theorem closed_descriptor_polled :
    selectCheckOpenFds (fun fd => if fd = 1 then some () else none) 2 (readOnly 1) = some 0 ∧
    (selectPollFds (fun fd => if fd = 1 then some () else none) (fun _ _ => true) 2 (readOnly 1)
      true).isNone := by
  decide +kernel

end Gloworm.Select
