import Gloworm.FileDescModel
import Gloworm.UpdatedSums

/-! Every open file is counted once for each slot that holds it. The calls are made of three moves
of a slot: a new file, one more reference, and letting a file go. -/
namespace Gloworm.FileDesc
open Function Transition UpdatedSums List Option
variable {i : ℕ}

lemma slotCount_put (table : FdTable) (hi : i < openMax) (slot : Slot) (n : ℕ) :
    slotCount (table.put i slot) n + (if table.files i = .file n then 1 else 0) =
      slotCount table n + if slot = .file n then 1 else 0 := by
  exact count_update 1 (· = Slot.file n) (Finset.mem_range.mpr hi) table.files slot

variable {s : State} {table : ℕ}

lemma total_putSlot (ht : table < s.tableCount) (hi : i < openMax) (slot : Slot) (n : ℕ) :
    total (putSlot s table i slot) n + (if (s.tables table).files i = .file n then 1 else 0) =
      total s n + if slot = .file n then 1 else 0 := by
  have hfun : (fun k => slotCount ((putSlot s table i slot).tables k) n) =
      update (fun k => slotCount (s.tables k) n) table
        (slotCount ((s.tables table).put i slot) n) :=
    funext fun k => apply_update (fun _ x => slotCount x n) s.tables table _ k
  have h := sum_update (Finset.mem_range.mpr ht) (fun k => slotCount (s.tables k) n)
    (slotCount ((s.tables table).put i slot) n)
  have hslot := slotCount_put (s.tables table) hi slot n
  rw [← hfun] at h
  have hbefore : total s n = ∑ k ∈ Finset.range s.tableCount, slotCount (s.tables k) n := rfl
  have hafter : total (putSlot s table i slot) n =
    ∑ k ∈ Finset.range s.tableCount, slotCount ((putSlot s table i slot).tables k) n := rfl
  rw [hbefore, hafter]
  simp only at h
  omega

lemma ite_file (n m : ℕ) :
    (if Slot.file n = Slot.file m then 1 else 0) = if n = m then 1 else 0 := by
  by_cases h : n = m
  · rw [if_pos h, if_pos (congrArg _ h)]
  · rw [if_neg h, if_neg fun heq => h (Slot.file.inj heq)]

structure Accounted (s : State) : Prop where
  refcount : ∀ n, (s.fileTable n).refcount = total s n
  vnode : ∀ n, (s.fileTable n).vnode.isSome ↔ 0 < total s n
  placeholder : ∀ k < s.tableCount, ∀ i < openMax, (s.tables k).files i ≠ .one

def uses (procs : ℕ → Option ℕ) (count k : ℕ) : ℤ :=
  ∑ p ∈ Finset.range count, if procs p = some k then 1 else 0

structure Shared (s : State) : Prop where
  refcount : ∀ k < s.tableCount, (s.tables k).refcount = uses s.procs s.procCount k
  procs : ∀ p k, s.procs p = some k → p < s.procCount ∧ k < s.tableCount

structure SameTables (s t : State) : Prop where
  tableCount : t.tableCount = s.tableCount
  procs : t.procs = s.procs
  procCount : t.procCount = s.procCount
  refcount : ∀ k, (t.tables k).refcount = (s.tables k).refcount

lemma SameTables.refl (s : State) : SameTables s s := ⟨rfl, rfl, rfl, fun _ => rfl⟩

variable {t : State} {u : State}

lemma SameTables.trans (h : SameTables s t) (h' : SameTables t u) : SameTables s u :=
  ⟨h'.tableCount.trans h.tableCount, h'.procs.trans h.procs, h'.procCount.trans h.procCount,
    fun k => (h'.refcount k).trans (h.refcount k)⟩

lemma Shared.same (hs : Shared s) (h : SameTables s t) : Shared t := by
  refine ⟨fun k hk => ?_, fun p k hp => ?_⟩
  · rw [h.refcount, h.procCount, h.procs]
    exact hs.refcount k (h.tableCount ▸ hk)
  · rw [h.procCount, h.tableCount]
    exact hs.procs p k (h.procs ▸ hp)

variable {n : ℕ}

lemma total_pos (ht : table < s.tableCount) (hi : i < openMax)
    (h : (s.tables table).files i = .file n) : 0 < total s n := by
  have hput := total_putSlot ht hi .null n
  rw [if_pos h, if_neg (by simp)] at hput
  omega

section Moves

def attach (s : State) (table i n : ℕ) : State := putSlot (dupFileptr s n) table i (.file n)

def create (s : State) (table i n vnode : ℕ) : State :=
  putSlot { s with fileTable := update s.fileTable n ⟨some vnode, 1⟩ } table i (.file n)

def detach (s : State) (table i n : ℕ) : State := putSlot (vfsClose s n) table i .null

lemma total_attach (ht : table < s.tableCount) (hi : i < openMax)
    (hnull : (s.tables table).files i = .null) (m : ℕ) :
    total (attach s table i n) m = total s m + if n = m then 1 else 0 := by
  have h := total_putSlot (s := dupFileptr s n) ht hi (.file n) m
  have hslot : ((dupFileptr s n).tables table).files i = .null := hnull
  rw [hslot, if_neg (by simp), Nat.add_zero, ite_file] at h
  exact h

lemma total_create (vnode : ℕ) (ht : table < s.tableCount) (hi : i < openMax)
    (hnull : (s.tables table).files i = .null) (m : ℕ) :
    total (create s table i n vnode) m = total s m + if n = m then 1 else 0 := by
  have h := total_putSlot (s := { s with
    fileTable := update s.fileTable n ⟨some vnode, 1⟩ }) ht hi (.file n) m
  simp only [hnull] at h
  rw [if_neg (by simp), Nat.add_zero, ite_file] at h
  exact h

lemma vfsClose_tables : (vfsClose s n).tables = s.tables ∧
    (vfsClose s n).tableCount = s.tableCount ∧ (vfsClose s n).procs = s.procs ∧
    (vfsClose s n).procCount = s.procCount := by
  simp only [vfsClose, freeFileptr]
  split_ifs <;> exact ⟨rfl, rfl, rfl, rfl⟩

lemma vfsClose_fileTable : (vfsClose s n).fileTable = update s.fileTable n
    ⟨if (s.fileTable n).refcount - 1 = 0 then none else (s.fileTable n).vnode,
      (s.fileTable n).refcount - 1⟩ := by
  simp only [vfsClose, freeFileptr]
  split_ifs <;> rfl

lemma vfsClose_closes : (vfsClose s n).closes =
    s.closes ++ if (s.fileTable n).refcount = 1 then [n] else [] := by
  simp only [vfsClose, freeFileptr]
  split_ifs <;> simp

lemma total_detach (ht : table < s.tableCount) (hi : i < openMax)
    (hslot : (s.tables table).files i = .file n) (m : ℕ) :
    total (detach s table i n) m + (if n = m then 1 else 0) = total s m := by
  obtain ⟨htab, hcount, -⟩ := vfsClose_tables (s := s) (n := n)
  have h := total_putSlot (s := vfsClose s n) (by rw [hcount]; exact ht) hi .null m
  have hsame : total (vfsClose s n) m = total s m := by rw [total, total, htab, hcount]
  rw [htab, hslot, if_neg (by simp : ¬ Slot.null = .file m), Nat.add_zero, hsame, ite_file] at h
  exact h

lemma putSlot_same (s : State) (table i : ℕ) (slot : Slot) :
    SameTables s (putSlot s table i slot) := by
  refine ⟨rfl, rfl, rfl, fun k => ?_⟩
  by_cases hk : k = table
  · subst hk
    simp only [putSlot, update_self, FdTable.put]
  · simp only [putSlot, update_of_ne hk]

variable {slot : Slot}

lemma putSlot_files {k j : ℕ} : ((putSlot s table i slot).tables k).files j =
      if k = table ∧ j = i then slot else (s.tables k).files j := by
  by_cases hk : k = table
  · subst hk
    by_cases hj : j = i
    · subst hj
      simp [putSlot, FdTable.put]
    · simp [putSlot, FdTable.put, hj]
  · simp [putSlot, hk]

lemma putSlot_placeholder (ha : Accounted s) (hone : slot ≠ .one) :
    ∀ k < s.tableCount, ∀ j < openMax, ((putSlot s table i slot).tables k).files j ≠ .one := by
  intro k hk j hj
  rw [putSlot_files]
  split_ifs
  · exact hone
  · exact ha.placeholder k hk j hj

lemma attach_fileTable : (FileDesc.attach s table i n).fileTable = update s.fileTable n
    ⟨(s.fileTable n).vnode, (s.fileTable n).refcount + 1⟩ := rfl

lemma create_fileTable {vnode : ℕ} : (FileDesc.create s table i n vnode).fileTable =
    update s.fileTable n ⟨some vnode, 1⟩ := rfl

lemma detach_fileTable : (FileDesc.detach s table i n).fileTable = update s.fileTable n
    ⟨if (s.fileTable n).refcount - 1 = 0 then none else (s.fileTable n).vnode,
      (s.fileTable n).refcount - 1⟩ := vfsClose_fileTable

lemma detach_tables : (FileDesc.detach s table i n).tables = (putSlot s table i .null).tables := by
  rw [FileDesc.detach, putSlot, putSlot, vfsClose_tables.1]

lemma detach_tableCount : (FileDesc.detach s table i n).tableCount = s.tableCount :=
  vfsClose_tables.2.1

lemma detach_closes : (FileDesc.detach s table i n).closes =
    s.closes ++ if (s.fileTable n).refcount = 1 then [n] else [] := vfsClose_closes

lemma detach_same : SameTables s (FileDesc.detach s table i n) := by
  obtain ⟨htab, hcount, hprocs, hproc⟩ := vfsClose_tables (s := s) (n := n)
  have h := putSlot_same s table i .null
  exact ⟨hcount, hprocs, hproc, fun k => by rw [detach_tables, h.refcount]⟩

lemma total_of_free (ha : Accounted s) (hfree : (s.fileTable n).vnode = none) : total s n = 0 := by
  have := ha.vnode n
  rw [hfree] at this
  simpa using this

lemma Accounted.move (ha : Accounted s) {file : Vfile}
    (htables : t.tables = (putSlot s table i slot).tables) (hcount : t.tableCount = s.tableCount)
    (hfile : t.fileTable = update s.fileTable n file) (hone : slot ≠ .one)
    (htotal : ∀ m ≠ n, total t m = total s m) (href : file.refcount = total t n)
    (hvnode : file.vnode.isSome ↔ 0 < total t n) : Accounted t := by
  refine ⟨fun m => ?_, fun m => ?_, ?_⟩
  · rw [hfile]
    by_cases hm : m = n
    · rw [hm, update_self, href]
    · rw [update_of_ne hm, ha.refcount m, htotal m hm]
  · rw [hfile]
    by_cases hm : m = n
    · rw [hm, update_self, hvnode]
    · rw [update_of_ne hm, ha.vnode m, htotal m hm]
  · rw [htables, hcount]
    exact putSlot_placeholder ha hone

section
variable (ha : Accounted s) (ht : table < s.tableCount) (hi : i < openMax)
include ha ht hi

lemma Accounted.attach (hnull : (s.tables table).files i = .null) (hopen : 0 < total s n) :
    Accounted (FileDesc.attach s table i n) := by
  have htotal := total_attach (n := n) ht hi hnull
  refine ha.move rfl rfl attach_fileTable (by simp) (fun m hm => ?_) ?_ ?_
  · rw [htotal, if_neg (Ne.symm hm), Nat.add_zero]
  · simp [htotal, ha.refcount n]
  · simp [htotal, ha.vnode n, hopen]

lemma Accounted.create (hnull : (s.tables table).files i = .null)
    (hfree : (s.fileTable n).vnode = none) (vnode : ℕ) :
    Accounted (FileDesc.create s table i n vnode) := by
  have htotal := total_create (n := n) vnode ht hi hnull
  refine ha.move rfl rfl create_fileTable (by simp) (fun m hm => ?_) ?_ ?_
  · rw [htotal, if_neg (Ne.symm hm), Nat.add_zero]
  · simp [htotal, total_of_free ha hfree]
  · simp [htotal]

lemma Accounted.detach (hslot : (s.tables table).files i = .file n) :
    Accounted (FileDesc.detach s table i n) := by
  have htotal := total_detach ht hi hslot
  have hn := htotal n
  rw [if_pos rfl] at hn
  refine ha.move detach_tables detach_tableCount detach_fileTable (by simp) (fun m hm => ?_) ?_ ?_
  · have hm' := htotal m
    rwa [if_neg (Ne.symm hm), Nat.add_zero] at hm'
  · simp only [ha.refcount n]
    omega
  · have hpos : (s.fileTable n).vnode.isSome := (ha.vnode n).mpr (total_pos ht hi hslot)
    simp only [ha.refcount n]
    split_ifs with hlast
    · simp only [isSome_none, Bool.false_eq_true, false_iff]
      omega
    · simp only [hpos, true_iff]
      omega
end
end Moves

def ClosesLast (s t : State) : Prop :=
  ∃ l, t.closes = s.closes ++ l ∧ l.Nodup ∧ ∀ n, n ∈ l ↔ 0 < total s n ∧ total t n = 0

def Unchanged (s t : State) : Prop :=
  t.fileTable = s.fileTable ∧ (∀ k < s.tableCount, t.tables k = s.tables k) ∧ t.closes = s.closes

structure Outcome (s : State) (ret : ℤ) (t : State) : Prop where
  accounted : Accounted t
  shared : Shared t
  closes : ClosesLast s t
  failed : ret < 0 → Unchanged s t

lemma ClosesLast.of_le (hcloses : t.closes = s.closes)
    (hle : ∀ n, total s n ≤ total t n) : ClosesLast s t := by
  refine ⟨[], by rw [hcloses, append_nil], nodup_nil, fun n => ?_⟩
  have := hle n
  simp only [not_mem_nil, false_iff]
  omega

lemma Outcome.refl (ha : Accounted s) (hs : Shared s) (ret : ℤ) : Outcome s ret s :=
  ⟨ha, hs, .of_le rfl fun _ => le_rfl, fun _ => ⟨rfl, fun _ _ => rfl, rfl⟩⟩

section Calls

lemma findUnusedFd_spec (s : State) (table : ℕ) :
    (findUnusedFd s table = EMFILE ∧ ∀ i < openMax, (s.tables table).files i ≠ .null) ∨
    ∃ i < openMax, findUnusedFd s table = i ∧ (s.tables table).files i = .null := by
  rw [findUnusedFd]
  cases h : (List.range openMax).find? fun i => (s.tables table).files i == .null with
  | none =>
    refine .inl ⟨rfl, fun i hi => ?_⟩
    simpa using List.find?_eq_none.mp h i (mem_range.mpr hi)
  | some i =>
    have hmem := mem_range.mp (List.mem_of_find?_eq_some h)
    exact .inr ⟨i, hmem, rfl, by simpa using List.find?_some h⟩

lemma newFileptr_spec (s : State) (vnode : ℕ) : newFileptr s vnode = none ∨
    ∃ n, (s.fileTable n).vnode = none ∧ newFileptr s vnode =
      some (n, { s with fileTable := update s.fileTable n ⟨some vnode, 1⟩ }) := by
  rw [newFileptr]
  cases h : (List.range fileTableMax).find? fun i => (s.fileTable i).vnode.isNone with
  | none => exact .inl rfl
  | some n => exact .inr ⟨n, by simpa using List.find?_some h, rfl⟩

lemma setFd_slot (hi : i < openMax) (slot : Slot) :
    setFd s table i slot = some (putSlot s table i slot) := by
  rw [setFd, if_neg (by omega), writeSlot, if_pos ⟨by omega, by omega⟩, Int.toNat_natCast]

variable {vnode : ℕ}

lemma Accounted.freeFileptr_new (ha : Accounted s) (hn : (s.fileTable n).vnode = none) :
    freeFileptr { s with fileTable := update s.fileTable n ⟨some vnode, 1⟩ } n = s := by
  have hfile : s.fileTable n = ⟨none, 0⟩ := by
    have href := ha.refcount n
    rw [total_of_free ha hn] at href
    rw [← hn, ← Nat.cast_zero, ← href]
  simp only [freeFileptr, update_self, update_idem, sub_self, if_true]
  rw [← hfile, update_eq_self]

lemma total_le_create (ht : table < s.tableCount) (hi : i < openMax)
    (hnull : (s.tables table).files i = .null) (m : ℕ) :
    total s m ≤ total (create s table i n vnode) m := by
  rw [total_create _ ht hi hnull]
  omega

lemma create_same : SameTables s (create s table i n vnode) :=
  have h := putSlot_same { s with fileTable := update s.fileTable n ⟨some vnode, 1⟩ }
    table i (.file n)
  ⟨h.tableCount, h.procs, h.procCount, h.refcount⟩

lemma attach_same : SameTables s (attach s table i n) :=
  have h := putSlot_same (dupFileptr s n) table i (.file n)
  ⟨h.tableCount, h.procs, h.procCount, h.refcount⟩

lemma doOpen_spec (ha : Accounted s) (hs : Shared s) (ht : table < s.tableCount)
    (opening : Opening) : ∃ ret t, doOpen s table opening = some (ret, t) ∧ Outcome s ret t := by
  rcases findUnusedFd_spec s table with ⟨hfd, -⟩ | ⟨i, hi, hfd, hnull⟩
  · exact ⟨EMFILE, s, by rw [doOpen, hfd]; rfl, .refl ha hs _⟩
  simp only [doOpen, hfd]
  rw [if_neg (by omega)]
  cases opening with
  | refused error => exact ⟨error, s, rfl, .refl ha hs _⟩
  | reaches vnode opened =>
    rcases newFileptr_spec s vnode with hnone | ⟨n, hn, hnew⟩
    · exact ⟨ENFILE, s, by simp only [vfsOpen, hnone], .refl ha hs _⟩
    cases opened with
    | some error =>
      refine ⟨error, s, ?_, .refl ha hs _⟩
      simp only [vfsOpen, hnew, ha.freeFileptr_new hn]
    | none =>
      refine ⟨i, create s table i n vnode, ?_, ha.create ht hi hnull hn vnode,
        hs.same create_same, .of_le rfl (total_le_create ht hi hnull), fun h => by omega⟩
      simp only [vfsOpen, hnew, setFd_slot hi, map_some]
      rfl

lemma getFd_spec (ha : Accounted s) (ht : table < s.tableCount) {fd : ℤ} (hfd : 0 ≤ fd) :
    (getFd s table fd = some none ∧ (fd < openMax → (s.tables table).files fd.toNat = .null)) ∨
    ∃ n, fd < openMax ∧ (s.tables table).files fd.toNat = .file n ∧
      getFd s table fd = some (some n) := by
  rw [getFd]
  by_cases hmax : (openMax : ℤ) ≤ fd
  · rw [if_pos hmax]
    exact .inl ⟨rfl, fun h => absurd h (by omega)⟩
  rw [if_neg hmax, readSlot, if_pos ⟨hfd, by omega⟩, map_some]
  cases hslot : (s.tables table).files fd.toNat with
  | null => exact .inl ⟨rfl, fun _ => rfl⟩
  | one => exact absurd hslot (ha.placeholder table ht _ (by omega))
  | file n =>
    have hopen : (s.fileTable n).vnode.isNone = false := by
      have := (ha.vnode n).mpr (total_pos ht (by omega) hslot)
      rw [← not_isSome, this]
      rfl
    refine .inr ⟨n, by omega, rfl, ?_⟩
    simp only [hopen, Bool.false_eq_true, if_false]

lemma closesLast_detach (ha : Accounted s) (ht : table < s.tableCount)
    (hi : i < openMax) (hslot : (s.tables table).files i = .file n) :
    ClosesLast s (detach s table i n) := by
  refine ⟨_, detach_closes, by split_ifs <;> simp, fun m => ?_⟩
  have hm := total_detach ht hi hslot m
  have hpos := total_pos ht hi hslot
  rw [ha.refcount n]
  by_cases hmn : n = m
  · subst hmn
    rw [if_pos rfl] at hm
    by_cases hone : total s n = 1
    · rw [if_pos (by omega)]
      simp only [mem_singleton, true_iff]
      omega
    · rw [if_neg (by omega)]
      simp only [not_mem_nil, false_iff]
      omega
  · rw [if_neg hmn] at hm
    have hnot : m ∉ (if (total s n : ℤ) = 1 then [n] else []) := by
      split_ifs
      · simpa using Ne.symm hmn
      · simp
    simp only [hnot, false_iff]
    omega

lemma doClose_spec (ha : Accounted s) (hs : Shared s) (ht : table < s.tableCount) {fd : ℤ}
    (hfd : 0 ≤ fd) : ∃ ret t, doClose s table fd = some (ret, t) ∧ Outcome s ret t := by
  rw [doClose]
  rcases getFd_spec ha ht hfd with ⟨hnone, -⟩ | ⟨n, hlt, hslot, hsome⟩
  · rw [hnone]
    exact ⟨EBADF, s, rfl, .refl ha hs _⟩
  obtain ⟨i, rfl⟩ := Int.eq_ofNat_of_zero_le hfd
  rw [Int.toNat_natCast] at hslot
  have hi : i < openMax := by omega
  refine ⟨0, detach s table i n, ?_, ha.detach ht hi hslot, hs.same detach_same,
    closesLast_detach ha ht hi hslot, fun h => by omega⟩
  rw [hsome, bind_some]
  simp only [freeFd, readSlot]
  rw [if_pos ⟨by omega, by omega⟩, bind_some, Int.toNat_natCast, hslot]
  simp only [setFd_slot hi, map_some]
  rfl

lemma putSlot_putSlot (s : State) (table i : ℕ) (a b : Slot) :
    putSlot (putSlot s table i a) table i b = putSlot s table i b := by
  simp only [putSlot, update_self, update_idem, FdTable.put]

lemma putSlot_self {slot : Slot} (h : (s.tables table).files i = slot) :
    putSlot s table i slot = s := by
  simp only [putSlot, FdTable.put, ← h, update_eq_self]

lemma exists_other_free {files : FdTable} (h : 2 ≤ freeSlots files) :
    ∃ j < openMax, j ≠ i ∧ files.files j = .null := by
  by_contra hno
  push Not at hno
  have hall : ∀ x ∈ (List.range openMax).filter fun x => files.files x == .null, x = i := by
    intro x hx
    obtain ⟨hmem, hnull⟩ := mem_filter.mp hx
    by_contra hne
    exact hno x (mem_range.mp hmem) hne (by simpa using hnull)
  have hnodup : ((List.range openMax).filter fun x => files.files x == .null).Nodup :=
    List.nodup_range.filter _
  rw [eq_replicate_of_mem hall, nodup_replicate] at hnodup
  rw [freeSlots] at h
  omega

lemma pipe_slots (hfree : 2 ≤ freeSlots (s.tables table)) :
    ∃ i < openMax, ∃ j < openMax, j ≠ i ∧ (s.tables table).files i = .null ∧
      (s.tables table).files j = .null ∧ findUnusedFd s table = i ∧
      findUnusedFd (putSlot s table i .one) table = j := by
  rcases findUnusedFd_spec s table with ⟨-, hno⟩ | ⟨i, hi, hfd, hnull⟩
  · obtain ⟨j, hj, -, hnull⟩ := exists_other_free (i := openMax) hfree
    exact absurd hnull (hno j hj)
  rcases findUnusedFd_spec (putSlot s table i .one) table with ⟨-, hno⟩ | ⟨j, hj, hfd', hnull'⟩
  · obtain ⟨j, hj, hne, hnull'⟩ := exists_other_free (i := i) hfree
    refine absurd ?_ (hno j hj)
    rw [putSlot_files, if_neg (by tauto)]
    exact hnull'
  · rw [putSlot_files] at hnull'
    split_ifs at hnull' with hji
    exact ⟨i, hi, j, hj, fun h => hji ⟨rfl, h⟩, hnull, hnull', hfd, hfd'⟩

lemma doPipe_spec (ha : Accounted s) (hs : Shared s) (ht : table < s.tableCount) {pipefd : Bool}
    (vnode : Option ℕ) (hfree : pipefd = true → 2 ≤ freeSlots (s.tables table)) :
    ∃ ret t, doPipe s table pipefd vnode = some (ret, t) ∧ Outcome s ret t := by
  cases pipefd with
  | false => exact ⟨EINVAL, s, rfl, .refl ha hs _⟩
  | true =>
    obtain ⟨i, hi, j, hj, hne, hnull, hnull', hfd, hfd'⟩ := pipe_slots (hfree rfl)
    have hback : putSlot (putSlot (putSlot s table i .one) table i .null) table j .null = s := by
      rw [putSlot_putSlot, putSlot_self hnull, putSlot_self hnull']
    simp only [doPipe, Bool.not_true, Bool.false_eq_true, if_false, hfd, setFd_slot hi,
      bind_some, hfd', setFd_slot hj, hback]
    rw [if_neg (by omega)]
    cases vnode with
    | none => exact ⟨ENOMEM, s, rfl, .refl ha hs _⟩
    | some vnode =>
      rcases newFileptr_spec s vnode with hnone | ⟨n, hn, hnew⟩
      · exact ⟨ENFILE, s, by simp only [vfsCreatePipe, hnone], .refl ha hs _⟩
      rcases newFileptr_spec { s with fileTable := update s.fileTable n ⟨some vnode, 1⟩ }
        vnode with hnone | ⟨m, hm, hnew'⟩
      · refine ⟨ENFILE, s, ?_, .refl ha hs _⟩
        simp only [vfsCreatePipe, hnew, hnone, ha.freeFileptr_new hn]
      have ha₁ := ha.create ht hi hnull hn vnode
      have hnull₁ : ((create s table i n vnode).tables table).files j = .null := by
        rw [create, putSlot_files, if_neg (by tauto)]
        exact hnull'
      refine ⟨0, create (create s table i n vnode) table j m vnode, ?_,
        ha₁.create ht hj hnull₁ hm vnode, (hs.same create_same).same create_same,
        .of_le rfl fun x => (total_le_create ht hi hnull x).trans
          (total_le_create (s := create s table i n vnode) ht hj hnull₁ x), fun h => by omega⟩
      simp only [vfsCreatePipe, hnew, hnew', map_some]
      rfl

lemma attach_detach {ex : ℕ} : attach (detach s table i ex) table i n =
    putSlot (dupFileptr (vfsClose s ex) n) table i (.file n) :=
  putSlot_putSlot (dupFileptr (vfsClose s ex) n) table i .null (.file n)

lemma doDup2_spec (ha : Accounted s) (hs : Shared s) (ht : table < s.tableCount)
    {oldfd newfd : ℤ} (hsound : Sound s table (.dup2 oldfd newfd)) :
    ∃ ret t, doDup2 s table oldfd newfd = some (ret, t) ∧ Outcome s ret t := by
  obtain ⟨hold, hnew⟩ := hsound
  rw [doDup2]
  rcases getFd_spec ha ht hold with ⟨hnone, -⟩ | ⟨n, hlt, hslot, hsome⟩
  · rw [hnone]
    exact ⟨EBADF, s, rfl, .refl ha hs _⟩
  rw [hsome, bind_some]
  by_cases hmax : (openMax : ℤ) ≤ newfd
  · simp only [if_pos hmax]
    exact ⟨EBADF, s, rfl, .refl ha hs _⟩
  obtain ⟨hnonneg, hself⟩ := hnew n hlt hslot
  obtain ⟨i, rfl⟩ := Int.eq_ofNat_of_zero_le hnonneg
  have hi : i < openMax := by omega
  have hdup : ∀ t : State, dupFd t table i n = some (putSlot (dupFileptr t n) table i (.file n)) := by
    intro t
    rw [dupFd, if_neg hmax, writeSlot, if_pos ⟨by omega, by omega⟩, Int.toNat_natCast]
  have hopen : 0 < total s n := total_pos ht (by omega) hslot
  simp only [if_neg hmax, hdup, map_some]
  rcases getFd_spec ha ht hnonneg with ⟨hnone, hnull⟩ | ⟨ex, -, hex, hsome'⟩
  · have hnull' := hnull (by omega)
    rw [Int.toNat_natCast] at hnull'
    rw [hnone, bind_some]
    refine ⟨0, attach s table i n, rfl, ha.attach ht hi hnull' hopen, hs.same attach_same,
      .of_le rfl fun m => ?_, fun h => by omega⟩
    rw [total_attach ht hi hnull']
    omega
  · rw [Int.toNat_natCast] at hex
    rw [hsome', bind_some]
    simp only [← attach_detach]
    have had := ha.detach ht hi hex
    have hnull : ((detach s table i ex).tables table).files i = .null := by
      rw [detach_tables, putSlot_files, if_pos ⟨rfl, rfl⟩]
    have ht' : table < (detach s table i ex).tableCount := by rwa [detach_tableCount]
    have htotal : ∀ m, total (attach (detach s table i ex) table i n) m + (if ex = m then 1 else 0) =
        total s m + if n = m then 1 else 0 := by
      intro m
      have hd := total_detach ht hi hex m
      rw [total_attach ht' hi hnull]
      omega
    have hstays : ex = n → 1 < total s n := by
      rintro rfl
      have href := ha.refcount ex
      by_cases heq : oldfd = i
      · have := hself heq.symm
        omega
      · have hput := total_putSlot ht hi .null ex
        rw [if_pos hex, if_neg (by simp)] at hput
        have hrest : 0 < total (putSlot s table i .null) ex := by
          refine total_pos (i := oldfd.toNat) ht (by omega) ?_
          rw [putSlot_files, if_neg (by omega)]
          exact hslot
        omega
    have hopen' : 0 < total (detach s table i ex) n := by
      have hd := total_detach ht hi hex n
      by_cases heq : ex = n
      · have := hstays heq
        rw [if_pos heq] at hd
        omega
      · rw [if_neg heq] at hd
        omega
    refine ⟨0, _, rfl, had.attach ht' hi hnull hopen', (hs.same detach_same).same attach_same, ?_,
      fun h => by omega⟩
    obtain ⟨l, hl, hnodup, hmem⟩ := closesLast_detach ha ht hi hex
    refine ⟨l, hl, hnodup, fun m => ?_⟩
    have hd := total_detach ht hi hex m
    rw [hmem m, total_attach ht' hi hnull]
    by_cases hnm : n = m
    · subst hnm
      omega
    · rw [if_neg hnm, Nat.add_zero]
end Calls
section Tables

structure Released (table : ℕ) (s t : State) : Prop where
  accounted : Accounted t
  same : SameTables s t
  le : ∀ n, total t n ≤ total s n
  closes : ClosesLast s t
  vnode : ∀ n, 0 < total t n → (t.fileTable n).vnode = (s.fileTable n).vnode
  others : ∀ k ≠ table, t.tables k = s.tables k

lemma Released.refl (ha : Accounted s) : Released table s s :=
  ⟨ha, .refl s, fun _ => le_rfl, .of_le rfl fun _ => le_rfl, fun _ _ => rfl, fun _ _ => rfl⟩

lemma Released.trans (h : Released table s t) (h' : Released table t u) : Released table s u := by
  refine ⟨h'.accounted, h.same.trans h'.same, fun n => (h'.le n).trans (h.le n), ?_, fun n hn => ?_,
    fun k hk => (h'.others k hk).trans (h.others k hk)⟩
  · obtain ⟨l, hl, hnodup, hmem⟩ := h.closes
    obtain ⟨l', hl', hnodup', hmem'⟩ := h'.closes
    refine ⟨l ++ l', by rw [hl', hl, append_assoc], ?_, fun n => ?_⟩
    · refine List.Nodup.append hnodup hnodup' fun n hn hn' => ?_
      have h₁ := (hmem n).mp hn
      have h₂ := (hmem' n).mp hn'
      omega
    · have hle := h'.le n
      have hle' := h.le n
      rw [mem_append, hmem n, hmem' n]
      omega
  · have hle := h'.le n
    rw [h'.vnode n hn, h.vnode n (by omega)]

lemma Released.slot (ha : Accounted s) (ht : table < s.tableCount) (hi : i < openMax) :
    Released table s (releaseSlot table s i) ∧
      ((releaseSlot table s i).tables table).files i = .null ∧
      ∀ j ≠ i, ((releaseSlot table s i).tables table).files j = (s.tables table).files j := by
  rw [releaseSlot]
  cases hslot : (s.tables table).files i with
  | null => exact ⟨.refl ha, hslot, fun j _ => rfl⟩
  | one => exact absurd hslot (ha.placeholder table ht i hi)
  | file n =>
    simp only
    rw [← detach]
    refine ⟨⟨ha.detach ht hi hslot, detach_same, fun m => ?_, closesLast_detach ha ht hi hslot,
      fun m hm => ?_, fun k hk => ?_⟩, ?_, fun j hj => ?_⟩
    · have := total_detach ht hi hslot m
      omega
    · have hm' := total_detach ht hi hslot m
      rw [detach_fileTable]
      by_cases hmn : m = n
      · subst hmn
        rw [if_pos rfl] at hm'
        rw [update_self, ha.refcount m]
        simp only
        rw [if_neg (by omega)]
      · rw [update_of_ne hmn]
    · rw [detach_tables, putSlot]
      exact update_of_ne hk _ _
    · rw [detach_tables, putSlot_files, if_pos ⟨rfl, rfl⟩]
    · rw [detach_tables, putSlot_files, if_neg (by tauto)]

lemma Released.slots {l : List ℕ} (hl : ∀ i ∈ l, i < openMax) (ha : Accounted s)
    (ht : table < s.tableCount) : Released table s (l.foldl (releaseSlot table) s) ∧
      (∀ i ∈ l, ((l.foldl (releaseSlot table) s).tables table).files i = .null) ∧
      ∀ i, (s.tables table).files i = .null →
        ((l.foldl (releaseSlot table) s).tables table).files i = .null := by
  induction l generalizing s with
  | nil => exact ⟨.refl ha, by simp, fun _ h => h⟩
  | cons i l ih =>
    obtain ⟨hrel, hnull, hother⟩ := Released.slot ha ht (hl i mem_cons_self)
    have ht' : table < (releaseSlot table s i).tableCount := by rwa [hrel.same.tableCount]
    obtain ⟨hrel', hall, hkeep⟩ := ih (fun j hj => hl j (mem_cons_of_mem _ hj))
      hrel.accounted ht'
    refine ⟨hrel.trans hrel', fun j hj => ?_, fun j hj => hkeep j ?_⟩
    · rcases mem_cons.mp hj with rfl | hin
      · exact hkeep j hnull
      · exact hall j hin
    · by_cases hji : j = i
      · rw [hji, hnull]
      · rw [hother j hji, hj]

lemma releaseFdTable_spec (ha : Accounted s) (ht : table < s.tableCount) :
    Released table s (releaseFdTable s table) ∧
      ∀ i < openMax, ((releaseFdTable s table).tables table).files i = .null := by
  obtain ⟨hrel, hall, -⟩ := Released.slots (l := List.range openMax)
    (fun i hi => mem_range.mp hi) ha ht
  exact ⟨hrel, fun i hi => hall i (mem_range.mpr hi)⟩

lemma setTableRefcount_files (refcount : ℤ) (k : ℕ) :
    ((setTableRefcount s table refcount).tables k).files = (s.tables k).files := by
  by_cases hk : k = table
  · subst hk
    simp only [setTableRefcount, update_self]
  · simp only [setTableRefcount, update_of_ne hk]

variable {k : ℕ}

lemma setTableRefcount_tables (refcount : ℤ) (hk : k ≠ table) :
    (setTableRefcount s table refcount).tables k = s.tables k :=
  update_of_ne hk _ _

lemma total_setTableRefcount (refcount : ℤ) (n : ℕ) :
    total (setTableRefcount s table refcount) n = total s n := by
  refine Finset.sum_congr rfl fun k _ => ?_
  simp only [slotCount, setTableRefcount_files]

lemma Accounted.setTableRefcount (ha : Accounted s) (table : ℕ) (refcount : ℤ) :
    Accounted (FileDesc.setTableRefcount s table refcount) := by
  refine ⟨fun n => ?_, fun n => ?_, fun k hk i hi => ?_⟩
  · rw [total_setTableRefcount]
    exact ha.refcount n
  · rw [total_setTableRefcount]
    exact ha.vnode n
  · rw [setTableRefcount_files]
    exact ha.placeholder k hk i hi

lemma Accounted.procs (ha : Accounted s) (procs : ℕ → Option ℕ) (procCount : ℕ) :
    Accounted { s with procs := procs, procCount := procCount } :=
  ⟨ha.refcount, ha.vnode, ha.placeholder⟩

lemma freeFdTable_spec (ha : Accounted s) (ht : table < s.tableCount) :
    Released table (setTableRefcount s table ((s.tables table).refcount - 1))
      (freeFdTable s table) ∧ ((s.tables table).refcount = 1 →
      ∀ i < openMax, ((freeFdTable s table).tables table).files i = .null) := by
  have ha' := ha.setTableRefcount table ((s.tables table).refcount - 1)
  simp only [freeFdTable]
  by_cases hlast : (s.tables table).refcount - 1 = 0
  · rw [if_pos hlast]
    obtain ⟨hrel, hnull⟩ := releaseFdTable_spec ha' ht
    exact ⟨hrel, fun _ => hnull⟩
  · rw [if_neg hlast]
    exact ⟨.refl ha', fun h => absurd h (by omega)⟩

lemma setTableRefcount_refcount (refcount : ℤ) (k : ℕ) :
    ((setTableRefcount s table refcount).tables k).refcount =
      if k = table then refcount else (s.tables k).refcount := by
  by_cases hk : k = table
  · subst hk
    simp only [setTableRefcount, update_self, if_true]
  · simp only [setTableRefcount, update_of_ne hk, if_neg hk]

lemma uses_update (procs : ℕ → Option ℕ) {p count : ℕ} (hp : p < count) (dest : Option ℕ)
    (k : ℕ) : uses (update procs p dest) count k + (if procs p = some k then 1 else 0) =
      uses procs count k + if dest = some k then 1 else 0 :=
  count_update 1 (· = some k) (Finset.mem_range.mpr hp) procs dest

lemma Shared.uses_eq_zero (hs : Shared s) (hk : s.tableCount ≤ k) :
    uses s.procs s.procCount k = 0 := by
  refine Finset.sum_eq_zero fun p _ => ?_
  rw [if_neg]
  intro hp
  have := (hs.procs p k hp).2
  omega

variable {proc : ℕ}

lemma doExit_spec (ha : Accounted s) (hs : Shared s)
    (hproc : s.procs proc = some table) : Outcome s 0 (doExit s proc table) := by
  obtain ⟨hp, ht⟩ := hs.procs proc table hproc
  have ha' := ha.procs (update s.procs proc none) s.procCount
  obtain ⟨hrel, -⟩ := freeFdTable_spec ha' ht
  rw [doExit]
  refine ⟨hrel.accounted, ⟨fun k hk => ?_, fun p k hpk => ?_⟩, ?_, fun h => by omega⟩
  · rw [hrel.same.refcount, hrel.same.procCount, hrel.same.procs, setTableRefcount_refcount]
    have hsum := uses_update s.procs hp none k
    rw [hproc, if_neg (by simp : ¬ none = some k)] at hsum
    have hold := hs.refcount k (hrel.same.tableCount ▸ hk)
    change (if k = table then (s.tables table).refcount - 1 else (s.tables k).refcount) =
      uses (update s.procs proc none) s.procCount k
    by_cases hkt : k = table
    · subst hkt
      rw [if_pos rfl] at hsum ⊢
      omega
    · rw [if_neg fun h => hkt (some.inj h).symm] at hsum
      rw [if_neg hkt]
      omega
  · rw [hrel.same.procs] at hpk
    rw [hrel.same.procCount, hrel.same.tableCount]
    simp only [setTableRefcount] at hpk
    by_cases hpp : p = proc
    · rw [hpp, update_self] at hpk
      exact absurd hpk (by simp)
    · rw [update_of_ne hpp] at hpk
      exact hs.procs p k hpk
  · obtain ⟨l, hl, hnodup, hmem⟩ := hrel.closes
    refine ⟨l, hl, hnodup, fun n => ?_⟩
    rw [hmem n, total_setTableRefcount]
    rfl

structure Copied (dest : ℕ) (s t : State) : Prop where
  accounted : Accounted t
  same : SameTables s t
  le : ∀ n, total s n ≤ total t n
  pos : ∀ n, 0 < total t n → 0 < total s n
  closes : t.closes = s.closes
  vnode : ∀ n, (t.fileTable n).vnode = (s.fileTable n).vnode
  others : ∀ k ≠ dest, t.tables k = s.tables k

variable {dest : ℕ}

lemma Copied.refl (ha : Accounted s) : Copied dest s s :=
  ⟨ha, .refl s, fun _ => le_rfl, fun _ h => h, rfl, fun _ => rfl, fun _ _ => rfl⟩

lemma Copied.trans (h : Copied dest s t) (h' : Copied dest t u) : Copied dest s u :=
  ⟨h'.accounted, h.same.trans h'.same, fun n => (h.le n).trans (h'.le n),
    fun n hn => h.pos n (h'.pos n hn), h'.closes.trans h.closes,
    fun n => (h'.vnode n).trans (h.vnode n), fun k hk => (h'.others k hk).trans (h.others k hk)⟩

lemma Copied.slot (ha : Accounted s) (ht : table < s.tableCount)
    (hd : dest < s.tableCount) (hi : i < openMax) (hnull : (s.tables dest).files i = .null) :
    Copied dest s (dupSlot dest table s i) ∧
      ∀ j ≠ i, ((dupSlot dest table s i).tables dest).files j = (s.tables dest).files j := by
  rw [dupSlot]
  cases hslot : (s.tables table).files i with
  | null => exact ⟨.refl ha, fun _ _ => rfl⟩
  | one => exact ⟨.refl ha, fun _ _ => rfl⟩
  | file n =>
    simp only
    rw [← attach]
    have hopen := total_pos ht hi hslot
    have htotal := total_attach (n := n) hd hi hnull
    refine ⟨⟨ha.attach hd hi hnull hopen, attach_same, fun m => ?_, fun m hm => ?_, rfl,
      fun m => ?_, fun k hk => ?_⟩, fun j hj => ?_⟩
    · rw [htotal]
      omega
    · rw [htotal] at hm
      by_cases hnm : n = m
      · rwa [← hnm]
      · rw [if_neg hnm] at hm
        omega
    · rw [attach_fileTable]
      by_cases hmn : m = n
      · rw [hmn, update_self]
      · rw [update_of_ne hmn]
    · exact update_of_ne hk _ _
    · rw [attach, putSlot_files, if_neg (by tauto)]
      rfl

lemma Copied.slots {l : List ℕ} (hl : ∀ i ∈ l, i < openMax) (hnodup : l.Nodup)
    (ha : Accounted s) (ht : table < s.tableCount) (hd : dest < s.tableCount)
    (hnull : ∀ i ∈ l, (s.tables dest).files i = .null) :
    Copied dest s (l.foldl (dupSlot dest table) s) := by
  induction l generalizing s with
  | nil => exact .refl ha
  | cons i l ih =>
    obtain ⟨hcopy, hkeep⟩ := Copied.slot ha ht hd (hl i mem_cons_self)
      (hnull i mem_cons_self)
    obtain ⟨hnot, hnodup'⟩ := nodup_cons.mp hnodup
    refine hcopy.trans (ih (fun j hj => hl j (mem_cons_of_mem _ hj)) hnodup' hcopy.accounted
      (by rwa [hcopy.same.tableCount]) (by rwa [hcopy.same.tableCount]) fun j hj => ?_)
    rw [hkeep j fun h => hnot (h ▸ hj)]
    exact hnull j (mem_cons_of_mem _ hj)

lemma slotCount_null (refcount : ℤ) (n : ℕ) : slotCount ⟨refcount, fun _ => .null⟩ n = 0 := by
  simp [slotCount]

lemma slotCount_of_null {files : FdTable} (h : ∀ i < openMax, files.files i = .null) (n : ℕ) :
    slotCount files n = 0 := by
  refine Finset.sum_eq_zero fun i hi => ?_
  rw [h i (Finset.mem_range.mp hi), if_neg (by simp)]

lemma total_succ (hcount : t.tableCount = s.tableCount + 1)
    (htables : ∀ k < s.tableCount, t.tables k = s.tables k) (n : ℕ) :
    total t n = total s n + slotCount (t.tables s.tableCount) n := by
  have hsame : ∑ k ∈ Finset.range s.tableCount, slotCount (t.tables k) n =
      ∑ k ∈ Finset.range s.tableCount, slotCount (s.tables k) n :=
    Finset.sum_congr rfl fun k hk => by rw [htables k (Finset.mem_range.mp hk)]
  rw [total, hcount, Finset.sum_range_succ, hsame, total]

lemma allocFdTable_tables (hk : k < s.tableCount) : (allocFdTable s).2.tables k = s.tables k :=
  update_of_ne (by omega) _ _

lemma total_allocFdTable (n : ℕ) : total (allocFdTable s).2 n = total s n := by
  rw [total_succ (s := s) (t := (allocFdTable s).2) rfl (fun k hk => allocFdTable_tables hk)]
  simp only [allocFdTable, update_self, slotCount_null, Nat.add_zero]

lemma Accounted.alloc (ha : Accounted s) : Accounted (allocFdTable s).2 := by
  refine ⟨fun n => ?_, fun n => ?_, fun k hk i hi => ?_⟩
  · rw [total_allocFdTable]
    exact ha.refcount n
  · rw [total_allocFdTable]
    exact ha.vnode n
  · by_cases hkt : k < s.tableCount
    · rw [allocFdTable_tables hkt]
      exact ha.placeholder k hkt i hi
    · obtain rfl : k = s.tableCount := by
        simp only [allocFdTable] at hk
        omega
      simp [allocFdTable]

lemma cloneFdTable_copied (ha : Accounted s) (ht : table < s.tableCount) :
    ∃ t, cloneFdTable s table false = (s.tableCount, t) ∧
      Copied s.tableCount (allocFdTable s).2 t := by
  refine ⟨_, rfl, Copied.slots (fun i hi => ?_) nodup_range ha.alloc
    (Nat.lt_succ_of_lt ht) (Nat.lt_succ_self _) fun i _ => ?_⟩
  · simpa [openMax] using hi
  · simp [allocFdTable]

lemma Shared.addProc (hs : Shared s) {d : ℕ} (hd : d < t.tableCount)
    (hprocs : t.procs = update s.procs s.procCount (some d))
    (hcount : t.procCount = s.procCount + 1) (htables : s.tableCount ≤ t.tableCount)
    (hold : ∀ k < s.tableCount, (t.tables k).refcount =
      (s.tables k).refcount + if k = d then 1 else 0)
    (hnew : ∀ k < t.tableCount, s.tableCount ≤ k → (t.tables k).refcount = if k = d then 1 else 0) :
    Shared t := by
  have hsum : ∀ k, uses t.procs t.procCount k =
      uses s.procs s.procCount k + if k = d then 1 else 0 := by
    intro k
    have hsame : uses t.procs s.procCount k = uses s.procs s.procCount k := by
      refine Finset.sum_congr rfl fun p hp => ?_
      rw [hprocs, update_of_ne (Nat.ne_of_lt (Finset.mem_range.mp hp))]
    have hlast : uses t.procs t.procCount k = uses t.procs s.procCount k +
        if t.procs s.procCount = some k then 1 else 0 := by
      rw [hcount]
      exact Finset.sum_range_succ _ _
    rw [hlast, hsame, hprocs, update_self]
    by_cases hkd : k = d
    · rw [if_pos hkd, if_pos (congrArg some hkd.symm)]
    · rw [if_neg hkd, if_neg fun h => hkd (some.inj h).symm]
  refine ⟨fun k hk => ?_, fun p k hp => ?_⟩
  · rw [hsum k]
    by_cases hkt : k < s.tableCount
    · rw [hold k hkt, hs.refcount k hkt]
    · rw [hnew k hk (by omega), hs.uses_eq_zero (by omega), zero_add]
  · rw [hprocs] at hp
    by_cases hpc : p = s.procCount
    · rw [hpc, update_self] at hp
      obtain rfl := some.inj hp
      exact ⟨by omega, hd⟩
    · rw [update_of_ne hpc] at hp
      have := hs.procs p k hp
      omega

section
variable (ha : Accounted s) (hs : Shared s) (ht : table < s.tableCount)
include ha hs ht

lemma doFork_shared :
    Outcome s (doFork s table true .succeeds).1 (doFork s table true .succeeds).2 := by
  have ha' := (ha.setTableRefcount table ((s.tables table).refcount + 1)).procs
    (update s.procs s.procCount (some table)) (s.procCount + 1)
  refine ⟨ha', ?_, .of_le rfl fun n => ?_, fun h => ?_⟩
  · refine hs.addProc (d := table) ht rfl rfl le_rfl (fun k _ => ?_) fun k hk hle => ?_
    · simp only [doFork, cloneFdTable, if_true, setTableRefcount_refcount]
      split_ifs with hkt
      · rw [hkt]
      · rw [add_zero]
    · exact absurd hk (by simp only [doFork, cloneFdTable, if_true, setTableRefcount]; omega)
  · exact (total_setTableRefcount (s := s) _ n).ge
  · simp only [doFork, cloneFdTable, if_true, setTableRefcount] at h
    omega

lemma doFork_copy :
    Outcome s (doFork s table false .succeeds).1 (doFork s table false .succeeds).2 := by
  obtain ⟨t, hclone, hcopy⟩ := cloneFdTable_copied ha ht
  simp only [doFork, hclone]
  have hprocs : t.procs = s.procs := hcopy.same.procs
  have hcount : t.procCount = s.procCount := hcopy.same.procCount
  have htables : t.tableCount = s.tableCount + 1 := hcopy.same.tableCount
  refine ⟨hcopy.accounted.procs _ _, ?_, .of_le hcopy.closes fun n => ?_, fun h => by omega⟩
  · refine hs.addProc (d := s.tableCount) (by simp only [htables]; omega)
      (by simp only [hprocs, hcount]) (by simp only [hcount]) (by simp only [htables]; omega)
      (fun k hk => ?_) fun k hk hle => ?_
    · simp only
      rw [hcopy.same.refcount, allocFdTable_tables hk, if_neg (by omega), add_zero]
    · simp only [htables] at hk
      obtain rfl : k = s.tableCount := by omega
      simp only
      rw [hcopy.same.refcount]
      simp [allocFdTable]
  · exact (total_allocFdTable n).ge.trans (hcopy.le n)

lemma doFork_copy_fails (error : ℤ) : Outcome s error (doFork s table false (.failsAfter error)).2 ∧
      (doFork s table false (.failsAfter error)).1 = error := by
  obtain ⟨t, hclone, hcopy⟩ := cloneFdTable_copied ha ht
  simp only [doFork, hclone, and_true]
  have htables : t.tableCount = s.tableCount + 1 := hcopy.same.tableCount
  obtain ⟨hrel, hnull⟩ := freeFdTable_spec hcopy.accounted
    (show s.tableCount < t.tableCount by omega)
  have hone : (t.tables s.tableCount).refcount = 1 := by
    rw [hcopy.same.refcount]
    simp [allocFdTable]
  set u := freeFdTable t s.tableCount
  have hcount : u.tableCount = s.tableCount + 1 := hrel.same.tableCount.trans htables
  have hkeep : ∀ k < s.tableCount, u.tables k = s.tables k := by
    intro k hk
    rw [hrel.others k (by omega), setTableRefcount_tables _ (by omega),
      hcopy.others k (by omega), allocFdTable_tables hk]
  have htotal : ∀ n, total u n = total s n := by
    intro n
    rw [total_succ hcount hkeep, slotCount_of_null (hnull hone), Nat.add_zero]
  have hpos : ∀ n, 0 < total t n → 0 < total s n := fun n hn =>
    total_allocFdTable (s := s) n ▸ hcopy.pos n hn
  have hcloses : u.closes = s.closes := by
    obtain ⟨l, hl, -, hmem⟩ := hrel.closes
    have hnil : l = [] := by
      refine eq_nil_iff_forall_not_mem.mpr fun n hn => ?_
      obtain ⟨h₁, h₂⟩ := (hmem n).mp hn
      rw [total_setTableRefcount] at h₁
      have := hpos n h₁
      rw [htotal n] at h₂
      omega
    rw [hl, hnil, append_nil]
    exact hcopy.closes
  have hfiles : u.fileTable = s.fileTable := by
    funext n
    have href : (u.fileTable n).refcount = (s.fileTable n).refcount := by
      rw [hrel.accounted.refcount n, ha.refcount n, htotal n]
    have hvnode : (u.fileTable n).vnode = (s.fileTable n).vnode := by
      by_cases hn : 0 < total u n
      · rw [hrel.vnode n hn]
        exact hcopy.vnode n
      · have h₁ := (not_congr (hrel.accounted.vnode n)).mpr hn
        have h₂ := (not_congr (ha.vnode n)).mpr (htotal n ▸ hn)
        rw [not_isSome_iff_eq_none] at h₁ h₂
        rw [h₁, h₂]
    exact congrArg₂ Vfile.mk hvnode href
  have hprocs : u.procs = s.procs := hrel.same.procs.trans hcopy.same.procs
  have hproc : u.procCount = s.procCount := hrel.same.procCount.trans hcopy.same.procCount
  refine ⟨hrel.accounted, ⟨fun k hk => ?_, fun p k hp => ?_⟩,
    .of_le hcloses fun n => (htotal n).ge, fun _ => ⟨hfiles, hkeep, hcloses⟩⟩
  · rw [hprocs, hproc]
    by_cases hkt : k < s.tableCount
    · rw [hkeep k hkt]
      exact hs.refcount k hkt
    · obtain rfl : k = s.tableCount := by omega
      rw [hrel.same.refcount, setTableRefcount_refcount, if_pos rfl, hone, sub_self,
        hs.uses_eq_zero le_rfl]
  · rw [hprocs] at hp
    have := hs.procs p k hp
    omega
end

lemma doFork_shared_fails (hs : Shared s) (hproc : s.procs proc = some table) (error : ℤ) :
    doFork s table true (.failsAfter error) = (error, s) := by
  obtain ⟨hp, ht⟩ := hs.procs proc table hproc
  have huse : 0 < (s.tables table).refcount := by
    have hsum := uses_update s.procs hp none table
    rw [if_pos hproc, if_neg (by simp), add_zero, ← hs.refcount table ht] at hsum
    have hnonneg : 0 ≤ uses (update s.procs proc none) s.procCount table :=
      Finset.sum_nonneg fun p _ => by split_ifs <;> norm_num
    omega
  simp only [doFork, cloneFdTable, if_true, freeFdTable, setTableRefcount, update_self,
    update_idem, add_sub_cancel_right]
  rw [if_neg (by omega)]
  simp only [update_eq_self]

lemma doFork_spec (ha : Accounted s) (hs : Shared s)
    (hproc : s.procs proc = some table) (share : Bool) (forking : Forking) :
    Outcome s (doFork s table share forking).1 (doFork s table share forking).2 := by
  have ht := (hs.procs proc table hproc).2
  cases forking with
  | failsBefore error => exact .refl ha hs _
  | failsAfter error =>
    cases share with
    | true =>
      rw [doFork_shared_fails hs hproc]
      exact .refl ha hs _
    | false =>
      obtain ⟨hout, hret⟩ := doFork_copy_fails ha hs ht error
      rw [hret]
      exact hout
  | succeeds =>
    cases share with
    | true => exact doFork_shared ha hs ht
    | false => exact doFork_copy ha hs ht
end Tables

/-- Every sound call keeps the counts. -/
lemma perform_spec {proc : ℕ} (ha : Accounted s) (hs : Shared s)
    (hproc : s.procs proc = some table) {call : Call} (hsound : Sound s table call) :
    ∃ ret t, perform s proc table call = some (ret, t) ∧ Outcome s ret t := by
  have ht := (hs.procs proc table hproc).2
  cases call with
  | openFile opening => exact doOpen_spec ha hs ht opening
  | close fd => exact doClose_spec ha hs ht hsound
  | dup2 oldfd newfd => exact doDup2_spec ha hs ht hsound
  | pipe pipefd vnode => exact doPipe_spec ha hs ht vnode hsound
  | fork share forking => exact ⟨_, _, rfl, doFork_spec ha hs hproc share forking⟩
  | exit => exact ⟨0, _, rfl, doExit_spec ha hs hproc⟩

lemma total_initial (n : ℕ) : total initial n = 0 :=
  Finset.sum_eq_zero fun _ _ => slotCount_null _ _

lemma accounted_initial : Accounted initial := by
  refine ⟨fun n => ?_, fun n => ?_, fun k hk i hi => by simp [initial]⟩
  · rw [total_initial]
    rfl
  · rw [total_initial]
    simp [initial]

lemma shared_initial : Shared initial := by
  refine ⟨fun k hk => ?_, fun p k hp => ?_⟩
  · obtain rfl : k = 0 := by
      simp only [initial] at hk
      omega
    simp [initial, uses]
  · simp only [initial] at hp ⊢
    by_cases hp0 : p = 0
    · rw [hp0, update_self] at hp
      obtain rfl := some.inj hp
      omega
    · rw [update_of_ne hp0] at hp
      exact absurd hp (by simp)

def SoundCall (s : State) (event : ℕ × Call) : Prop :=
  ∀ table, s.procs event.1 = some table → Sound s table event.2

/-- After every run of sound calls each open file is counted once for every slot that holds it, and
is closed exactly when its last slot goes away. -/
theorem fd_references_accounted {events : List (ℕ × Call)} {s : State}
    (hrun : Run (Guarded SoundCall Step) initial events s) :
    (∀ n, (s.fileTable n).refcount = total s n ∧ ((s.fileTable n).vnode.isSome ↔ 0 < total s n)) ∧
    ∀ proc table call, s.procs proc = some table → Sound s table call →
      ∃ ret t, perform s proc table call = some (ret, t) ∧
        (∃ l, t.closes = s.closes ++ l ∧ l.Nodup ∧ ∀ n, n ∈ l ↔ 0 < total s n ∧ total t n = 0) ∧
        (ret < 0 → t.fileTable = s.fileTable ∧ (∀ k < s.tableCount, t.tables k = s.tables k) ∧
          t.closes = s.closes) := by
  have hinv : Accounted s ∧ Shared s := by
    refine hrun.preserves (I := fun s => Accounted s ∧ Shared s)
      ⟨accounted_initial, shared_initial⟩ ?_
    rintro s ⟨proc, call⟩ t ⟨ha, hs⟩ ⟨hsound, table, ret, hproc, -, hstep⟩
    obtain ⟨ret', t', hperform, hout⟩ := perform_spec ha hs hproc (hsound table hproc)
    obtain ⟨-, rfl⟩ := Prod.mk.inj (some.inj (hperform.symm.trans hstep))
    exact ⟨hout.accounted, hout.shared⟩
  obtain ⟨ha, hs⟩ := hinv
  refine ⟨fun n => ⟨ha.refcount n, ha.vnode n⟩, fun proc table call hproc hsound => ?_⟩
  obtain ⟨ret, t, hperform, hout⟩ := perform_spec ha hs hproc hsound
  exact ⟨ret, t, hperform, hout.closes, hout.failed⟩

theorem fd_references_accounted_dup : ∃ s, Run (Guarded SoundCall Step) initial
    ([(0, .openFile (.reaches 7 none))] ++ [(0, .dup2 0 3)] ++ [(0, .close 0)]) s ∧
      (s.fileTable 0).refcount = 1 ∧ total s 0 = 1 := by
  obtain ⟨s, hrun, hone⟩ : ∃ s, Run (Guarded SoundCall Step) initial
      ([(0, .openFile (.reaches 7 none))] ++ [(0, .dup2 0 3)] ++ [(0, .close 0)]) s ∧
        (s.fileTable 0).refcount = 1 := by
    refine ⟨_, .snoc (.snoc (.one ⟨fun _ _ => trivial, 0, 0, rfl, trivial, rfl⟩)
      ⟨fun _ _ => ⟨le_rfl, fun _ _ _ => ⟨by decide, fun h => absurd h (by decide)⟩⟩, 0, 0, rfl, trivial, rfl⟩)
      ⟨fun _ _ => le_rfl, 0, 0, rfl, trivial, rfl⟩, rfl⟩
  have htotal := ((fd_references_accounted hrun).1 0).1
  rw [hone] at htotal
  exact ⟨s, hrun, hone, by exact_mod_cast htotal.symm⟩

/-- `dup2` of a descriptor to itself closes its file. -/
theorem dup2_self_closes : ∃ s t, Run Step initial [(0, .openFile (.reaches 7 none))] s ∧
    Run Step s [(0, .dup2 0 0)] t ∧ (s.tables 0).files 0 = .file 0 ∧
    (t.tables 0).files 0 = .file 0 ∧ t.closes = [0] ∧ (t.fileTable 0).vnode = none := by
  refine ⟨_, _, Run.one ⟨0, 0, rfl, trivial, rfl⟩, Run.one ⟨0, 0, rfl, trivial, rfl⟩, rfl, rfl, rfl,
    rfl⟩

end Gloworm.FileDesc
