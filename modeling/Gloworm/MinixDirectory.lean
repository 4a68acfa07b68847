import Gloworm.FullCreate

/-! The entries of a minix directory, and what the calls that create and remove one do to the names
that can be looked up. -/
namespace Gloworm.MinixDir
open FullCreate Bitmap Ext2Inode List Option
open Ext2Alloc (Byte)

def dirFindEntryByName (entries : List Dirent) (name : List Byte) : Option ℕ :=
  entries.findIdx? fun entry => entry.inode ≠ 0 ∧ entry.filename = name

def setInode (entries : List Dirent) (i ino : ℕ) : List Dirent :=
  entries.modify i fun entry => { entry with inode := ino }

variable {ino i : ℕ}

section Entries

def Live (entries : List Dirent) (k : ℕ) (entry : Dirent) : Prop :=
  entries[k]? = some entry ∧ entry.inode ≠ 0

def Unique (entries : List Dirent) : Prop :=
  ∀ k k' entry entry', Live entries k entry → Live entries k' entry' →
    entry.filename = entry'.filename → k = k'

variable {entries entries' : List Dirent} {name : List Byte}

lemma minixLookup_eq_none_iff :
    minixLookup name entries = none ↔ ∀ k entry, Live entries k entry → entry.filename ≠ name := by
  rw [minixLookup, map_eq_none_iff, List.find?_eq_none]
  constructor
  · intro hall k entry hlive hname
    have hentry := hall entry (List.mem_of_getElem? hlive.1)
    simp [hlive.2, hname] at hentry
  · intro hall entry hmem hentry
    simp only [ne_eq, decide_eq_true_eq] at hentry
    obtain ⟨k, hk⟩ := List.mem_iff_getElem?.mp hmem
    exact hall k entry ⟨hk, hentry.1⟩ hentry.2

lemma exists_live_of_minixLookup (h : minixLookup name entries = some ino) :
    ∃ k entry, Live entries k entry ∧ entry.filename = name ∧ entry.inode = ino := by
  rw [minixLookup, map_eq_some_iff] at h
  obtain ⟨entry, hfind, hino⟩ := h
  have hentry := List.find?_some hfind
  simp only [ne_eq, decide_eq_true_eq] at hentry
  obtain ⟨k, hk⟩ := List.mem_iff_getElem?.mp (List.mem_of_find?_eq_some hfind)
  exact ⟨k, entry, ⟨hk, hentry.1⟩, hentry.2, hino⟩

lemma minixLookup_eq_some {k : ℕ} {entry : Dirent} (hlive : Live entries k entry)
    (hsole : ∀ k' entry', Live entries k' entry' → entry'.filename = entry.filename →
      entry'.inode = entry.inode) : minixLookup entry.filename entries = some entry.inode := by
  cases hlookup : minixLookup entry.filename entries with
  | none => exact absurd rfl (minixLookup_eq_none_iff.mp hlookup k entry hlive)
  | some ino =>
    obtain ⟨k', entry', hlive', hname, rfl⟩ := exists_live_of_minixLookup hlookup
    rw [hsole k' entry' hlive' hname]

lemma minixLookup_eq_some_iff : minixLookup name entries = some ino ↔
      ∃ k entry, Live entries k entry ∧ entry.filename = name ∧ entry.inode = ino ∧
        ∀ k' < k, ∀ entry', Live entries k' entry' → entry'.filename ≠ name := by
  rw [minixLookup, map_eq_some_iff]
  constructor
  · rintro ⟨entry, hfind, rfl⟩
    obtain ⟨hhit, k, hk, rfl, hbefore⟩ := List.find?_eq_some_iff_getElem.mp hfind
    simp only [ne_eq, decide_eq_true_eq] at hhit
    refine ⟨k, entries[k], ⟨List.getElem?_eq_getElem hk, hhit.1⟩, hhit.2, rfl, ?_⟩
    intro k' hk' entry' hlive hname
    have hmiss := hbefore k' hk'
    have hentry : entries[k'] = entry' := by
      have := hlive.1
      rwa [List.getElem?_eq_getElem (by omega), some.injEq] at this
    simp [hentry, hlive.2, hname] at hmiss
  · rintro ⟨k, entry, hlive, hname, rfl, hbefore⟩
    obtain ⟨hk, hentry⟩ := List.getElem?_eq_some_iff.mp hlive.1
    refine ⟨entry, List.find?_eq_some_iff_getElem.mpr ⟨?_, k, hk, hentry, ?_⟩, rfl⟩
    · simp [hlive.2, hname]
    · intro k' hk'
      have hmiss := hbefore k' hk' entries[k']
      simp only [Live, List.getElem?_eq_getElem (show k' < entries.length by omega), true_and]
        at hmiss
      by_cases hzero : entries[k'].inode = 0
      · simp [hzero]
      · simp [hmiss hzero]

lemma minixLookup_congr
    (hsame : ∀ k entry, entry.filename = name → (Live entries' k entry ↔ Live entries k entry)) :
    minixLookup name entries' = minixLookup name entries := by
  cases hlookup : minixLookup name entries with
  | none =>
    rw [minixLookup_eq_none_iff] at hlookup ⊢
    intro k entry hlive hname
    exact hlookup k entry ((hsame k entry hname).mp hlive) hname
  | some ino =>
    rw [minixLookup_eq_some_iff] at hlookup ⊢
    obtain ⟨k, entry, hlive, hname, hino, hbefore⟩ := hlookup
    refine ⟨k, entry, (hsame k entry hname).mpr hlive, hname, hino, ?_⟩
    intro k' hk' entry' hlive' hname'
    exact hbefore k' hk' entry' ((hsame k' entry' hname').mp hlive') hname'

lemma dirFindEntryByName_eq_none_iff : dirFindEntryByName entries name = none ↔
      ∀ k entry, Live entries k entry → entry.filename ≠ name := by
  rw [← minixLookup_eq_none_iff, dirFindEntryByName, minixLookup, List.findIdx?_eq_none_iff,
    map_eq_none_iff, List.find?_eq_none]
  simp

lemma live_of_dirFindEntryByName {k : ℕ} (h : dirFindEntryByName entries name = some k) :
    ∃ entry, Live entries k entry ∧ entry.filename = name := by
  rw [dirFindEntryByName, List.findIdx?_eq_some_iff_getElem] at h
  obtain ⟨hk, hentry, -⟩ := h
  simp only [ne_eq, decide_eq_true_eq] at hentry
  exact ⟨entries[k], ⟨List.getElem?_eq_getElem hk, hentry.1⟩, hentry.2⟩

lemma live_minixDirAllocEntry {room : Room}
    (h : minixDirAllocEntry room name entries = some (entries', some i)) :
    entries'[i]? = some ⟨0, storedName name, storedName_length name⟩ ∧
      ∀ k entry, Live entries' k entry ↔ Live entries k entry := by
  rw [minixDirAllocEntry] at h
  cases hfind : entries.findIdx? fun entry => entry.inode = 0 with
  | some j =>
    simp only [hfind, some.injEq, Prod.mk.injEq] at h
    obtain ⟨rfl, rfl⟩ := h
    rw [List.findIdx?_eq_some_iff_getElem] at hfind
    obtain ⟨hj, hzero, -⟩ := hfind
    simp only [decide_eq_true_eq] at hzero
    refine ⟨by simp [hj, hzero], fun k entry => ?_⟩
    rw [Live, Live, List.getElem?_modify]
    by_cases hk : j = k
    · subst hk
      simp only [hj, List.getElem?_eq_getElem, if_true, Option.map_eq_map, map_some, some.injEq]
      constructor
      · rintro ⟨rfl, hne⟩
        exact absurd hzero hne
      · rintro ⟨rfl, hne⟩
        exact absurd hzero hne
    · simp [hk]
  | none =>
    simp only [hfind] at h
    split_ifs at h with hmost hroom hboot
    · cases h
    · cases h
      refine ⟨by simp, fun k entry => ?_⟩
      rw [Live, Live]
      rcases Nat.lt_or_ge k entries.length with hk | hk
      · rw [List.getElem?_append_left hk]
      · rw [List.getElem?_append_right hk, List.getElem?_eq_none hk]
        constructor
        · rintro ⟨hentry, hne⟩
          have hmem := List.mem_of_getElem? hentry
          rw [mem_cons, mem_replicate] at hmem
          rcases hmem with rfl | ⟨-, rfl⟩ <;> exact absurd rfl hne
        · rintro ⟨hentry, -⟩
          cases hentry
    · cases h

lemma live_setInode {stored : List Byte} {hstored : stored.length ≤ 13}
    (hi : entries[i]? = some ⟨0, stored, hstored⟩) (hino : ino ≠ 0)
    (k : ℕ) (entry : Dirent) : Live (setInode entries i ino) k entry ↔
      k = i ∧ entry = ⟨ino, stored, hstored⟩ ∨ Live entries k entry := by
  rw [Live, setInode, List.getElem?_modify, Live]
  by_cases hk : i = k
  · subst hk
    simp only [hi, if_true, Option.map_eq_map, map_some, some.injEq, true_and]
    constructor
    · rintro ⟨rfl, -⟩
      exact .inl rfl
    · rintro (rfl | ⟨rfl, hne⟩)
      · exact ⟨rfl, hino⟩
      · exact absurd rfl hne
  · have hki : k ≠ i := Ne.symm hk
    simp [hk, hki]

lemma live_setInode_zero {j : ℕ} (k : ℕ) (entry : Dirent) :
    Live (setInode entries j 0) k entry ↔ Live entries k entry ∧ k ≠ j := by
  rw [Live, setInode, List.getElem?_modify, Live]
  by_cases hk : j = k
  · subst hk
    simp only [if_true, ne_eq, not_true_eq_false, and_false, iff_false, not_and, not_not]
    intro hentry
    obtain ⟨entry', -, rfl⟩ := map_eq_some_iff.mp hentry
    rfl
  · have hkj : k ≠ j := Ne.symm hk
    simp [hk, hkj]
end Entries

/-- The entries of a new directory: its own, that of its parent, and the free ones of its zone. -/
def dirSetup (ino parentIno : ℕ) : List Dirent :=
  ⟨ino % 2 ^ 16, [0x2E#8], by decide⟩ :: ⟨parentIno % 2 ^ 16, [0x2E#8, 0x2E#8], by decide⟩ ::
    List.replicate 62 ⟨0, [], by decide⟩

def dirIsEmpty (entries : List Dirent) : Bool :=
  entries.all fun entry =>
    entry.inode = 0 ∨ entry.filename = [0x2E#8] ∨ entry.filename = [0x2E#8, 0x2E#8]

def minixUnlink (mode : ℕ) (entries : List Dirent) (name : List Byte) (dir : List Dirent) :
    ℤ × List Dirent :=
  if isDir mode ∧ !dirIsEmpty entries then (ENOTEMPTY, dir)
  else match dirFindEntryByName dir name with
    | none => (ENOENT, dir)
    | some i => (0, setInode dir i 0)

/-- An inode is free: the lowest clear bit of the bitmap stands for one, and its block can be read. -/
def FreeInode (m : Minix) (env : Environment) : Prop :=
  ∃ n, firstClear m.bitmap (m.imapBlocks * 1024) = some n ∧ n ≠ 0 ∧ n < 2 ^ 16 ∧
    env.readable (m.inodeTable + (n - 1) >>> 5) = true

lemma allocInode_lt_iff (m : Minix) (env : Environment) :
    (m.allocInode env).1 < 2 ^ 16 ↔ FreeInode m env := by
  have hspace : ¬ Word.toUnsigned ENOSPC < 2 ^ 16 := by decide +kernel
  have hmemory : ¬ Word.toUnsigned ENOMEM < 2 ^ 16 := by decide +kernel
  unfold Minix.allocInode FreeInode
  cases firstClear m.bitmap (m.imapBlocks * 1024) with
  | none => simpa using hspace
  | some n =>
    by_cases hzero : n = 0
    · simpa [hzero] using hspace
    by_cases hread : env.readable (m.inodeTable + (n - 1) >>> 5) = true
    · simp [hzero, hread]
    · simpa [hzero, hread] using hmemory

/-- The name leads to its inode, the others where they led, and removing it brings all back. -/
structure Stored (ino parentIno mode : ℕ) (name : List Byte) (dir dir' : List Dirent) : Prop where
  found : minixLookup name dir' = some ino
  others : ∀ other, 1 ≤ other.length → other.length ≤ 14 → other ≠ name →
    minixLookup other dir' = minixLookup other dir
  removed : (minixUnlink mode (dirSetup ino parentIno) name dir').1 = 0 ∧
    ∀ other, minixLookup other (minixUnlink mode (dirSetup ino parentIno) name dir').2 =
      minixLookup other dir

section Create
variable {m : Minix} {room : Room} {env : Environment} {mode : ℕ} {name : List Byte}
  {dir dir' : List Dirent} {loaded : List (ℕ × ℕ)}

lemma minixCreate_zero (h : minixCreate m room env mode name dir = .returned 0 dir' loaded) :
    ∃ entries i, minixDirAllocEntry room name dir = some (entries, some i) ∧
      dir' = setInode entries i ((m.allocInode env).1 % 2 ^ 16) ∧ (m.allocInode env).1 ≠ 0 := by
  have hname : ENAMETOOLONG ≠ 0 := by decide
  have hspace : ENOSPC ≠ 0 := by decide
  have hmemory : ENOMEM ≠ 0 := by decide
  rw [minixCreate, FileSystem.create] at h
  by_cases hlong : (minix m room).maxFilename < name.length
  · simp [hlong, hname] at h
  rw [if_neg hlong] at h
  have hfs : (minix m room).dirAllocEntry name dir = minixDirAllocEntry room name dir := rfl
  rw [hfs] at h
  cases hentry : minixDirAllocEntry room name dir with
  | none => simp [hentry] at h
  | some res =>
    obtain ⟨entries, place⟩ := res
    rw [hentry] at h
    cases place with
    | none => simp [hspace] at h
    | some i =>
      refine ⟨entries, i, rfl, ?_⟩
      cases hvnode : (minix m room).allocVnode env (m.allocInode env).1 with
      | none => simp [hvnode] at h
      | some vnode =>
        cases vnode with
        | none => simp [hvnode, hmemory] at h
        | some place =>
          simp only [hvnode] at h
          have hino : (m.allocInode env).1 ≠ 0 := by
            intro hzero
            simp [hzero, FileSystem.allocVnode] at hvnode
          split_ifs at h
          · simp [hmemory] at h
          · cases h
            exact ⟨rfl, hino⟩

lemma dirIsEmpty_dirSetup (ino parentIno : ℕ) : dirIsEmpty (dirSetup ino parentIno) = true := by
  simp [dirIsEmpty, dirSetup]

lemma stored_name (hstring : 0#8 ∉ name) : storedName name = name.take 13 := by
  rw [storedName, takeWhile_eq_self_iff]
  intro b hb
  have hne : b ≠ 0#8 := fun hzero => hstring (hzero ▸ mem_of_mem_take hb)
  simpa using hne

lemma minixLookup_added {hlen : name.length ≤ 13} (hnew : minixLookup name dir = none)
    (hlive : ∀ k entry, Live dir' k entry ↔
      k = i ∧ entry = ⟨ino, name, hlen⟩ ∨ Live dir k entry) :
    minixLookup name dir' = some ino ∧
      ∀ other, other ≠ name → minixLookup other dir' = minixLookup other dir := by
  rw [minixLookup_eq_none_iff] at hnew
  constructor
  · apply minixLookup_eq_some ((hlive i ⟨ino, name, hlen⟩).mpr (.inl ⟨rfl, rfl⟩))
    intro k entry hentry hname
    rcases (hlive k entry).mp hentry with ⟨-, rfl⟩ | hold
    · rfl
    · exact absurd hname (hnew k entry hold)
  · intro other hother
    apply minixLookup_congr
    rintro k entry rfl
    rw [hlive]
    constructor
    · rintro (⟨-, rfl⟩ | hold)
      · exact absurd rfl hother
      · exact hold
    · exact .inr

lemma minixLookup_removed (hfind : dirFindEntryByName dir' name = some i)
    (hnew : minixLookup name dir = none)
    (hsame : ∀ other, other ≠ name → minixLookup other dir' = minixLookup other dir)
    (hsole : ∀ k entry, Live dir' k entry → entry.filename = name → k = i) (other : List Byte) :
    minixLookup other (setInode dir' i 0) = minixLookup other dir := by
  by_cases hother : other = name
  · rw [hother, hnew, minixLookup_eq_none_iff]
    intro k entry hlive hname
    obtain ⟨hlive, hk⟩ := (live_setInode_zero k entry).mp hlive
    exact hk (hsole k entry hlive hname)
  · rw [← hsame other hother]
    apply minixLookup_congr
    rintro k entry rfl
    rw [live_setInode_zero]
    refine ⟨And.left, fun hlive => ⟨hlive, ?_⟩⟩
    rintro rfl
    obtain ⟨entry', hlive', hname⟩ := live_of_dirFindEntryByName hfind
    obtain rfl := some.inj (hlive.1.symm.trans hlive'.1)
    exact hother hname

/-- A name is stored unless it has the full 14 bytes, and an inode unless it is an error number. -/
theorem minixCreate_stored_iff {parentIno : ℕ} (hstring : 0#8 ∉ name)
    (hnew : minixLookup name dir = none)
    (hcreate : minixCreate m room env mode name dir = .returned 0 dir' loaded) :
    Stored (m.allocInode env).1 parentIno mode name dir dir' ↔
      name.length ≤ 13 ∧ FreeInode m env := by
  obtain ⟨entries, i, halloc, rfl, hpositive⟩ := minixCreate_zero hcreate
  obtain ⟨hplace, hkeep⟩ := live_minixDirAllocEntry halloc
  rw [← allocInode_lt_iff]
  generalize (m.allocInode env).1 = ino at hpositive hcreate ⊢
  constructor
  · intro hstored
    obtain ⟨k, entry, hlive, hname, hnumber⟩ := exists_live_of_minixLookup hstored.found
    have hentry : entry = ⟨ino % 2 ^ 16, storedName name, storedName_length name⟩ := by
      by_contra hne
      have hold : Live entries k entry := by
        by_cases hzero : ino % 2 ^ 16 = 0
        · rw [hzero] at hlive
          exact ((live_setInode_zero k entry).mp hlive).1
        · rcases (live_setInode hplace hzero k entry).mp hlive with ⟨-, heq⟩ | hold
          · exact absurd heq hne
          · exact hold
      exact minixLookup_eq_none_iff.mp hnew k entry ((hkeep k entry).mp hold) hname
    subst hentry
    have hlength : (storedName name).length = name.length := congrArg List.length hname
    rw [stored_name hstring, length_take] at hlength
    have hmod : ino % 2 ^ 16 = ino := hnumber
    omega
  · rintro ⟨hlen, hlt⟩
    have hfull : storedName name = name := (stored_name hstring).trans (take_of_length_le hlen)
    simp only [hfull] at hplace
    have hmod : ino % 2 ^ 16 = ino := Nat.mod_eq_of_lt hlt
    rw [hmod]
    have hlive : ∀ k entry, Live (setInode entries i ino) k entry ↔
        k = i ∧ entry = ⟨ino, name, hlen⟩ ∨ Live dir k entry := by
      intro k entry
      rw [live_setInode hplace hpositive, hkeep]
    obtain ⟨hfound, hothers⟩ := minixLookup_added hnew hlive
    have hsole : ∀ k entry, Live (setInode entries i ino) k entry → entry.filename = name →
        k = i := by
      intro k entry hentry hname
      rcases (hlive k entry).mp hentry with ⟨hk, -⟩ | hold
      · exact hk
      · exact absurd hname (minixLookup_eq_none_iff.mp hnew k entry hold)
    refine ⟨hfound, fun other _ _ hother => hothers other hother, ?_⟩
    rw [minixUnlink, dirIsEmpty_dirSetup, if_neg (by simp)]
    cases hfind : dirFindEntryByName (setInode entries i ino) name with
    | none =>
      exact absurd rfl (dirFindEntryByName_eq_none_iff.mp hfind i ⟨ino, name, hlen⟩
        ((hlive i _).mpr (.inl ⟨rfl, rfl⟩)))
    | some j =>
      obtain ⟨entry, hentry, hname⟩ := live_of_dirFindEntryByName hfind
      obtain rfl := hsole j entry hentry hname
      exact ⟨rfl, minixLookup_removed hfind hnew hothers hsole⟩
end Create

def roomyMinix : Minix := ⟨1, 4, fun i => if i = 0 then 0x03#8 else 0#8⟩

lemma roomyMinix_firstClear : firstClear roomyMinix.bitmap (roomyMinix.imapBlocks * 1024) = some 2 := by
  apply firstClear_eq (by decide) (by decide)
  decide

lemma roomyMinix_allocInode : (roomyMinix.allocInode lenient).1 = 2 := by
  rw [Minix.allocInode, roomyMinix_firstClear]
  rfl

/-- The entries of a root directory with one more. -/
def rootWith (entry : Dirent) : List Dirent :=
  [⟨1, [0x2E#8], by decide⟩, ⟨1, [0x2E#8, 0x2E#8], by decide⟩, entry]

def rootEntries : List Dirent := rootWith ⟨0, [], by decide⟩

theorem short_name_stored : minixLookup [0x61#8] rootEntries = none ∧
      minixCreate roomyMinix ⟨0, 0⟩ lenient 0o100644 [0x61#8] rootEntries =
        .returned 0 (rootWith ⟨2, [0x61#8], by decide⟩) [(4, 32)] ∧
      Stored (roomyMinix.allocInode lenient).1 1 0o100644 [0x61#8] rootEntries
        (rootWith ⟨2, [0x61#8], by decide⟩) := by
  have hnew : minixLookup [0x61#8] rootEntries = none := by decide
  have hcreate : minixCreate roomyMinix ⟨0, 0⟩ lenient 0o100644 [0x61#8] rootEntries =
      .returned 0 (rootWith ⟨2, [0x61#8], by decide⟩) [(4, 32)] := by
    rw [minixCreate, roomyMinix_allocInode]
    decide +kernel
  exact ⟨hnew, hcreate, (minixCreate_stored_iff (by decide) hnew hcreate).mpr
    ⟨by decide, 2, roomyMinix_firstClear, by decide, by decide, rfl⟩⟩

def fullName : List Byte := (List.range 14).map fun i => BitVec.ofNat 8 (0x61 + i)

/-- A name of 14 bytes is stored with 13. -/
theorem full_name_cut :
    minixLookup fullName rootEntries = none ∧ minixLookup (fullName.take 13) rootEntries = none ∧
      ∃ dir', minixCreate roomyMinix ⟨0, 0⟩ lenient 0o100644 fullName rootEntries =
          .returned 0 dir' [(4, 32)] ∧
        minixLookup fullName dir' = none ∧ minixLookup (fullName.take 13) dir' = some 2 := by
  refine ⟨by decide, by decide, rootWith ⟨2, fullName.take 13, by decide⟩, ?_, by decide, by decide⟩
  rw [minixCreate, roomyMinix_allocInode]
  decide +kernel

end Gloworm.MinixDir
