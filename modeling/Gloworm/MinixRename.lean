import Gloworm.MinixDirectory
import Gloworm.VfsBalance

/-! Renaming on minix: `vfs_rename` over `minix_lookup` and `minix_rename`. A directory is the list of
its entries; a vnode is named by its mount and its inode number. -/
namespace Gloworm.MinixRename
open Function Vfs FullCreate MinixDir List Option
open Ext2Alloc (Byte)

abbrev Disk := ℕ → ℕ → List Dirent

def vnodeOf (mp ino : ℕ) : ℕ := Nat.pair mp ino

def inoOf (v : ℕ) : ℕ := v.unpair.2

def bytes (name : Name) : List Byte := name.map UInt8.toBitVec

def entriesOf (w : World Disk) (v : ℕ) : List Dirent := w.disk (w.node v).mp (inoOf v)

def setEntries (w : World Disk) (v : ℕ) (entries : List Dirent) : World Disk :=
  let mp := (w.node v).mp
  { w with disk := update w.disk mp (update (w.disk mp) (inoOf v) entries) }

def minixLookupVnode (w : World Disk) (v : ℕ) (name : Name) : Except ℤ ℕ :=
  if 14 < name.length then .error ENAMETOOLONG
  else match minixLookup (bytes name) (entriesOf w v) with
    | none => .error ENOENT
    | some ino => .ok (vnodeOf (w.node v).mp ino)

def minixRename (room : ℕ → Room) (w : World Disk) (v p : ℕ) (oldname : Name) (q : ℕ)
    (newname : Name) : ℤ × World Disk :=
  match dirFindEntryByName (entriesOf w q) (bytes newname) with
  | some _ => (EEXIST, w)
  | none =>
    match minixDirAllocEntry (room q) (bytes newname) (entriesOf w q) with
    | none =>
      -- the new entry is one of a zone that no directory has
      match dirFindEntryByName (entriesOf w p) (bytes oldname) with
      | none => (ENOENT, w)
      | some j => (0, setEntries w p (setInode (entriesOf w p) j 0))
    | some (_, none) => (ENOSPC, w)
    | some (entries, some i) =>
      let w := setEntries w q entries
      match dirFindEntryByName (entriesOf w p) (bytes oldname) with
      | none => (ENOENT, w)
      | some j =>
        let w := setEntries w q (setInode (entriesOf w q) i (inoOf v % 2 ^ 16))
        (0, setEntries w p (setInode (entriesOf w p) j 0))

def minixFs (base : Fs Disk) (room : ℕ → Room) : Fs Disk :=
  { base with
    lookup := minixLookupVnode
    rename := minixRename room }

variable {path : Name}

section Outcome
variable {D : Type} (fs : Fs D) (s : State D) (cwd : Option ℕ) (uid : ℕ)

def renameParent (path : Name) : Option (Except ℤ ℕ) :=
  (resolve fs s cwd path true uid).map fun r => match r with
    | .error e => .error e
    | .ok v =>
      if readOnly s v then .error EROFS
      else if !mayAccess s uid (wOk ||| xOk) v then .error EACCES
      else .ok v

variable {fs s cwd uid}

end Outcome
section Directories

def Child (w : World Disk) (a b : ℕ) : Prop :=
  ∃ name, name ≠ dot ∧ name ≠ dotDot ∧ minixLookupVnode w a name = .ok b

/-- Names are unique, `..` leads to the parent, and no directory lies below itself. -/
structure Tree (w : World Disk) : Prop where
  named : ∀ v, (w.node v).mp = v.unpair.1
  numbers : ∀ v k entry, Live (entriesOf w v) k entry → entry.inode < 2 ^ 16
  unique : ∀ v, Unique (entriesOf w v)
  parents : ∀ a b, Child w a b → sIsdir (w.node b).mode → minixLookupVnode w b dotDot = .ok a
  acyclic : ∀ a b, Child w a b → ¬Relation.ReflTransGen (Child w) b a

variable {w w' : World Disk} {room : ℕ → Room} {v p q u : ℕ} {oldname newname name : Name}

lemma minixLookupVnode_ok (h : minixLookupVnode w u name = .ok v) :
    name.length ≤ 14 ∧ ∃ ino, minixLookup (bytes name) (entriesOf w u) = some ino ∧
      v = vnodeOf (w.node u).mp ino := by
  unfold minixLookupVnode at h
  split_ifs at h with hlong
  refine ⟨by omega, ?_⟩
  cases hlookup : minixLookup (bytes name) (entriesOf w u) with
  | none => simp [hlookup] at h
  | some ino =>
    simp only [hlookup, Except.ok.injEq] at h
    exact ⟨ino, rfl, h.symm⟩

lemma minixLookupVnode_congr (hnode : w'.node = w.node)
    (hsame : ∀ k entry, entry.filename = bytes name →
      (Live (entriesOf w' u) k entry ↔ Live (entriesOf w u) k entry)) :
    minixLookupVnode w' u name = minixLookupVnode w u name := by
  unfold minixLookupVnode
  rw [minixLookup_congr hsame, hnode]

lemma bytes_injective : Function.Injective bytes :=
  map_injective_iff.mpr fun _ _ h => UInt8.toBitVec_inj.mp h

/-- The new name is not there yet, and an entry can be had for it. -/
def Admits (room : ℕ → Room) (w : World Disk) (q : ℕ) (newname : Name) : Prop :=
  minixLookup (bytes newname) (entriesOf w q) = none ∧
    ∃ entries i, minixDirAllocEntry (room q) (bytes newname) (entriesOf w q) =
      some (entries, some i)

/-- No directory grows through the boot block. -/
def Contained (room : ℕ → Room) (w : World Disk) (newname : Name) : Prop :=
  ∀ q, minixDirAllocEntry (room q) (bytes newname) (entriesOf w q) ≠ none

/-- What a rename does: an entry that was not in use takes the inode, and the old one is given up. -/
structure Renamed (w w' : World Disk) (v p : ℕ) (oldname : Name) (q : ℕ) (newname : Name) : Prop where
  node : w'.node = w.node
  places : ∃ i j, (∀ entry, ¬Live (entriesOf w q) i entry) ∧
    (∃ entry, Live (entriesOf w p) j entry ∧ entry.filename = bytes oldname) ∧
    ∀ u k entry, Live (entriesOf w' u) k entry ↔
      (u = q ∧ k = i ∧
          entry = ⟨inoOf v, storedName (bytes newname), storedName_length _⟩ ∨
        Live (entriesOf w u) k entry) ∧ ¬(u = p ∧ k = j)

lemma Tree.inode (htree : Tree w) (h : minixLookupVnode w p oldname = .ok v) :
    v = vnodeOf (w.node p).mp (inoOf v) ∧ inoOf v < 2 ^ 16 ∧ inoOf v ≠ 0 := by
  obtain ⟨-, ino, hlookup, rfl⟩ := minixLookupVnode_ok h
  have hino : inoOf (vnodeOf (w.node p).mp ino) = ino := by simp [inoOf, vnodeOf]
  obtain ⟨k, entry, hlive, -, rfl⟩ := exists_live_of_minixLookup hlookup
  rw [hino]
  exact ⟨rfl, htree.numbers p k entry hlive, hlive.2⟩

structure Moved (w w' : World Disk) (v p : ℕ) (oldname : Name) (q : ℕ) (newname : Name) : Prop where
  found : minixLookupVnode w' q newname = .ok v
  gone : minixLookupVnode w' p oldname = .error ENOENT
  others : ∀ u name, ¬(u = q ∧ name = newname) → ¬(u = p ∧ name = oldname) →
    ¬(u = v ∧ name = dotDot) → minixLookupVnode w' u name = minixLookupVnode w u name
  parent : sIsdir (w.node v).mode → minixLookupVnode w' v dotDot = .ok q
  mount : (w.node p).mp = (w.node q).mp

lemma storedName_short (hstring : 0#8 ∉ bytes newname) (hlen : newname.length ≤ 13) :
    storedName (bytes newname) = bytes newname :=
  (stored_name hstring).trans (take_of_length_le (by simpa [bytes] using hlen))

lemma Renamed.others (h : Renamed w w' v p oldname q newname)
    (hstring : 0#8 ∉ bytes newname) (hlen : newname.length ≤ 13)
    (hnew : ¬(u = q ∧ name = newname)) (hold : ¬(u = p ∧ name = oldname)) :
    minixLookupVnode w' u name = minixLookupVnode w u name := by
  obtain ⟨hnode, i, j, -, ⟨old, hlive, hname⟩, hentries⟩ := h
  apply minixLookupVnode_congr hnode
  intro k entry hentry
  rw [hentries]
  constructor
  · rintro ⟨⟨rfl, rfl, rfl⟩ | hkept, -⟩
    · exact absurd ⟨rfl, bytes_injective (hentry.symm.trans (storedName_short hstring hlen))⟩ hnew
    · exact hkept
  · intro hkept
    refine ⟨.inr hkept, ?_⟩
    rintro ⟨rfl, rfl⟩
    obtain rfl := some.inj (hkept.1.symm.trans hlive.1)
    exact hold ⟨rfl, bytes_injective (hentry.symm.trans hname)⟩

lemma Renamed.moved (htree : Tree w) (h : Renamed w w' v p oldname q newname)
    (hfound : minixLookupVnode w p oldname = .ok v) (hadmits : Admits room w q newname)
    (hvalid : oldname ≠ dot ∧ oldname ≠ dotDot) (hvalid' : newname ≠ dotDot)
    (hstring : 0#8 ∉ bytes newname) (hlen : newname.length ≤ 13)
    (hmount : (w.node p).mp = (w.node q).mp) (hdir : sIsdir (w.node v).mode → p = q) :
    Moved w w' v p oldname q newname := by
  have hothers : ∀ {u : ℕ} {name : Name}, ¬(u = q ∧ name = newname) →
      ¬(u = p ∧ name = oldname) → minixLookupVnode w' u name = minixLookupVnode w u name :=
    fun hq hp => h.others hstring hlen hq hp
  obtain ⟨hnode, i, j, hunused, ⟨old, hlive, hname⟩, hentries⟩ := h
  obtain ⟨hv, -, hpositive⟩ := htree.inode hfound
  have hnew := minixLookup_eq_none_iff.mp hadmits.1
  have hplace : Live (entriesOf w' q) i ⟨inoOf v, bytes newname, by simpa [bytes] using hlen⟩ := by
    refine (hentries q i _).mpr ⟨.inl ⟨rfl, rfl, ?_⟩, ?_⟩
    · simp only [storedName_short hstring hlen]
    rintro ⟨rfl, rfl⟩
    exact hunused old hlive
  refine ⟨?_, ?_, fun u name hq hp _ => hothers hq hp, fun hmode => ?_, hmount⟩
  · have hlookup : minixLookup (bytes newname) (entriesOf w' q) = some (inoOf v) := by
      refine minixLookup_eq_some hplace fun k entry hentry hsame => ?_
      rcases ((hentries q k entry).mp hentry).1 with ⟨-, -, rfl⟩ | hkept
      · rfl
      · exact absurd hsame (hnew k entry hkept)
    rw [minixLookupVnode, if_neg (by omega), hlookup, hnode, ← hmount]
    exact congrArg Except.ok hv.symm
  · have hlookup : minixLookup (bytes oldname) (entriesOf w' p) = none := by
      rw [minixLookup_eq_none_iff]
      intro k entry hentry hsame
      obtain ⟨hcases, hremoved⟩ := (hentries p k entry).mp hentry
      rcases hcases with ⟨rfl, -, rfl⟩ | hkept
      · exact hnew j old hlive
          ((hname.trans hsame.symm).trans (storedName_short hstring hlen))
      · exact hremoved ⟨rfl, htree.unique p k j entry old hkept hlive (hsame.trans hname.symm)⟩
    have hshort := (minixLookupVnode_ok hfound).1
    rw [minixLookupVnode, if_neg (by omega), hlookup]
  · rw [hothers (fun hbad => hvalid' hbad.2.symm) (fun hbad => hvalid.2 hbad.2.symm),
      htree.parents p v ⟨oldname, hvalid.1, hvalid.2, hfound⟩ hmode, hdir hmode]
end Directories
section Claim
variable (base : Fs Disk) (room : ℕ → Room) (s : State Disk) (cwd : Option ℕ) (uid : ℕ)
  (oldpath newpath : Name)

/-- Both parents are found and may be changed, the old name is found and the new one fits. -/
structure Reaches (p q v : ℕ) : Prop where
  oldValid : validName (pathLastComponent oldpath)
  newValid : validName (pathLastComponent newpath)
  oldParent : renameParent (minixFs base room) s cwd uid oldpath = some (.ok p)
  newParent : renameParent (minixFs base room) s cwd uid newpath = some (.ok q)
  found : minixLookupVnode s.world p (pathLastComponent oldpath) = .ok v
  admits : Admits room s.world q (pathLastComponent newpath)

variable {base room s cwd uid oldpath newpath}

end Claim

end Gloworm.MinixRename
