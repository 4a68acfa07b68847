import Gloworm.VfsPaths
import Gloworm.MachineWords

/-! The directory that a lookup of the parent answers, and the last component of the path. -/
namespace Gloworm.Vfs
open Word List Option

def lastStart (path : Name) : ℕ → ℕ
  | 0 => 0
  | n + 1 => if path[n]? = some vfsSep then n + 1 else lastStart path n

/-- `path_last_component` with the index in a `short`. It faults where it reads outside the path. -/
def pathLastComponentScan (path : Name) : Option Name :=
  let i := toShort (path.length - 1)
  if i < 0 then none
  else if path[i.toNat]? = some vfsSep then some (path.drop (lastStart path i.toNat))
  else some (path.drop (lastStart path (i.toNat + 1)))

section Scan
variable {path : Name}

lemma lastStart_le (path : Name) (n : ℕ) : lastStart path n ≤ n := by
  induction n with
  | zero => rfl
  | succ n ih =>
    rw [lastStart]
    split_ifs
    · exact le_rfl
    · omega

lemma lastStart_eq {n : ℕ} (hn : n ≤ path.length) :
    lastStart path n = n - ((path.take n).reverse.takeWhile (· ≠ vfsSep)).length := by
  induction n with
  | zero => rfl
  | succ n ih =>
    have hget : path[n]? = some path[n] := List.getElem?_eq_getElem (by omega)
    rw [lastStart, take_succ_eq_append_getElem (by omega), reverse_append,
      reverse_singleton, singleton_append, takeWhile_cons, hget]
    rw [ih (by omega)]
    by_cases hsep : path[n] = vfsSep
    · simp [hsep]
    · simp [hsep]

/-- The scan, on paths that a `short` can index. -/
theorem pathLastComponentScan_eq (hne : path ≠ []) (hshort : path.length ≤ 32768) :
    pathLastComponentScan path = some (pathLastComponent path) := by
  have hpos : 0 < path.length := length_pos_of_ne_nil hne
  have hi : toShort ((path.length : ℤ) - 1) = ((path.length - 1 : ℕ) : ℤ) := by
    rw [toShort_of_mem (by omega) (by omega)]
    omega
  rw [pathLastComponentScan, pathLastComponent, hi]
  simp only [Int.toNat_natCast, List.getLast?_eq_getElem?]
  rw [if_neg (by omega)]
  split_ifs with hsep
  · rw [lastStart_eq (by omega), dropLast_eq_take, length_take, min_eq_left (by omega)]
  · rw [Nat.sub_add_cancel hpos, lastStart_eq le_rfl, take_length]

theorem pathLastComponentScan_eq_nested :
    pathLastComponentScan [47, 97, 47, 98] = some (pathLastComponent [47, 97, 47, 98]) :=
  pathLastComponentScan_eq (by decide) (by decide)

lemma mem_drop_of_getLast {k : ℕ} {front : Name} (hlast : front.getLast? = some vfsSep)
    (hk : k < front.length) (rest : Name) : vfsSep ∈ (front ++ rest).drop k := by
  rw [drop_append_of_le_length hk.le]
  apply mem_append_left
  apply List.mem_of_getLast?
  rw [List.getLast?_drop, if_neg (by omega), hlast]

lemma mem_of_scan {front rest name : Name} (hlast : front.getLast? = some vfsSep)
    (hindex : toShort ((front ++ rest).length - 1) < front.length)
    (hname : pathLastComponentScan (front ++ rest) = some name) : vfsSep ∈ name := by
  rw [pathLastComponentScan] at hname
  generalize toShort ((front ++ rest).length - 1) = i at hindex hname
  split_ifs at hname with hneg hsep
  · obtain rfl := some.inj hname
    have hle := lastStart_le (front ++ rest) i.toNat
    exact mem_drop_of_getLast hlast (by omega) rest
  · obtain rfl := some.inj hname
    have hle := lastStart_le (front ++ rest) (i.toNat + 1)
    refine mem_drop_of_getLast hlast ?_ rest
    -- The byte in front of the rest is a separator, so that the index does not stand on it.
    have hne : i.toNat + 1 ≠ front.length := by
      intro heq
      apply hsep
      rw [List.getElem?_append_left (by omega)]
      rw [List.getLast?_eq_getElem?] at hlast
      rw [← hlast]
      congr 1
      omega
    omega

section
variable {front rest : Name} (hrest : vfsSep ∉ rest)
  (hfront : front = [] ∨ front.getLast? = some vfsSep)
include hrest hfront

lemma lastStart_append {k : ℕ} (hk : k ≤ rest.length) :
    lastStart (front ++ rest) (front.length + k) = front.length := by
  induction k with
  | zero =>
    rcases hfront with rfl | hlast
    · rfl
    · have hpos : 0 < front.length := by
        rcases front with _ | _
        · simp at hlast
        · simp
      obtain ⟨n, hn⟩ : ∃ n, front.length = n + 1 := ⟨front.length - 1, by omega⟩
      have hget : (front ++ rest)[n]? = some vfsSep := by
        rw [List.getElem?_append_left (by omega), ← hlast, List.getLast?_eq_getElem?]
        congr 1
        omega
      rw [add_zero, hn, lastStart, if_pos hget]
  | succ k ih =>
    have hget : (front ++ rest)[front.length + k]? ≠ some vfsSep := by
      rw [List.getElem?_append_right (by omega), Nat.add_sub_cancel_left]
      intro h
      exact hrest (List.mem_of_getElem? h)
    rw [← add_assoc, lastStart, if_neg hget, ih (by omega)]

lemma scan_append (hindex : (front.length : ℤ) ≤ toShort ((front ++ rest).length - 1))
    (hlength : toShort ((front ++ rest).length - 1) < (front ++ rest).length) :
    pathLastComponentScan (front ++ rest) = some rest := by
  rw [pathLastComponentScan]
  generalize toShort ((front ++ rest).length - 1) = i at hindex hlength
  rw [length_append] at hlength
  obtain ⟨k, hk⟩ : ∃ k, i.toNat = front.length + k := ⟨i.toNat - front.length, by omega⟩
  have hget : (front ++ rest)[i.toNat]? ≠ some vfsSep := by
    rw [hk, List.getElem?_append_right (by omega), Nat.add_sub_cancel_left]
    intro h
    exact hrest (List.mem_of_getElem? h)
  rw [if_neg (by omega), if_neg hget, hk, add_assoc, lastStart_append hrest hfront (by omega),
    drop_left]
end
end Scan

variable {v dir : ℕ} {c : Name}

section Parents
variable {D : Type} (fs : Fs D) (w : World D) (mounts : ℕ → Mount)

/-- A name is looked up in a directory, with the mount crossings in front of it and behind it. -/
def lookupIn (dir : ℕ) (name : Name) : Option (Except ℤ ℕ) :=
  andThen ((left w mounts dir name).map fun d => fs.lookup w d name) (entered w mounts)

def LeadsTo (s : State D) (cwd : Option ℕ) (uid : ℕ) (path : Name) (v : ℕ) : Prop :=
  ∃ p name, (vfsLookup fs s cwd path true uid).map Prod.fst = some (.ok p) ∧
    pathLastComponentScan path = some name ∧
    lookupIn fs s.world s.mounts p name = some (.ok v)

/-- Nothing is mounted on a directory that has been entered, or both steps stay where they are. -/
def EnteredOnce (dir : ℕ) (c : Name) : Prop :=
  entered w mounts dir = some (.ok dir) ∨
    c ≠ dotDot ∧ fs.lookup w dir c = .ok dir ∧ ∃ p, entered w mounts dir = some (.ok p) ∧
      fs.lookup w p c = .ok p ∧ entered w mounts p = some (.ok p)

/-- Lookups stay in their file system and find no names with a separator, and a file system is
mounted in one that was there before it. -/
structure Mounted : Prop where
  stays : ∀ d name x, fs.lookup w d name = .ok x → (w.node x).mp = (w.node d).mp
  separator : ∀ d name x, vfsSep ∈ name → fs.lookup w d name ≠ .ok x
  root : ∀ i r, (mounts i).rootNode = some r → (w.node r).mp = i
  ordered : ∃ rank : ℕ → ℕ, ∀ i m, (mounts i).mountNode = some m →
    (mounts i).rootNode = some m ∨ rank (w.node m).mp < rank i

variable {fs w mounts}

lemma entered_ok {x : ℕ} (h : entered w mounts x = some (.ok v)) :
    ((w.node x).mounted = false ∧ v = x) ∨
      ∃ i, (w.node x).mounted = true ∧ (mounts i).mountNode = some x ∧
        (mounts i).rootNode = some v := by
  rw [entered] at h
  cases hm : (w.node x).mounted with
  | false =>
    simp only [hm, Bool.false_eq_true, if_false, some.injEq, Except.ok.injEq] at h
    exact .inl ⟨rfl, h.symm⟩
  | true =>
    simp only [hm, if_true] at h
    cases hfind : findMountByVnode mounts x with
    | none => simp [hfind] at h
    | some i =>
      simp only [hfind, map_eq_some_iff, Except.ok.injEq, exists_eq_right] at h
      have hnode := List.find?_some hfind
      exact .inr ⟨i, rfl, by simpa using hnode, h⟩

lemma entered_eq {y z : ℕ} (hm : Mounted fs w mounts) (hy : entered w mounts y = some (.ok v))
    (hz : entered w mounts z = some (.ok v)) (hne : (w.node y).mp ≠ (w.node z).mp) :
    ((w.node y).mounted = false ∧ v = y ∧ (mounts (w.node y).mp).rootNode = some y ∧
      (mounts (w.node y).mp).mountNode = some z) ∨
    ((w.node z).mounted = false ∧ v = z ∧ (mounts (w.node z).mp).rootNode = some z ∧
      (mounts (w.node z).mp).mountNode = some y) := by
  rcases entered_ok hy with ⟨hy', rfl⟩ | ⟨i, -, hi, hri⟩
  · rcases entered_ok hz with ⟨-, rfl⟩ | ⟨j, -, hj, hrj⟩
    · exact absurd rfl hne
    · rw [hm.root j v hrj]
      exact .inl ⟨hy', rfl, hrj, hj⟩
  · rcases entered_ok hz with ⟨hz', rfl⟩ | ⟨j, -, hj, hrj⟩
    · rw [hm.root i v hri]
      exact .inr ⟨hz', rfl, hri, hi⟩
    · obtain rfl : i = j := (hm.root i v hri).symm.trans (hm.root j v hrj)
      rw [hi] at hj
      obtain rfl := some.inj hj
      exact absurd rfl hne

lemma lookupIn_ok (h : lookupIn fs w mounts dir c = some (.ok v)) :
    ∃ e x, left w mounts dir c = some e ∧ fs.lookup w e c = .ok x ∧
      entered w mounts x = some (.ok v) := by
  rw [lookupIn] at h
  cases hleft : left w mounts dir c with
  | none => simp [hleft] at h
  | some e =>
    rw [hleft, map_some] at h
    cases hlookup : fs.lookup w e c with
    | error _ => simp [hlookup] at h
    | ok x =>
      rw [hlookup, andThen_ok] at h
      exact ⟨e, x, rfl, hlookup, h⟩

lemma left_of_ne (hc : c ≠ dotDot) : left w mounts dir c = some dir := by
  rw [left, if_neg fun h => hc h.2]

lemma left_root {i r : ℕ} (hm : Mounted fs w mounts) (hr : (mounts i).rootNode = some r) :
    left w mounts r dotDot = (mounts i).mountNode := by
  have hmp := hm.root i r hr
  rw [left, hmp, if_pos ⟨hr, rfl⟩]

lemma enteredOnce_of_same {d p : ℕ} (hm : Mounted fs w mounts)
    (hd : entered w mounts d = some (.ok dir)) (hp : entered w mounts dir = some (.ok p))
    (hnormal : lookupIn fs w mounts dir c = some (.ok v))
    (hparent : lookupIn fs w mounts p c = some (.ok v)) : EnteredOnce fs w mounts dir c := by
  by_cases hpd : p = dir
  · subst hpd
    exact .inl hp
  obtain ⟨rank, hrank⟩ := hm.ordered
  obtain ⟨-, rfl⟩ | ⟨b, hmounted, hbnode, hbroot⟩ := entered_ok hp
  · exact absurd rfl hpd
  obtain ⟨hclear, rfl⟩ | ⟨a, -, hanode, haroot⟩ := entered_ok hd
  · rw [hclear] at hmounted
    exact absurd hmounted (by decide)
  have hdd : dir ≠ d := by
    rintro rfl
    rw [hp] at hd
    exact hpd (Except.ok.inj (some.inj hd))
  have hamp := hm.root a dir haroot
  have hbmp := hm.root b p hbroot
  have hda : rank (w.node d).mp < rank a := (hrank a d hanode).resolve_left fun h =>
    hdd (some.inj (haroot.symm.trans h))
  have hab : rank a < rank b := by
    rw [← hamp]
    exact (hrank b dir hbnode).resolve_left fun h => hpd (some.inj (hbroot.symm.trans h))
  obtain ⟨e, z, hez, hz, hzv⟩ := lookupIn_ok hnormal
  obtain ⟨f, y, hfy, hy, hyv⟩ := lookupIn_ok hparent
  have hzmp := hm.stays e c z hz
  have hymp := hm.stays f c y hy
  by_cases hc : c = dotDot
  · subst hc
    rw [left_root hm haroot, hanode] at hez
    obtain rfl := some.inj hez
    rw [left_root hm hbroot, hbnode] at hfy
    obtain rfl := some.inj hfy
    rw [hamp] at hymp
    have hne : (w.node y).mp ≠ (w.node z).mp := by
      rw [hymp, hzmp]
      rintro rfl
      omega
    rcases entered_eq hm hyv hzv hne with ⟨hclear, -, hroot, -⟩ | ⟨-, -, hroot, hnode⟩
    · rw [hymp, haroot] at hroot
      obtain rfl := some.inj hroot
      rw [hclear] at hmounted
      exact absurd hmounted (by decide)
    · have hcycle := (hrank _ y hnode).resolve_left fun h =>
        hne (congrArg (fun u => (w.node u).mp) (some.inj (h.symm.trans hroot)))
      rw [hymp, hzmp] at hcycle
      omega
  · rw [left_of_ne hc] at hez hfy
    obtain rfl := some.inj hez
    obtain rfl := some.inj hfy
    rw [hamp] at hzmp
    rw [hbmp] at hymp
    have hne : (w.node y).mp ≠ (w.node z).mp := by
      rw [hymp, hzmp]
      rintro rfl
      omega
    rcases entered_eq hm hyv hzv hne with ⟨-, rfl, hroot, hnode⟩ | ⟨-, -, -, hnode⟩
    · rw [hymp] at hroot hnode
      obtain rfl := some.inj (hbroot.symm.trans hroot)
      obtain rfl := some.inj (hbnode.symm.trans hnode)
      exact .inr ⟨hc, hz, p, hp, hy, hyv⟩
    · rw [hzmp] at hnode
      obtain rfl := some.inj (hanode.symm.trans hnode)
      rw [hymp] at hda
      omega

variable {s : State D} {cwd : Option ℕ} {uid : ℕ}

lemma spell_snoc (pre : List Name) (c : Name) : spell false (pre ++ [c]) = spell true pre ++ c := by
  induction pre with
  | nil => simp [spell]
  | cons d pre ih =>
    cases pre with
    | nil => simp [spell]
    | cons e pre =>
      rw [cons_append, cons_append, spell, spell, ← cons_append, ih]
      simp

lemma spellPath_snoc (leading : Bool) (pre : List Name) (c : Name) :
    spellPath leading false (pre ++ [c]) = spellPath leading true pre ++ c := by
  rw [spellPath, spellPath, spell_snoc]
  split_ifs <;> rfl

lemma getLast_spell {cs : List Name} (hne : cs ≠ []) : (spell true cs).getLast? = some vfsSep := by
  induction cs with
  | nil => exact absurd rfl hne
  | cons c cs ih =>
    cases cs with
    | nil => simp [spell]
    | cons d cs =>
      have htail := ih (cons_ne_nil _ _)
      rw [spell, List.getLast?_append, List.getLast?_cons, htail]
      rfl

lemma getLast_spellPath (leading : Bool) (cs : List Name) :
    spellPath leading true cs = [] ∨ (spellPath leading true cs).getLast? = some vfsSep := by
  rw [spellPath]
  cases cs with
  | nil => cases leading <;> simp [spell]
  | cons c cs =>
    have hlast : (spell true (c :: cs)).getLast? = some vfsSep := getLast_spell (cons_ne_nil _ _)
    right
    split_ifs
    · rw [List.getLast?_cons, hlast]
      rfl
    · exact hlast

lemma not_leadsTo_of_getLast (hm : Mounted fs s.world s.mounts) {path : Name}
    (hpath : path = [] ∨ path.getLast? = some vfsSep) : ¬LeadsTo fs s cwd uid path v := by
  rintro ⟨p, name, -, hname, hlookup⟩
  obtain ⟨e, x, -, hx, -⟩ := lookupIn_ok hlookup
  rcases hpath with rfl | hlast
  · rw [pathLastComponentScan] at hname
    simp [toShort_of_mem] at hname
  · have hpos : 0 < path.length := by
      rcases path with _ | _
      · simp at hlast
      · simp
    rw [← append_nil path] at hname
    refine hm.separator e name x (mem_of_scan hlast ?_ hname) hx
    rw [append_nil]
    have hle : toShort ((path.length : ℤ) - 1) ≤ (path.length : ℤ) - 1 := toShort_le_self (by omega)
    omega

lemma parent_of_normal {leading trailing : Bool} {pre : List Name}
    (hcs : ∀ d ∈ pre ++ [c], IsComponent d) (hshort : ∀ d ∈ pre ++ [c], d.length < fs.nameMax)
    (hnormal : resolve fs s cwd (spellPath leading trailing (pre ++ [c])) false uid = some (.ok v)) :
    ∃ d dir, entered s.world s.mounts d = some (.ok dir) ∧
      walkPath fs s cwd uid leading pre = some (.ok dir) ∧
      lookupIn fs s.world s.mounts dir c = some (.ok v) ∧
      resolve fs s cwd (spellPath leading trailing (pre ++ [c])) true uid =
        entered s.world s.mounts dir := by
  have hpre : ∀ d ∈ pre, d.length < fs.nameMax := fun d hd => hshort d (mem_append_left _ hd)
  have hc : IsComponent c := hcs c (by simp)
  have hnext : nextComponent fs (spell trailing [c]) = (c, []) :=
    nextComponent_spell hc (hshort c (by simp))
  have hne : spell trailing [c] ≠ [] := by
    apply spell_ne_nil _ (cons_ne_nil _ _)
    simpa using hc
  obtain ⟨fuel, hfuel⟩ := exists_fuel trailing hcs
  rw [resolve_spellPath hcs] at hnormal ⊢
  rw [walkPath]
  cases hstart : startNode s cwd leading with
  | none => simp [hstart] at hnormal
  | some start =>
    rw [hstart, bind_some, hfuel, resolveLoop_append hcs hpre (.inl rfl)] at hnormal
    rw [bind_some, bind_some, hfuel,
      resolveLoop_append hcs hpre (.inr (cons_ne_nil _ _)), walk_eq_reach]
    rcases hreach : reach fs s.world s.mounts uid start pre with _ | e | d
    · simp [hreach] at hnormal
    · simp [hreach] at hnormal
    rw [hreach, andThen_ok, resolveLoop_of_ne hne (.inl rfl), hnext] at hnormal
    simp only [resolveLoop_nil] at hnormal
    rcases hentered : entered s.world s.mounts d with _ | e | dir
    · simp [hentered] at hnormal
    · simp [hentered] at hnormal
    rw [hentered, andThen_ok, step] at hnormal
    cases hdir : sIsdir (s.world.node dir).mode with
    | false => simp [hdir] at hnormal
    | true =>
      cases hread : verifyModeAccess uid rOk (s.world.node dir) with
      | false => simp [hdir, hread] at hnormal
      | true =>
        simp only [hdir, hread, Bool.not_true, Bool.false_eq_true, if_false] at hnormal
        refine ⟨d, dir, hentered, hentered, hnormal, ?_⟩
        rw [andThen_ok, resolveLoop, hentered]
        simp only [hne, hdir, hread, hnext, Bool.not_true, Bool.false_eq_true, if_false,
          true_and, if_true]
        exact resolveLoop_nil true fuel dir

/-- The last component is looked up, as it stands, in the directory in front of it. -/
def NamesEntry (fs : Fs D) (s : State D) (cwd : Option ℕ) (uid : ℕ) (leading trailing : Bool)
    (cs : List Name) : Prop :=
  ∃ pre c dir, cs = pre ++ [c] ∧ trailing = false ∧
    ((spellPath leading trailing cs).length : ℤ) - c.length ≤
      toShort ((spellPath leading trailing cs).length - 1) ∧
    walkPath fs s cwd uid leading pre = some (.ok dir) ∧ EnteredOnce fs s.world s.mounts dir c

lemma lookupIn_of_enteredOnce (honce : EnteredOnce fs w mounts dir c)
    (hnormal : lookupIn fs w mounts dir c = some (.ok v)) :
    ∃ p, entered w mounts dir = some (.ok p) ∧ lookupIn fs w mounts p c = some (.ok v) := by
  rcases honce with hdir | ⟨hc, hstay, p, hp, hstay', hp'⟩
  · exact ⟨dir, hdir, hnormal⟩
  · rw [lookupIn, left_of_ne hc, map_some, hstay, andThen_ok] at hnormal
    refine ⟨p, hp, ?_⟩
    rw [lookupIn, left_of_ne hc, map_some, hstay', andThen_ok, hp', ← hp, hnormal]

/-- The lookup of the parent and the last component lead to the vnode of the path if the path names
an entry so, and in a tree of mounts only then. -/
theorem parent_lookup_fits {leading trailing : Bool} {cs : List Name} {v : ℕ}
    (hcs : ∀ c ∈ cs, IsComponent c) (hshort : ∀ c ∈ cs, c.length < fs.nameMax)
    (hnormal : (vfsLookup fs s cwd (spellPath leading trailing cs) false uid).map Prod.fst =
      some (.ok v)) : (NamesEntry fs s cwd uid leading trailing cs →
      LeadsTo fs s cwd uid (spellPath leading trailing cs) v) ∧
    (Mounted fs s.world s.mounts → LeadsTo fs s cwd uid (spellPath leading trailing cs) v →
      NamesEntry fs s cwd uid leading trailing cs) := by
  rw [fst_vfsLookup] at hnormal
  constructor
  · rintro ⟨pre, c, dir, rfl, rfl, hindex, hwalk, honce⟩
    obtain ⟨d, dir', -, hwalk', hlookup, hparent⟩ := parent_of_normal hcs hshort hnormal
    obtain rfl : dir = dir' := Except.ok.inj (some.inj (hwalk.symm.trans hwalk'))
    obtain ⟨p, hp, hv⟩ := lookupIn_of_enteredOnce honce hlookup
    refine ⟨p, c, ?_, ?_, hv⟩
    · rw [fst_vfsLookup, hparent, hp]
    · have hc : IsComponent c := hcs c (by simp)
      have hpos : 0 < c.length := length_pos_of_ne_nil hc.1
      rw [spellPath_snoc] at hindex ⊢
      have hle : toShort (((spellPath leading true pre ++ c).length : ℤ) - 1) ≤
          ((spellPath leading true pre ++ c).length : ℤ) - 1 := toShort_le_self (by omega)
      apply scan_append hc.2 (getLast_spellPath leading pre)
      · rw [length_append, Nat.cast_add] at hindex ⊢
        omega
      · omega
  · intro hm hleads
    rcases eq_nil_or_concat' cs with rfl | ⟨pre, c, rfl⟩
    · have hpath : spellPath leading trailing [] = spellPath leading true [] := by
        simp [spellPath, spell]
      rw [hpath] at hleads
      exact absurd hleads (not_leadsTo_of_getLast hm (getLast_spellPath leading []))
    cases trailing with
    | true => exact absurd hleads (not_leadsTo_of_getLast hm (getLast_spellPath leading _))
    | false =>
      obtain ⟨d, dir, hd, hwalk, hlookup, hparent⟩ := parent_of_normal hcs hshort hnormal
      obtain ⟨p, name, hp, hname, hv⟩ := hleads
      have hc : IsComponent c := hcs c (by simp)
      have hpos : 0 < c.length := length_pos_of_ne_nil hc.1
      rw [fst_vfsLookup, hparent] at hp
      rw [spellPath_snoc] at hname
      have hle : toShort (((spellPath leading true pre ++ c).length : ℤ) - 1) ≤
          ((spellPath leading true pre ++ c).length : ℤ) - 1 := toShort_le_self (by
            rw [length_append]
            omega)
      rcases lt_or_ge (toShort ((spellPath leading true pre ++ c).length - 1))
        (spellPath leading true pre).length with hlt | hge
      · exfalso
        obtain ⟨e, x, -, hx, -⟩ := lookupIn_ok hv
        rcases getLast_spellPath leading pre with hnil | hlast
        · rw [hnil, length_nil, Nat.cast_zero] at hlt
          rw [hnil, pathLastComponentScan, if_pos hlt] at hname
          exact absurd hname (by simp)
        · exact hm.separator e name x (mem_of_scan hlast hlt hname) hx
      · rw [scan_append hc.2 (getLast_spellPath leading pre) hge (by omega)] at hname
        obtain rfl := some.inj hname
        refine ⟨pre, c, dir, rfl, rfl, ?_, hwalk, enteredOnce_of_same hm hd hp hlookup hv⟩
        rw [spellPath_snoc]
        rw [length_append, Nat.cast_add] at hge ⊢
        omega
end Parents

theorem nested_entry_named : LeadsTo longNamesFs (plainState false) none 0
    (spellPath true false [List.replicate 63 97, [98]]) 2 := by
  refine (parent_lookup_fits (by decide) (by decide) (by decide +kernel)).1
    ⟨[List.replicate 63 97], [98], 1, rfl, rfl, by decide +kernel, by decide +kernel,
      .inl (by decide +kernel)⟩

/-- A trailing separator stays in the name. -/
theorem trailing_separator_kept :
    (vfsLookup plainFs (plainState false) none (spellPath true true [[97]]) false 0).map Prod.fst =
        some (.ok 2) ∧
      (vfsLookup plainFs (plainState false) none (spellPath true true [[97]]) true 0).map Prod.fst =
        some (.ok 1) ∧
      pathLastComponentScan (spellPath true true [[97]]) = some [97, 47] ∧
      lookupIn plainFs (plainState false).world (plainState false).mounts 1 [97, 47] =
        some (.error ENOENT) := by
  decide +kernel

end Gloworm.Vfs
