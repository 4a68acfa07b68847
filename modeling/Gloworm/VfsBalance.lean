import Gloworm.VfsModel

/-! References to vnodes: the calls give back what they have taken, except on the ways out on which
they forget to. -/
namespace Gloworm.Vfs
open Function List Option

section References
variable {D : Type} (s : State D) (v u : ℕ)

@[simp]
lemma refs_vfsCloneVnode : (vfsCloneVnode s v).refs u = s.refs u + if v = u then 1 else 0 := by
  by_cases h : v = u
  · simp [vfsCloneVnode, h]
  · simp [vfsCloneVnode, h, update_of_ne (Ne.symm h)]

@[simp]
lemma refs_vfsReleaseVnode : (vfsReleaseVnode s v).refs u = s.refs u - if v = u then 1 else 0 := by
  by_cases h : v = u
  · simp [vfsReleaseVnode, h]
  · simp [vfsReleaseVnode, h, update_of_ne (Ne.symm h)]

@[simp]
lemma vfsReleaseVnode_vfsCloneVnode : vfsReleaseVnode (vfsCloneVnode s v) v = s := by
  simp [vfsReleaseVnode, vfsCloneVnode]

@[simp]
lemma world_vfsCloneVnode : (vfsCloneVnode s v).world = s.world := by rfl

@[simp]
lemma readOnly_vfsCloneVnode : readOnly (vfsCloneVnode s v) = readOnly s := by rfl

@[simp]
lemma mayAccess_vfsCloneVnode : mayAccess (vfsCloneVnode s v) = mayAccess s := by rfl
end References
section Resolution
variable {D : Type} (fs : Fs D) (w : World D) (mounts : ℕ → Mount)

def entered (cur : ℕ) : Option (Except ℤ ℕ) :=
  if (w.node cur).mounted then
    match findMountByVnode mounts cur with
    | none => some (.error ENXIO)
    | some i => (mounts i).rootNode.map .ok
  else some (.ok cur)

def left (cur : ℕ) (component : Name) : Option ℕ :=
  if (mounts (w.node cur).mp).rootNode = some cur ∧ component = dotDot then
    (mounts (w.node cur).mp).mountNode
  else some cur

def resolveLoop (parentOf : Bool) (uid : ℕ) : ℕ → ℕ → Name → Option (Except ℤ ℕ)
  | 0, _, _ => none
  | fuel + 1, cur, path =>
    match entered w mounts cur with
    | none => none
    | some (.error e) => some (.error e)
    | some (.ok cur) =>
      if path = [] then some (.ok cur)
      else if !sIsdir (w.node cur).mode then some (.error ENOTDIR)
      else if !verifyModeAccess uid rOk (w.node cur) then some (.error EPERM)
      else if parentOf ∧ (nextComponent fs path).2 = [] then
        resolveLoop parentOf uid fuel cur (nextComponent fs path).2
      else match left w mounts cur (nextComponent fs path).1 with
        | none => none
        | some cur => match fs.lookup w cur (nextComponent fs path).1 with
          | .error e => some (.error e)
          | .ok next => resolveLoop parentOf uid fuel next (nextComponent fs path).2

/-- The vnode that `vfs_lookup` finds, without the references. -/
def resolve (s : State D) (cwd : Option ℕ) (path : Name) (parentOf : Bool) (uid : ℕ) :
    Option (Except ℤ ℕ) :=
  (lookupStart s cwd path).bind fun start =>
    resolveLoop fs s.world s.mounts parentOf uid (start.2.length + 2) start.1 start.2

/-- The state with the reference that the caller is given. -/
def held (s : State D) : Except ℤ ℕ → State D
  | .ok v => vfsCloneVnode s v
  | .error _ => s

lemma enterMount_eq (s : State D) (cur : ℕ) : enterMount (vfsCloneVnode s cur) cur =
      (entered s.world s.mounts cur).map fun r => (r, held s r) := by
  unfold enterMount entered
  change (if (s.world.node cur).mounted then _ else _) = _
  split_ifs
  · change (match findMountByVnode s.mounts cur with
      | none => _
      | some i => _) = _
    cases findMountByVnode s.mounts cur with
    | none => simp [held]
    | some i =>
      change Option.map _ (s.mounts i).rootNode = _
      rw [Option.map_map]
      congr 1
      funext root
      simp [held]
  · rfl

lemma leaveMount_eq (s : State D) (cur : ℕ) (component : Name) :
    leaveMount (vfsCloneVnode s cur) cur component =
      (left s.world s.mounts cur component).map fun v => (v, vfsCloneVnode s v) := by
  unfold leaveMount left
  change (if (s.mounts (s.world.node cur).mp).rootNode = some cur ∧ component = dotDot then
    Option.map _ (s.mounts (s.world.node cur).mp).mountNode else _) = _
  split_ifs
  · simp only [vfsReleaseVnode_vfsCloneVnode]
  · rfl

lemma lookupLoop_eq (parentOf : Bool) (uid fuel : ℕ) (s : State D) (cur : ℕ) (path : Name) :
    lookupLoop fs parentOf uid fuel (vfsCloneVnode s cur) cur path =
      (resolveLoop fs s.world s.mounts parentOf uid fuel cur path).map fun r => (r, held s r) := by
  induction fuel generalizing cur path with
  | zero => rfl
  | succ fuel ih =>
    rw [lookupLoop, resolveLoop, enterMount_eq]
    cases entered s.world s.mounts cur with
    | none => rfl
    | some r =>
      cases r with
      | error e => rfl
      | ok cur =>
        have hworld : (vfsCloneVnode s cur).world = s.world := rfl
        simp only [map_some, bind_eq_bind, bind_some, held, hworld]
        split_ifs
        · rfl
        · simp
        · simp
        · exact ih cur _
        · rw [leaveMount_eq]
          cases left s.world s.mounts cur (nextComponent fs path).1 with
          | none => rfl
          | some v =>
            simp only [map_some, bind_some, world_vfsCloneVnode]
            cases fs.lookup s.world v (nextComponent fs path).1 with
            | error e => simp
            | ok next =>
              simp only [vfsReleaseVnode_vfsCloneVnode]
              exact ih next _

lemma vfsLookup_eq (s : State D) (cwd : Option ℕ) (path : Name) (parentOf : Bool) (uid : ℕ) :
    vfsLookup fs s cwd path parentOf uid =
      (resolve fs s cwd path parentOf uid).map fun r => (r, held s r) := by
  unfold vfsLookup resolve
  cases lookupStart s cwd path with
  | none => rfl
  | some start => exact lookupLoop_eq fs parentOf uid _ s start.1 start.2

/-- If a vnode is found, it has the property. -/
def Lands (r : Option (Except ℤ ℕ)) (P : ℕ → Prop) : Prop :=
  match r with
  | none => False
  | some (.error _) => True
  | some (.ok v) => P v
end Resolution

inductive Call
  | access (path : Name) (mode : ℕ)
  | chmod (path : Name) (mode : ℕ)
  | chown (path : Name) (owner group : ℕ)
  | mknod (path : Name) (mode dev : ℕ)
  | link (oldpath newpath : Name)
  | unlink (path : Name)
  | rename (oldpath newpath : Name)
  | mount (path : Name) (dev : ℕ) (readOnly : Bool)
  | openClose (path : Name) (flags mode : ℕ)

section Balance
variable {D : Type} (fs : Fs D) (s : State D) (cwd : Option ℕ) (uid : ℕ)

/-- The vnodes that a call gives a reference to. -/
def handedOut : Except ℤ ℕ → List ℕ
  | .error _ => []
  | .ok v => [v]

def keptByMount (r : Except ℤ ℕ × State D) : List ℕ :=
  match r.1 with
  | .error _ => []
  | .ok i => (r.2.mounts i).mountNode.toList ++ (r.2.mounts i).rootNode.toList

def perform : Call → Option (State D × List ℕ)
  | .access path mode => (vfsAccess fs s cwd path mode uid).map fun r => (r.2, [])
  | .chmod path mode => (vfsChmod fs s cwd path mode uid).map fun r => (r.2, [])
  | .chown path owner group => (vfsChown fs s cwd path owner group uid).map fun r => (r.2, [])
  | .mknod path mode dev =>
    (vfsMknod fs s cwd path mode dev uid).map fun r => (r.2, handedOut r.1)
  | .link oldpath newpath => (vfsLink fs s cwd oldpath newpath uid).map fun r => (r.2, [])
  | .unlink path => (vfsUnlink fs s cwd path uid).map fun r => (r.2, [])
  | .rename oldpath newpath => (vfsRename fs s cwd oldpath newpath uid).map fun r => (r.2, [])
  | .mount path dev readOnly =>
    (vfsMount fs s cwd path dev readOnly uid).map fun r => (r.2, keptByMount r)
  | .openClose path flags mode => do
    match ← vfsOpen fs s cwd path flags mode uid with
    | (.error _, s) => some (s, [])
    | (.ok i, s) => (vfsClose fs s i).map fun r => (r.2, [])

/-- References have changed only by those that were handed out. -/
def Even (r : State D × List ℕ) : Prop := ∀ v, r.1.refs v = s.refs v + r.2.count v

def Settles (x : Option (State D × List ℕ)) : Prop := ∃ r, x = some r ∧ Even s r

/-- A call returns, and leaves no reference too many or too few. -/
def Balanced (call : Call) : Prop := Settles s (perform fs s cwd uid call)

def HasSlot (s : State D) (flags uid v : ℕ) : Prop :=
  mayAccess s uid (requiredMode flags) v = true → newFileptr s ≠ none

/-- The paths of a call lead to no error path that keeps a reference. -/
def Releases : Call → Prop
  | .access path _ => Lands (resolve fs s cwd path false uid) fun _ => True
  | .chmod path _ => Lands (resolve fs s cwd path false uid) fun v =>
      readOnly s v = false ∧ mayAccess s uid wOk v = true
  | .chown path _ _ => Lands (resolve fs s cwd path false uid) fun v => readOnly s v = false
  | .mknod path _ _ => Lands (resolve fs s cwd path true uid) fun v => readOnly s v = false
  | .link oldpath newpath => fs.nullReadOnly = some true ∨ fs.nullReadOnly = some false ∧
      Lands (resolve fs s cwd oldpath false uid) fun _ =>
        Lands (resolve fs s cwd newpath true uid) fun _ => True
  | .unlink path => Lands (resolve fs s cwd path true uid) fun _ => fs.nullReadOnly = some false
  | .rename oldpath newpath =>
      (!validName (pathLastComponent oldpath) ∨ !validName (pathLastComponent newpath)) ∨
      Lands (resolve fs s cwd oldpath true uid) fun p => readOnly s p = false ∧
        (mayAccess s uid (wOk ||| xOk) p = true →
          Lands (resolve fs s cwd newpath true uid) fun q => readOnly s q = false)
  | .mount path dev _ => uid ≠ suUid ∨ s.rootFs = none ∨
      Lands (resolve fs s cwd path false uid) fun v => (s.world.node v).mounted = true ∨
        (∀ i < vfsMountMax, (s.mounts i).dev ≠ dev) ∧ ∃ i < vfsMountMax, (s.mounts i).dev = 0
  | .openClose path flags mode =>
      Lands (resolve fs s cwd path (hasFlag flags oCreat) uid) fun v =>
        if hasFlag flags oCreat ∧ pathValidComponent (pathLastComponent path) then
          match fs.lookup s.world v (pathLastComponent path) with
          | .ok found => HasSlot s flags uid found
          | .error _ => readOnly s v = false ∧ (mayAccess s uid wOk v = true →
            match fs.create s.world v (pathLastComponent path)
              (if mode &&& sIfmt = 0 then mode ||| sIfreg else mode) uid with
            | (.error _, _) => False
            | (.ok new, world) => HasSlot { s with world := world } flags uid new)
        else hasFlag flags oCreat = false → HasSlot s flags uid v

variable {fs s cwd uid}

@[simp]
lemma settles_some {r : State D × List ℕ} : Settles s (some r) ↔ Even s r := by
  simp [Settles]

@[simp]
lemma not_settles_none : ¬Settles s none := by
  simp [Settles]

variable {t : State D}

lemma even_of_refs (h : t.refs = s.refs) : Even s (t, []) := by
  intro v
  simp [h]

lemma settled (h : t.refs = s.refs) : Settles s (some (t, [])) :=
  settles_some.mpr (even_of_refs h)

lemma not_even_clone (h : t.refs = s.refs) (v : ℕ) : ¬Even s (vfsCloneVnode t v, []) := by
  intro heven
  have hv := heven v
  simp [h] at hv

lemma settles_lookup {path : Name} {parentOf : Bool} {P : ℕ → Prop}
    {next : Except ℤ ℕ × State D → Option (State D × List ℕ)}
    (herror : ∀ e, Settles s (next (.error e, t)))
    (hok : ∀ v, Settles s (next (.ok v, vfsCloneVnode t v)) ↔ P v) :
    Settles s ((vfsLookup fs t cwd path parentOf uid).bind next) ↔
      Lands (resolve fs t cwd path parentOf uid) P := by
  rw [vfsLookup_eq]
  cases resolve fs t cwd path parentOf uid with
  | none => exact iff_of_false not_settles_none id
  | some r =>
    cases r with
    | error e => exact iff_of_true (herror e) trivial
    | ok v => exact hok v

variable (fs s cwd uid)

lemma balanced_access (path : Name) (mode : ℕ) :
    Balanced fs s cwd uid (.access path mode) ↔ Releases fs s cwd uid (.access path mode) := by
  rw [Balanced, perform, vfsAccess, bind_eq_bind, Option.map_bind]
  refine settles_lookup (fun e => settled rfl) fun v => ?_
  refine iff_of_true (settled ?_) trivial
  simp

lemma refs_vfsUpdate (v : ℕ) (node : Vnode) :
    (vfsUpdate fs (vfsCloneVnode s v) v node).2.refs = s.refs := by
  funext u
  simp [vfsUpdate, setNode]

lemma balanced_chmod (path : Name) (mode : ℕ) :
    Balanced fs s cwd uid (.chmod path mode) ↔ Releases fs s cwd uid (.chmod path mode) := by
  rw [Balanced, perform, vfsChmod, bind_eq_bind, Option.map_bind]
  refine settles_lookup (fun e => settled rfl) fun v => ?_
  simp only [Function.comp_apply, readOnly_vfsCloneVnode, mayAccess_vfsCloneVnode]
  cases hread : readOnly s v with
  | true => simpa using not_even_clone rfl v
  | false =>
    cases hwrite : mayAccess s uid wOk v with
    | false => simpa using not_even_clone rfl v
    | true => simpa using even_of_refs (refs_vfsUpdate ..)

lemma balanced_chown (path : Name) (owner group : ℕ) :
    Balanced fs s cwd uid (.chown path owner group) ↔
      Releases fs s cwd uid (.chown path owner group) := by
  rw [Balanced, perform, vfsChown, bind_eq_bind, Option.map_bind]
  refine settles_lookup (fun e => settled rfl) fun v => ?_
  simp only [Function.comp_apply, readOnly_vfsCloneVnode, mayAccess_vfsCloneVnode]
  cases hread : readOnly s v with
  | true => simpa using not_even_clone rfl v
  | false =>
    cases hwrite : mayAccess s uid wOk v with
    | false => simpa using even_of_refs (by simp)
    | true => simpa using even_of_refs (refs_vfsUpdate ..)

lemma balanced_mknod (path : Name) (mode dev : ℕ) : Balanced fs s cwd uid (.mknod path mode dev) ↔
      Releases fs s cwd uid (.mknod path mode dev) := by
  rw [Balanced, perform, vfsMknod, bind_eq_bind, Option.map_bind]
  refine settles_lookup (fun e => settled rfl) fun v => ?_
  simp only [Function.comp_apply, readOnly_vfsCloneVnode, mayAccess_vfsCloneVnode,
    world_vfsCloneVnode]
  cases hread : readOnly s v with
  | true => simpa [handedOut] using not_even_clone rfl v
  | false =>
    refine iff_of_true ?_ rfl
    cases hwrite : mayAccess s uid wOk v with
    | false => simpa [handedOut] using even_of_refs rfl
    | true =>
      cases hlookup : fs.lookup s.world v (pathLastComponent path) with
      | ok tmp => simpa [handedOut] using even_of_refs rfl
      | error e =>
        by_cases he : e = ENOENT
        · rcases hmknod : fs.mknod s.world v (pathLastComponent path) mode dev uid with ⟨r, w⟩
          cases r with
          | error e' =>
            have heven : Even s (vfsReleaseVnode { vfsCloneVnode s v with world := w } v, []) := by
              apply even_of_refs
              funext u
              simp
            simpa [he, handedOut] using heven
          | ok new =>
            have heven : Even s (vfsReleaseVnode (vfsCloneVnode
                { vfsCloneVnode s v with world := w } new) v, [new]) := by
              intro u
              simp [count_cons]
              ring
            simpa [he, handedOut] using heven
        · simpa [he, handedOut] using even_of_refs rfl

lemma refs_linkAt (v parent : ℕ) (newpath : Name) :
    (linkAt fs (vfsCloneVnode (vfsCloneVnode s v) parent) v parent newpath uid).2.refs = s.refs := by
  funext u
  rw [linkAt]
  cases hfound : fs.lookup (vfsCloneVnode (vfsCloneVnode s v) parent).world parent
      (pathLastComponent newpath) with
  | ok tmp =>
    dsimp only
    split_ifs
    · simp
      ring
    · simp
  | error e =>
    dsimp only
    split_ifs
    · simp
      ring
    · simp

lemma balanced_link (oldpath newpath : Name) : Balanced fs s cwd uid (.link oldpath newpath) ↔
      Releases fs s cwd uid (.link oldpath newpath) := by
  rw [Balanced, perform, vfsLink, Releases, bind_eq_bind, Option.map_bind]
  cases fs.nullReadOnly with
  | none => simp
  | some readOnly =>
    cases readOnly with
    | true => simpa using even_of_refs rfl
    | false =>
      simp only [bind_some, Function.comp_apply, Bool.false_eq_true, if_false,
        some.injEq, false_or, true_and]
      rw [linkVnodes, bind_eq_bind, Option.map_bind]
      refine settles_lookup (fun e => settled rfl) fun v => ?_
      simp only [Function.comp_apply, Option.map_bind]
      refine settles_lookup (fun e => settled (by simp)) fun parent => ?_
      refine iff_of_true ?_ trivial
      exact settled (refs_linkAt ..)

lemma refs_unlinkAt (parent : ℕ) (path : Name) :
    (unlinkAt fs (vfsCloneVnode s parent) parent path uid).2.refs = s.refs := by
  rw [unlinkAt]
  split_ifs
  · simp
  · dsimp only
    cases fs.lookup (vfsCloneVnode s parent).world parent (pathLastComponent path) with
    | error e => simp
    | ok v =>
      funext u
      simp
      ring

lemma balanced_unlink (path : Name) :
    Balanced fs s cwd uid (.unlink path) ↔ Releases fs s cwd uid (.unlink path) := by
  rw [Balanced, perform, vfsUnlink, bind_eq_bind, Option.map_bind]
  refine settles_lookup (fun e => settled rfl) fun v => ?_
  simp only [Function.comp_apply]
  cases fs.nullReadOnly with
  | none => simp
  | some readOnly =>
    cases readOnly with
    | true => simpa using not_even_clone rfl v
    | false => simpa using even_of_refs (refs_unlinkAt ..)

lemma refs_renameAt (p q : ℕ) (oldname newname : Name) :
    (renameAt fs (vfsCloneVnode (vfsCloneVnode s p) q) p oldname q newname).2.refs = s.refs := by
  funext u
  rw [renameAt]
  cases fs.lookup (vfsCloneVnode (vfsCloneVnode s p) q).world p oldname with
  | error e =>
    simp
    ring
  | ok v =>
    simp
    ring

lemma balanced_rename (oldpath newpath : Name) : Balanced fs s cwd uid (.rename oldpath newpath) ↔
      Releases fs s cwd uid (.rename oldpath newpath) := by
  rw [Balanced, perform, vfsRename, Releases]
  by_cases hname : !validName (pathLastComponent oldpath) ∨ !validName (pathLastComponent newpath)
  · rw [if_pos hname]
    exact iff_of_true (settled rfl) (.inl hname)
  · rw [if_neg hname, or_iff_right hname]
    rw [renameFindParent, bind_eq_bind, bind_eq_bind, bind_assoc, Option.map_bind]
    refine settles_lookup (fun e => settled rfl) fun p => ?_
    simp only [Function.comp_apply, readOnly_vfsCloneVnode, mayAccess_vfsCloneVnode]
    cases hread : readOnly s p with
    | true => simpa using not_even_clone rfl p
    | false =>
      cases hwrite : mayAccess s uid (wOk ||| xOk) p with
      | false => simpa using even_of_refs rfl
      | true =>
        simp only [Bool.not_true, Bool.false_eq_true, if_false, bind_some, true_and, forall_const]
        rw [renameFindParent, bind_eq_bind, bind_assoc, Option.map_bind]
        refine settles_lookup (fun e => settled (by simp)) fun q => ?_
        simp only [Function.comp_apply, readOnly_vfsCloneVnode]
        cases hread : readOnly s q with
        | true =>
          have heven : ¬Even s (vfsReleaseVnode (vfsCloneVnode (vfsCloneVnode s p) q) p, []) := by
            intro heven
            have hq := heven q
            simp at hq
            omega
          simpa using heven
        | false =>
          refine iff_of_true ?_ rfl
          cases mayAccess (vfsCloneVnode (vfsCloneVnode s p) q) uid (wOk ||| xOk) q with
          | false => simpa using even_of_refs rfl
          | true => simpa using even_of_refs (refs_renameAt ..)

lemma refs_freeFileptr (i v : ℕ) (hfile : (s.files i).vnode = some v)
    (hrefcount : (s.files i).refcount = 1) :
    (freeFileptr s i).refs = (vfsReleaseVnode s v).refs := by
  simp [freeFileptr, hfile, hrefcount, setFile]

def openThenClose (r : Except ℤ ℕ × State D) : Option (State D × List ℕ) :=
  match r with
  | (.error _, s) => some (s, [])
  | (.ok i, s) => (vfsClose fs s i).map fun r => (r.2, [])

lemma settles_openVnode (v flags : ℕ) (h : t.refs = (vfsCloneVnode s v).refs) :
    Settles s (openThenClose fs (openVnode fs t v flags uid)) ↔ HasSlot t flags uid v := by
  have hback : ∀ x : State D, x.refs = t.refs → (vfsReleaseVnode x v).refs = s.refs := by
    intro x hx
    funext u
    simp [hx, h]
  rw [openVnode, HasSlot]
  cases hmay : mayAccess t uid (requiredMode flags) v with
  | false => simpa [openThenClose] using even_of_refs (hback t rfl)
  | true =>
    cases hslot : newFileptr t with
    | none =>
      have heven : ¬Even s (t, []) := by
        intro heven
        have hv := heven v
        simp [h] at hv
      simpa [openThenClose] using heven
    | some i =>
      refine iff_of_true ?_ (by simp)
      simp only [Bool.not_true, Bool.false_eq_true, if_false]
      generalize openedWorld fs t v flags = world
      have hfree : ∀ x : State D, x.refs = t.refs → x.files i = openedFile world v flags →
          (freeFileptr x i).refs = s.refs := by
        intro x hx hfile
        rw [refs_freeFileptr x i v (by rw [hfile]; rfl) (by rw [hfile]; rfl)]
        exact hback x hx
      have hclose : ∀ x : State D, x.refs = t.refs → x.files i = openedFile world v flags →
          Settles s (openThenClose fs (.ok i, x)) := by
        intro x hx hfile
        have hcount : (openedFile world v flags).refcount = 1 := rfl
        have hvnode : (openedFile world v flags).vnode = some v := rfl
        simp only [openThenClose, vfsClose, hfile, hcount, hvnode, if_true, bind_eq_bind,
          bind_some, map_some]
        exact settled (hfree _ hx hfile)
      split_ifs
      · exact settled (hfree _ rfl (update_self ..))
      · exact hclose _ rfl (update_self ..)

lemma balanced_openClose (path : Name) (flags mode : ℕ) :
    Balanced fs s cwd uid (.openClose path flags mode) ↔
      Releases fs s cwd uid (.openClose path flags mode) := by
  have hperform : perform fs s cwd uid (.openClose path flags mode) =
      (vfsOpen fs s cwd path flags mode uid).bind (openThenClose fs) := by
    rw [perform, bind_eq_bind]
    congr 1
  rw [Balanced, hperform, vfsOpen, bind_eq_bind, bind_assoc]
  refine settles_lookup (fun e => settled rfl) fun v => ?_
  simp only [readOnly_vfsCloneVnode, mayAccess_vfsCloneVnode, world_vfsCloneVnode]
  cases hcreat : hasFlag flags oCreat with
  | false =>
    simp only [Bool.false_eq_true, if_false, false_and, bind_some, forall_const]
    exact settles_openVnode fs s uid v flags rfl
  | true =>
    cases hvalid : pathValidComponent (pathLastComponent path) with
    | false => simpa [openThenClose] using even_of_refs rfl
    | true =>
      simp only [Bool.not_true, Bool.false_eq_true, if_false, if_true, and_self]
      cases hlookup : fs.lookup s.world v (pathLastComponent path) with
      | ok found =>
        simp only [bind_some, vfsReleaseVnode_vfsCloneVnode]
        exact settles_openVnode fs s uid found flags rfl
      | error e =>
        cases hread : readOnly s v with
        | true => simpa [openThenClose] using not_even_clone rfl v
        | false =>
          cases hwrite : mayAccess s uid wOk v with
          | false => simpa [openThenClose] using even_of_refs rfl
          | true =>
            simp only [Bool.not_true, Bool.false_eq_true, if_false, true_and, forall_const]
            generalize fs.create s.world v (pathLastComponent path)
              (if mode &&& sIfmt = 0 then mode ||| sIfreg else mode) uid = r
            obtain ⟨r, world⟩ := r
            cases r with
            | error e' =>
              have heven : ¬Even s (vfsReleaseVnode (vfsReleaseVnode
                  { vfsCloneVnode s v with world := world } v) v, []) := by
                intro heven
                have hv := heven v
                simp at hv
              simpa [openThenClose] using heven
            | ok new =>
              refine settles_openVnode fs s uid new flags ?_
              funext u
              simp
              ring

lemma settles_mountAt (vnode : Option ℕ) (dev : ℕ) (readOnly : Bool)
    (h : t.refs = (vnode.elim s (vfsCloneVnode s)).refs) :
    Settles s ((mountAt fs t vnode dev readOnly).map fun r => (r.2, keptByMount r)) ↔
      ∀ v ∈ vnode, (t.world.node v).mounted = true ∨
        (∀ i < vfsMountMax, (t.mounts i).dev ≠ dev) ∧ ∃ i < vfsMountMax, (t.mounts i).dev = 0 := by
  have hback : ∀ x : State D, x.refs = t.refs →
      (vnode.elim x (vfsReleaseVnode x)).refs = s.refs := by
    intro x hx
    cases vnode with
    | none => exact hx.trans h
    | some v =>
      funext u
      simp [hx, h]
  rw [mountAt]
  by_cases hmounted : (vnode.any fun v => (t.world.node v).mounted) = true
  · rw [if_pos hmounted]
    refine iff_of_true (settled (hback t rfl)) ?_
    intro v hv
    rw [hv] at hmounted
    exact .inl hmounted
  · rw [if_neg hmounted]
    have hnot : ∀ v ∈ vnode, (t.world.node v).mounted = false := by
      intro v hv
      rw [hv] at hmounted
      simpa using hmounted
    have hlost : ∀ {P : Prop}, ¬P → (Settles s (some (t, [])) ↔
        ∀ v ∈ vnode, (t.world.node v).mounted = true ∨ P) := by
      intro P hP
      cases vnode with
      | none => exact iff_of_true (settled h) nofun
      | some v =>
        refine iff_of_false (fun heven => ?_) fun hall => ?_
        · have hv := settles_some.mp heven v
          simp [h] at hv
        · rcases hall v rfl with htrue | hfree
          · rw [hnot v rfl] at htrue
            cases htrue
          · exact hP hfree
    by_cases hbusy : ((List.range vfsMountMax).any fun i => (t.mounts i).dev = dev) = true
    · rw [if_pos hbusy]
      obtain ⟨i, hi, hdev⟩ : ∃ i < vfsMountMax, (t.mounts i).dev = dev := by simpa using hbusy
      exact hlost fun hfree => hfree.1 i hi hdev
    · rw [if_neg hbusy]
      have hdev : ∀ i < vfsMountMax, (t.mounts i).dev ≠ dev := by simpa using hbusy
      cases hslot : (List.range vfsMountMax).find? fun i => (t.mounts i).dev = 0 with
      | none =>
        have hfull : ∀ i < vfsMountMax, (t.mounts i).dev ≠ 0 := by simpa using hslot
        refine hlost ?_
        rintro ⟨-, i, hi, hzero⟩
        exact hfull i hi hzero
      | some i =>
        have hfree : i < vfsMountMax ∧ (t.mounts i).dev = 0 := by
          have hmem := List.mem_of_find?_eq_some hslot
          have hzero := List.find?_some hslot
          exact ⟨mem_range.mp hmem, by simpa using hzero⟩
        refine iff_of_true ?_ fun v _ => .inr ⟨hdev, i, hfree⟩
        dsimp only
        generalize fs.mount t.world i dev vnode = r
        obtain ⟨r, world⟩ := r
        cases r with
        | error e => exact settled (hback _ rfl)
        | ok root =>
          cases vnode with
          | none =>
            refine settles_some.mpr fun u => ?_
            cases root with
            | none => simp [setMount, keptByMount, h]
            | some root =>
              simp [setMount, keptByMount, h, count_cons]
              ring
          | some v =>
            refine settles_some.mpr fun u => ?_
            cases root with
            | none => simp [setMount, setNode, keptByMount, h, count_cons]
            | some root =>
              simp [setMount, setNode, keptByMount, h, count_cons]
              ring

lemma balanced_mount (path : Name) (dev : ℕ) (readOnly : Bool) :
    Balanced fs s cwd uid (.mount path dev readOnly) ↔
      Releases fs s cwd uid (.mount path dev readOnly) := by
  rw [Balanced, perform, vfsMount, Releases]
  by_cases huid : uid = suUid
  · by_cases hroot : s.rootFs = none
    · rw [if_neg (not_not_intro huid), if_pos hroot]
      refine iff_of_true ?_ (.inr (.inl hroot))
      exact (settles_mountAt fs s none dev readOnly rfl).mpr nofun
    · rw [if_neg (not_not_intro huid), if_neg hroot, or_iff_right (not_not_intro huid),
        or_iff_right hroot, bind_eq_bind, Option.map_bind]
      refine settles_lookup (fun e => settled rfl) fun v => ?_
      have hrefs : (vfsCloneVnode s v).refs = ((some v).elim s (vfsCloneVnode s)).refs := rfl
      refine (settles_mountAt fs s (some v) dev readOnly hrefs).trans ?_
      exact ⟨fun hall => hall v rfl, fun hv u hu => some.inj hu ▸ hv⟩
  · rw [if_pos huid]
    exact iff_of_true (settled rfl) (.inl huid)

/-- A call gives back what it has taken exactly on these ways. -/
theorem balanced_iff (call : Call) : Balanced fs s cwd uid call ↔ Releases fs s cwd uid call := by
  cases call with
  | access path mode => exact balanced_access fs s cwd uid path mode
  | chmod path mode => exact balanced_chmod fs s cwd uid path mode
  | chown path owner group => exact balanced_chown fs s cwd uid path owner group
  | mknod path mode dev => exact balanced_mknod fs s cwd uid path mode dev
  | link oldpath newpath => exact balanced_link fs s cwd uid oldpath newpath
  | unlink path => exact balanced_unlink fs s cwd uid path
  | rename oldpath newpath => exact balanced_rename fs s cwd uid oldpath newpath
  | mount path dev readOnly => exact balanced_mount fs s cwd uid path dev readOnly
  | openClose path flags mode => exact balanced_openClose fs s cwd uid path flags mode
end Balance

def plainFs : Fs (ℕ → ℕ) where
  nameMax := 64
  nameMax_ge := by decide
  nullReadOnly := none
  lookup w v name :=
    if v = 1 ∧ name = [97] ∧ (w.node 2).mp = (w.node 1).mp then .ok 2 else .error ENOENT
  create w _ _ _ _ := (.error ENOENT, w)
  mknod w _ _ _ _ _ := (.error ENOENT, w)
  link w _ _ _ := (0, w)
  unlink w _ _ _ := (0, w)
  rename w _ _ _ _ _ := (0, w)
  truncate w v := { w with disk := update w.disk (w.node v).mp 0 }
  update w _ := (0, w)
  mount w _ _ _ := (.ok (some 3), w)
  sync w _ := (0, w)
  openFile w _ _ _ := (0, w)
  closeFile w _ _ := (0, w)
  read w file _ := (0, file.position, w)
  write w file _ := (0, file.position, w)
  readdir w file := (0, file.position, w)

def plainState (readOnly : Bool) : State (ℕ → ℕ) where
  world := ⟨fun v => ⟨if v = 1 then 0o40755 else 0o100644, 0, 0, 0, false, 0⟩, fun _ => 7⟩
  refs _ := 1
  mounts i := if i = 0 then ⟨2, some 1, some 1, readOnly⟩ else ⟨0, none, none, false⟩
  rootFs := some 0
  files _ := ⟨.fs, none, 0, 0, 0⟩

/-- A refused `chmod` keeps its reference. -/
theorem chmod_keeps_reference :
    (vfsChmod plainFs (plainState false) none [47, 97] 0o777 5).map (fun r => (r.1, r.2.refs 2)) =
        some (EPERM, 2) ∧
      (plainState false).refs 2 = 1 := by
  decide +kernel

end Gloworm.Vfs
