import Gloworm.VfsBalance

/-! Read-only mounts: nothing on them changes, and a call that would change something answers
`EROFS`. -/
namespace Gloworm.Vfs
open Function Transition

section Worlds
variable {D C : Type} (part : D → ℕ → C)

/-- What is on the device of a mount, the attributes of its files and the mounts stay. -/
structure Keeps (m : ℕ) (w w' : World D) : Prop where
  disk : part w'.disk m = part w.disk m
  node : ∀ v, (w.node v).mp = m ∨ (w'.node v).mp = m → w'.node v = w.node v
  mounted : ∀ v, (w'.node v).mounted = (w.node v).mounted

variable {part} {m : ℕ}

lemma Keeps.refl (w : World D) : Keeps part m w w where
  disk := rfl
  node _ _ := rfl
  mounted _ := rfl

lemma Keeps.trans {w w' w'' : World D} (h : Keeps part m w w') (h' : Keeps part m w' w'') :
    Keeps part m w w'' where
  disk := h'.disk.trans h.disk
  node v hv := by
    have hmid : (w'.node v).mp = m := by
      rcases hv with hv | hv
      · rw [h.node v (.inl hv), hv]
      · rw [← h'.node v (.inr hv), hv]
    exact (h'.node v (.inl hmid)).trans (h.node v (.inr hmid))
  mounted v := (h'.mounted v).trans (h.mounted v)

variable (part)

def Confined (P : ℕ → Prop) (w w' : World D) : Prop := ∀ m, ¬P m → Keeps part m w w'

/-- Operations stay on the mounts of their vnodes, and reading, opening and closing changes nothing.
A write to a device reaches its driver: `backs w v k` says that this driver stores what is on the
mount `k` (the mounted device, the disk it is a partition of, the memory). -/
structure Lawful (backs : World D → ℕ → ℕ → Prop) (fs : Fs D) : Prop where
  lookup : ∀ w v name u, fs.lookup w v name = .ok u → (w.node u).mp = (w.node v).mp
  create : ∀ w v name mode uid,
    Confined part (· = (w.node v).mp) w (fs.create w v name mode uid).2
  created : ∀ w v name mode uid u, (fs.create w v name mode uid).1 = .ok u →
    ((fs.create w v name mode uid).2.node u).mp = (w.node v).mp
  mknod : ∀ w v name mode dev uid,
    Confined part (· = (w.node v).mp) w (fs.mknod w v name mode dev uid).2
  rename : ∀ w v p oldname q newname, Confined part
    (fun k => k = (w.node v).mp ∨ k = (w.node p).mp ∨ k = (w.node q).mp) w
    (fs.rename w v p oldname q newname).2
  truncate : ∀ w v, Confined part (· = (w.node v).mp) w (fs.truncate w v)
  update : ∀ w v, Confined part (· = (w.node v).mp) w (fs.update w v).2
  sync : ∀ w i, Confined part (fun _ => False) w (fs.sync w i).2
  openFile : ∀ w ops v flags, Confined part (fun _ => False) w (fs.openFile w ops v flags).2
  closeFile : ∀ w ops v, Confined part (fun _ => False) w (fs.closeFile w ops v).2
  read : ∀ w file length, Confined part (fun _ => False) w (fs.read w file length).2.2
  readdir : ∀ w file, Confined part (fun _ => False) w (fs.readdir w file).2.2
  write : ∀ w file data, Confined part
    (fun k => ∃ v, file.vnode = some v ∧
      (file.ops = .fs ∧ k = (w.node v).mp ∨ backs w v k)) w (fs.write w file data).2.2
end Worlds

inductive Request
  | openPath (cwd : Option ℕ) (path : Name) (flags mode uid : ℕ)
  | close (file : ℕ)
  | read (file length : ℕ)
  | write (file : ℕ) (data : Name)
  | readdir (file : ℕ)
  | chmod (cwd : Option ℕ) (path : Name) (mode uid : ℕ)
  | chown (cwd : Option ℕ) (path : Name) (owner group uid : ℕ)
  | mknod (cwd : Option ℕ) (path : Name) (mode dev uid : ℕ)
  | link (cwd : Option ℕ) (oldpath newpath : Name) (uid : ℕ)
  | unlink (cwd : Option ℕ) (path : Name) (uid : ℕ)
  | rename (cwd : Option ℕ) (oldpath newpath : Name) (uid : ℕ)
  | sync (dev : ℕ)

def resultCode : Except ℤ ℕ → ℤ
  | .error e => e
  | .ok _ => 0

section Requests
variable {D : Type} (fs : Fs D)

def serve (s : State D) : Request → Option (ℤ × State D)
  | .openPath cwd path flags mode uid =>
    (vfsOpen fs s cwd path flags mode uid).map fun r => (resultCode r.1, r.2)
  | .close i => vfsClose fs s i
  | .read i length => vfsRead fs s i length
  | .write i data => vfsWrite fs s i data
  | .readdir i => vfsReaddir fs s i
  | .chmod cwd path mode uid => vfsChmod fs s cwd path mode uid
  | .chown cwd path owner group uid => vfsChown fs s cwd path owner group uid
  | .mknod cwd path mode dev uid =>
    (vfsMknod fs s cwd path mode dev uid).map fun r => (resultCode r.1, r.2)
  | .link cwd oldpath newpath uid => vfsLink fs s cwd oldpath newpath uid
  | .unlink cwd path uid => vfsUnlink fs s cwd path uid
  | .rename cwd oldpath newpath uid => vfsRename fs s cwd oldpath newpath uid
  | .sync dev => some (vfsSync fs s dev)

def openTarget (s : State D) (cwd : Option ℕ) (path : Name) (flags uid : ℕ) : Option ℕ :=
  match resolve fs s cwd path (hasFlag flags oCreat) uid with
  | some (.ok v) =>
    if hasFlag flags oCreat then
      if pathValidComponent (pathLastComponent path) then
        (fs.lookup s.world v (pathLastComponent path)).toOption
      else none
    else some v
  | _ => none

def Truncates (s : State D) (v flags uid : ℕ) : Prop :=
  mayAccess s uid (requiredMode flags) v = true ∧ newFileptr s ≠ none ∧
    hasFlag flags oTrunc = true ∧ sIsreg (s.world.node v).mode = true

/-- No `link`, no `unlink` in a directory that exists, no `O_TRUNC` for a regular file of the mount,
no writing to its special files that are not devices, and no writing to a device that stores it. -/
def Permitted (backs : World D → ℕ → ℕ → Prop) (m : ℕ) (s : State D) : Request → Prop
  | .openPath cwd path flags _ uid => ∀ v, openTarget fs s cwd path flags uid = some v →
      (s.world.node v).mp = m → ¬Truncates s v flags uid
  | .close i => (s.files i).vnode ≠ none
  | .read i _ => (s.files i).vnode ≠ none
  | .readdir i => (s.files i).vnode ≠ none
  | .write i _ => ∃ v, (s.files i).vnode = some v ∧ ((s.world.node v).mp = m →
      sIsreg (s.world.node v).mode = true ∨ sIsdir (s.world.node v).mode = true ∨
      (s.files i).ops = .device ∨ (s.files i).flags &&& oAccmode = oRdonly) ∧
      (backs s.world v m → (s.files i).flags &&& oAccmode = oRdonly)
  | .link _ _ _ _ => False
  | .unlink cwd path uid => ∀ v, resolve fs s cwd path true uid ≠ some (.ok v)
  | _ => True

def writable (m : ℕ) (s : State D) : State D :=
  setMount s m { s.mounts m with readOnly := false }

/-- There is a root file system, and both vnodes of each mount are there. -/
structure Sane (s : State D) : Prop where
  root : ∃ i root, s.rootFs = some i ∧ (s.mounts i).rootNode = some root
  mounted : ∀ v i, (s.world.node v).mounted = true → findMountByVnode s.mounts v = some i →
    (s.mounts i).rootNode ≠ none
  under : ∀ i root, (s.mounts i).rootNode = some root → (s.mounts i).mountNode ≠ none
end Requests
section Lookups
variable {D : Type} (fs : Fs D)

lemma nextComponent_length (path : Name) (hpath : path ≠ []) :
    (nextComponent fs path).2.length < path.length := by
  obtain ⟨c, rest, rfl⟩ := List.exists_cons_of_ne_nil hpath
  have hmax := fs.nameMax_ge
  obtain ⟨k, hk⟩ : ∃ k, fs.nameMax - 1 = k + 1 := ⟨fs.nameMax - 2, by omega⟩
  rw [nextComponent, hk, List.take_succ_cons]
  by_cases hc : c = vfsSep
  · simp [hc]
  · rw [List.takeWhile_cons_of_pos (by simpa using hc)]
    simp only [List.length_cons, List.drop_succ_cons]
    split_ifs
    · rw [List.length_tail, List.length_drop]
      omega
    · rw [List.length_drop]
      omega

lemma resolveLoop_ne_none {s : State D} (hsane : Sane s) (parentOf : Bool) (uid : ℕ)
    {fuel : ℕ} {cur : ℕ} {path : Name} (hfuel : path.length < fuel) :
    resolveLoop fs s.world s.mounts parentOf uid fuel cur path ≠ none := by
  induction fuel generalizing cur path with
  | zero => omega
  | succ fuel ih =>
    rw [resolveLoop]
    cases hentered : entered s.world s.mounts cur with
    | none =>
      rw [entered] at hentered
      split_ifs at hentered with hmounted
      cases hfind : findMountByVnode s.mounts cur with
      | none => simp [hfind] at hentered
      | some i =>
        simp only [hfind, Option.map_eq_none_iff] at hentered
        exact absurd hentered (hsane.mounted cur i hmounted hfind)
    | some r =>
      cases r with
      | error e => simp
      | ok cur =>
        dsimp only
        by_cases hpath : path = []
        · simp [hpath]
        · have hshort := nextComponent_length fs path hpath
          rw [if_neg hpath]
          split_ifs
          · simp
          · simp
          · exact ih (by omega)
          · cases hleft : left s.world s.mounts cur (nextComponent fs path).1 with
            | none =>
              rw [left] at hleft
              split_ifs at hleft with hroot
              exact absurd hleft (hsane.under _ cur hroot.1)
            | some v =>
              dsimp only
              cases fs.lookup s.world v (nextComponent fs path).1 with
              | error e => simp
              | ok next => exact ih (by omega)

lemma resolve_ne_none {s : State D} (hsane : Sane s) (cwd : Option ℕ) (path : Name)
    (parentOf : Bool) (uid : ℕ) : resolve fs s cwd path parentOf uid ≠ none := by
  obtain ⟨i, root, hfs, hroot⟩ := hsane.root
  have hstart : ∃ start, lookupStart s cwd path = some start := by
    rw [lookupStart, hfs]
    cases cwd <;> simp [hroot] <;> split_ifs <;> simp
  obtain ⟨start, hstart⟩ := hstart
  rw [resolve, hstart]
  exact resolveLoop_ne_none fs hsane parentOf uid (by omega)

@[simp]
lemma world_writable (m : ℕ) (s : State D) : (writable m s).world = s.world := by rfl

@[simp]
lemma mayAccess_writable (m : ℕ) (s : State D) : mayAccess (writable m s) = mayAccess s := by rfl

@[simp]
lemma files_writable (m : ℕ) (s : State D) : (writable m s).files = s.files := by rfl

lemma resolve_writable (m : ℕ) (s : State D) (cwd : Option ℕ) (path : Name) (parentOf : Bool)
    (uid : ℕ) :
    resolve fs (writable m s) cwd path parentOf uid = resolve fs s cwd path parentOf uid := by
  have hmount : ∀ i, ((writable m s).mounts i).rootNode = (s.mounts i).rootNode ∧
      ((writable m s).mounts i).mountNode = (s.mounts i).mountNode := by
    intro i
    by_cases hi : i = m <;> simp [writable, setMount, hi]
  have hfs : (writable m s).rootFs = s.rootFs := rfl
  have hentered : entered s.world (writable m s).mounts = entered s.world s.mounts := by
    funext cur
    simp only [entered, findMountByVnode, hmount]
  have hleft : left s.world (writable m s).mounts = left s.world s.mounts := by
    funext cur component
    simp only [left, hmount]
  have hloop : ∀ fuel cur path,
      resolveLoop fs s.world (writable m s).mounts parentOf uid fuel cur path =
        resolveLoop fs s.world s.mounts parentOf uid fuel cur path := by
    intro fuel
    induction fuel with
    | zero => exact fun _ _ => rfl
    | succ fuel ih =>
      intro cur path
      simp only [resolveLoop, hentered, hleft, ih]
  have hstart : lookupStart (writable m s) cwd path = lookupStart s cwd path := by
    simp only [lookupStart, hfs, hmount]
  rw [resolve, resolve, hstart, world_writable]
  congr 1
  funext start
  exact hloop _ _ _
end Lookups
section Guarding
variable {D C : Type} (part : D → ℕ → C) (m : ℕ)

/-- Nothing on the mount changes, and if it does when the mount is writable (`y`), `x` is
`EROFS`. -/
def Guards (s : State D) (x y : Option (ℤ × State D)) : Prop :=
  ∃ r, x = some r ∧ Keeps part m s.world r.2.world ∧ r.2.mounts = s.mounts ∧
    r.2.rootFs = s.rootFs ∧ ∀ q, y = some q → Keeps part m s.world q.2.world ∨ r.1 = EROFS

variable {part m}

lemma Guards.refused {s t : State D} {y : Option (ℤ × State D)} (hworld : t.world = s.world)
    (hmounts : t.mounts = s.mounts) (hroot : t.rootFs = s.rootFs) :
    Guards part m s (some (EROFS, t)) y :=
  ⟨(EROFS, t), rfl, hworld ▸ .refl _, hmounts, hroot, fun _ _ => .inr rfl⟩

lemma Guards.same {s : State D} {r q : ℤ × State D} (hkeeps : Keeps part m s.world r.2.world)
    (hmounts : r.2.mounts = s.mounts) (hroot : r.2.rootFs = s.rootFs)
    (hworld : q.2.world = r.2.world) : Guards part m s (some r) (some q) := by
  refine ⟨r, rfl, hkeeps, hmounts, hroot, fun q' hq => .inl ?_⟩
  obtain rfl := Option.some.inj hq
  rw [hworld]
  exact hkeeps

variable {t' : State D}

lemma Guards.idle {s t : State D} {e e' : ℤ} (hworld : t.world = s.world)
    (hmounts : t.mounts = s.mounts) (hroot : t.rootFs = s.rootFs) (hworld' : t'.world = s.world) :
    Guards part m s (some (e, t)) (some (e', t')) :=
  .same (hworld ▸ .refl _) hmounts hroot (hworld'.trans hworld.symm)

variable {fs : Fs D} {backs : World D → ℕ → ℕ → Prop} {s t : State D} {path : Name}
  {cwd : Option ℕ}

lemma guards_lookup (hsane : Sane t) {parentOf : Bool} {uid : ℕ}
    {next next' : Except ℤ ℕ × State D → Option (ℤ × State D)}
    (herror : ∀ e, Guards part m s (next (.error e, t)) (next' (.error e, writable m t)))
    (hok : ∀ v, resolve fs t cwd path parentOf uid = some (.ok v) →
      Guards part m s (next (.ok v, vfsCloneVnode t v))
        (next' (.ok v, vfsCloneVnode (writable m t) v))) :
    Guards part m s ((vfsLookup fs t cwd path parentOf uid).bind next)
      ((vfsLookup fs (writable m t) cwd path parentOf uid).bind next') := by
  rw [vfsLookup_eq, vfsLookup_eq, resolve_writable]
  cases hresolve : resolve fs t cwd path parentOf uid with
  | none => exact absurd hresolve (resolve_ne_none fs hsane cwd path parentOf uid)
  | some r =>
    cases r with
    | error e => exact herror e
    | ok v => exact hok v hresolve

variable {v : ℕ}

lemma readOnly_writable (hv : (s.world.node v).mp ≠ m) :
    readOnly (writable m s) v = readOnly s v := by
  have hmounts : (writable m s).mounts (s.world.node v).mp = s.mounts (s.world.node v).mp :=
    update_of_ne hv _ _
  exact congrArg Mount.readOnly hmounts

lemma guards_tested (hro : (s.mounts m).readOnly = true)
    {x x' y y' : Option (ℤ × State D)} (hx : ∀ z, Guards part m s x z)
    (hy : (s.world.node v).mp ≠ m → Guards part m s y y') :
    Guards part m s (if readOnly s v then x else y) (if readOnly (writable m s) v then x' else y') := by
  by_cases hv : (s.world.node v).mp = m
  · have hread : readOnly s v = true := by rw [readOnly, hv, hro]
    rw [if_pos hread]
    exact hx _
  · rw [readOnly_writable hv]
    split_ifs
    · exact hx _
    · exact hy hv

lemma node_setNode_self (v : ℕ) (node : Vnode) : (setNode s v node).world.node v = node :=
  update_self ..

lemma node_setNode_of_ne {u : ℕ} (hu : u ≠ v) (node : Vnode) :
    (setNode s v node).world.node u = s.world.node u := update_of_ne hu _ _

lemma keeps_setNode {node : Vnode} (hv : (s.world.node v).mp ≠ m)
    (hmp : node.mp = (s.world.node v).mp) (hmounted : node.mounted = (s.world.node v).mounted) :
    Keeps part m s.world (setNode s v node).world where
  disk := rfl
  node u hu := by
    apply node_setNode_of_ne
    rintro rfl
    rw [node_setNode_self, hmp, or_self] at hu
    exact hv hu
  mounted u := by
    by_cases hu : u = v
    · rw [hu, node_setNode_self, hmounted]
    · rw [node_setNode_of_ne hu]

lemma keeps_vfsUpdate (hfs : Lawful part backs fs) {node : Vnode}
    (hv : (s.world.node v).mp ≠ m) (hmp : node.mp = (s.world.node v).mp)
    (hmounted : node.mounted = (s.world.node v).mounted) :
    Keeps part m s.world (vfsUpdate fs s v node).2.world := by
  have hset : Keeps part m s.world (setNode s v node).world := keeps_setNode hv hmp hmounted
  refine hset.trans (hfs.update _ v m ?_)
  rw [node_setNode_self, hmp]
  exact Ne.symm hv

lemma ite_bind {α : Type} {c : Prop} [Decidable c] (x y : Option α)
    (next : α → Option (ℤ × State D)) :
    (if c then x else y).bind next = if c then x.bind next else y.bind next := by
  split_ifs <;> rfl

section Paths
variable (hfs : Lawful part backs fs) (hsane : Sane s) (hro : (s.mounts m).readOnly = true)
include hsane

lemma guards_unlink {uid : ℕ} (hfree : ∀ v, resolve fs s cwd path true uid ≠ some (.ok v)) :
    Guards part m s (vfsUnlink fs s cwd path uid) (vfsUnlink fs (writable m s) cwd path uid) := by
  rw [vfsUnlink, vfsUnlink, Option.bind_eq_bind]
  refine guards_lookup hsane (fun e => .idle rfl rfl rfl rfl) fun v hresolve => ?_
  exact absurd hresolve (hfree v)

include hfs hro

lemma guards_chmod (cwd : Option ℕ) (path : Name) (mode uid : ℕ) :
    Guards part m s (vfsChmod fs s cwd path mode uid)
      (vfsChmod fs (writable m s) cwd path mode uid) := by
  rw [vfsChmod, vfsChmod, Option.bind_eq_bind]
  refine guards_lookup hsane (fun e => .idle rfl rfl rfl rfl) fun v _ => ?_
  refine guards_tested hro (fun _ => .refused rfl rfl rfl) fun hv => ?_
  simp only [mayAccess_vfsCloneVnode, mayAccess_writable]
  split_ifs
  · exact .idle rfl rfl rfl rfl
  · exact .same (keeps_vfsUpdate hfs hv rfl rfl) rfl rfl rfl

lemma guards_chown (cwd : Option ℕ) (path : Name) (owner group uid : ℕ) :
    Guards part m s (vfsChown fs s cwd path owner group uid)
      (vfsChown fs (writable m s) cwd path owner group uid) := by
  rw [vfsChown, vfsChown, Option.bind_eq_bind]
  refine guards_lookup hsane (fun e => .idle rfl rfl rfl rfl) fun v _ => ?_
  refine guards_tested hro (fun _ => .refused rfl rfl rfl) fun hv => ?_
  simp only [mayAccess_vfsCloneVnode, mayAccess_writable]
  split_ifs
  · exact .idle rfl rfl rfl rfl
  · exact .same (keeps_vfsUpdate hfs hv rfl rfl) rfl rfl rfl

lemma guards_mknod (cwd : Option ℕ) (path : Name) (mode dev uid : ℕ) : Guards part m s
      ((vfsMknod fs s cwd path mode dev uid).map fun r => (resultCode r.1, r.2))
      ((vfsMknod fs (writable m s) cwd path mode dev uid).map fun r => (resultCode r.1, r.2)) := by
  rw [vfsMknod, vfsMknod, Option.bind_eq_bind, Option.map_bind, Option.map_bind]
  refine guards_lookup hsane (fun e => .idle rfl rfl rfl rfl) fun v _ => ?_
  simp only [Function.comp_apply, apply_ite (Option.map _)]
  refine guards_tested hro (fun _ => .refused rfl rfl rfl) fun hv => ?_
  simp only [mayAccess_vfsCloneVnode, mayAccess_writable, world_vfsCloneVnode, world_writable]
  split_ifs
  · exact .idle rfl rfl rfl rfl
  · cases fs.lookup s.world v (pathLastComponent path) with
    | ok tmp => exact .idle rfl rfl rfl rfl
    | error e =>
      dsimp only
      split_ifs
      · exact .idle rfl rfl rfl rfl
      · have hkeeps := hfs.mknod s.world v (pathLastComponent path) mode dev uid m (Ne.symm hv)
        rcases hmknod : fs.mknod s.world v (pathLastComponent path) mode dev uid with ⟨r, w⟩
        rw [hmknod] at hkeeps
        cases r with
        | error e => exact .same hkeeps rfl rfl rfl
        | ok new => exact .same hkeeps rfl rfl rfl

lemma guards_rename (cwd : Option ℕ) (oldpath newpath : Name) (uid : ℕ) :
    Guards part m s (vfsRename fs s cwd oldpath newpath uid)
      (vfsRename fs (writable m s) cwd oldpath newpath uid) := by
  rw [vfsRename, vfsRename]
  by_cases hname : !validName (pathLastComponent oldpath) ∨ !validName (pathLastComponent newpath)
  · rw [if_pos hname, if_pos hname]
    exact .idle rfl rfl rfl rfl
  rw [if_neg hname, if_neg hname]
  simp only [renameFindParent, Option.bind_eq_bind, Option.bind_assoc]
  refine guards_lookup hsane (fun e => .idle rfl rfl rfl rfl) fun p _ => ?_
  simp only [ite_bind, Option.bind_some]
  refine guards_tested hro (fun _ => .refused rfl rfl rfl) fun hp => ?_
  simp only [mayAccess_vfsCloneVnode, mayAccess_writable]
  split_ifs
  · exact .idle rfl rfl rfl rfl
  have hsane' : Sane (vfsCloneVnode s p) := ⟨hsane.root, hsane.mounted, hsane.under⟩
  refine guards_lookup hsane' (fun e => .idle rfl rfl rfl rfl) fun q _ => ?_
  simp only [ite_bind, Option.bind_some]
  refine guards_tested hro (fun _ => .refused rfl rfl rfl) fun hq => ?_
  simp only [mayAccess_vfsCloneVnode, mayAccess_writable]
  split_ifs
  · exact .idle rfl rfl rfl rfl
  simp only [renameAt, world_vfsCloneVnode, world_writable]
  cases hlookup : fs.lookup s.world p (pathLastComponent oldpath) with
  | error e => exact .idle rfl rfl rfl rfl
  | ok v =>
    have hv := hfs.lookup _ _ _ _ hlookup
    have hkeeps := hfs.rename s.world v p (pathLastComponent oldpath) q
        (pathLastComponent newpath) m fun hm => by
      rcases hm with hm | hm | hm
      · exact hp (hv ▸ hm.symm)
      · exact hp hm.symm
      · exact hq hm.symm
    exact .same hkeeps rfl rfl rfl
end Paths

lemma keeps_freeFileptr (i : ℕ) : (freeFileptr s i).world = s.world ∧
    (freeFileptr s i).mounts = s.mounts ∧ (freeFileptr s i).rootFs = s.rootFs := by
  rw [freeFileptr]
  split_ifs
  · cases (s.files i).vnode <;> exact ⟨rfl, rfl, rfl⟩
  · exact ⟨rfl, rfl, rfl⟩

@[simp]
lemma world_freeFileptr (i : ℕ) : (freeFileptr s i).world = s.world := (keeps_freeFileptr i).1

lemma openVnode_world (hworld : t'.world = t.world) (hfiles : t'.files = t.files)
    (v flags uid : ℕ) :
    (openVnode fs t' v flags uid).2.world = (openVnode fs t v flags uid).2.world := by
  have hmay : mayAccess t' uid (requiredMode flags) v = mayAccess t uid (requiredMode flags) v := by
    rw [mayAccess, hworld, mayAccess]
  have hslot : newFileptr t' = newFileptr t := by
    rw [newFileptr, hfiles, newFileptr]
  have hopened : openedWorld fs t' v flags = openedWorld fs t v flags := by
    rw [openedWorld, hworld, openedWorld]
  rw [openVnode, openVnode, hmay, hslot, hopened]
  cases mayAccess t uid (requiredMode flags) v with
  | false => exact hworld
  | true =>
    cases newFileptr t with
    | none => exact hworld
    | some i =>
      simp only [Bool.not_true, Bool.false_eq_true, if_false]
      split_ifs
      · simp only [world_freeFileptr]
        rfl
      · rfl

section
variable {flags uid i : ℕ} (hfs : Lawful part backs fs)
include hfs

lemma keeps_openVnode (hv : (t.world.node v).mp = m → ¬Truncates t v flags uid) :
    Keeps part m t.world (openVnode fs t v flags uid).2.world ∧
      (openVnode fs t v flags uid).2.mounts = t.mounts ∧
      (openVnode fs t v flags uid).2.rootFs = t.rootFs := by
  rw [openVnode]
  cases hmay : mayAccess t uid (requiredMode flags) v with
  | false => exact ⟨.refl _, rfl, rfl⟩
  | true =>
    cases hslot : newFileptr t with
    | none => exact ⟨.refl _, rfl, rfl⟩
    | some i =>
      have hopened : Keeps part m t.world (openedWorld fs t v flags) := by
        rw [openedWorld]
        split_ifs with htrunc
        · refine hfs.truncate t.world v m fun hm => ?_
          exact hv hm.symm ⟨hmay, by simp [hslot], htrunc.1, htrunc.2⟩
        · exact .refl _
      have hkeeps := hopened.trans (hfs.openFile (openedWorld fs t v flags)
        (openedFile (openedWorld fs t v flags) v flags).ops v flags m id)
      simp only [Bool.not_true, Bool.false_eq_true, if_false]
      split_ifs
      · refine ⟨?_, (keeps_freeFileptr i).2⟩
        simp only [world_freeFileptr]
        exact hkeeps
      · exact ⟨hkeeps, rfl, rfl⟩

lemma guards_openVnode (hworld : Keeps part m s.world t.world)
    (hmounts : t.mounts = s.mounts) (hroot : t.rootFs = s.rootFs) (hworld' : t'.world = t.world)
    (hfiles : t'.files = t.files) (hv : (t.world.node v).mp = m → ¬Truncates t v flags uid) :
    Guards part m s
      (some (resultCode (openVnode fs t v flags uid).1, (openVnode fs t v flags uid).2))
      (some (resultCode (openVnode fs t' v flags uid).1, (openVnode fs t' v flags uid).2)) := by
  obtain ⟨hkeeps, hmounts', hroot'⟩ := keeps_openVnode hfs hv
  exact .same (hworld.trans hkeeps) (hmounts'.trans hmounts) (hroot'.trans hroot)
    (openVnode_world hworld' hfiles v flags uid)

lemma guards_open (hsane : Sane s) (hro : (s.mounts m).readOnly = true) {mode : ℕ}
    (htarget : ∀ v, openTarget fs s cwd path flags uid = some v → (s.world.node v).mp = m →
      ¬Truncates s v flags uid) : Guards part m s
      ((vfsOpen fs s cwd path flags mode uid).map fun r => (resultCode r.1, r.2))
      ((vfsOpen fs (writable m s) cwd path flags mode uid).map fun r => (resultCode r.1, r.2)) := by
  rw [vfsOpen, vfsOpen, Option.bind_eq_bind, Option.map_bind, Option.map_bind]
  refine guards_lookup hsane (fun e => .idle rfl rfl rfl rfl) fun v hresolve => ?_
  simp only [Function.comp_apply, world_vfsCloneVnode, world_writable]
  cases hcreat : hasFlag flags oCreat with
  | false =>
    simp only [Bool.false_eq_true, if_false, Option.map_some]
    refine guards_openVnode hfs (.refl _) rfl rfl rfl rfl (htarget v ?_)
    rw [openTarget, hresolve, hcreat]
    rfl
  | true =>
    cases hvalid : pathValidComponent (pathLastComponent path) with
    | false => exact .idle rfl rfl rfl rfl
    | true =>
      simp only [Bool.not_true, Bool.false_eq_true, if_false, if_true]
      cases hlookup : fs.lookup s.world v (pathLastComponent path) with
      | ok found =>
        simp only [Option.map_some]
        refine guards_openVnode hfs (.refl _) rfl rfl rfl rfl (htarget found ?_)
        rw [openTarget, hresolve, hcreat]
        simp [hvalid, hlookup, Except.toOption]
      | error e =>
        simp only [apply_ite (Option.map _)]
        refine guards_tested hro (fun _ => .refused rfl rfl rfl) fun hv => ?_
        simp only [mayAccess_vfsCloneVnode, mayAccess_writable]
        generalize (if mode &&& sIfmt = 0 then mode ||| sIfreg else mode) = mode
        split_ifs
        · exact .idle rfl rfl rfl rfl
        · have hkeeps := hfs.create s.world v (pathLastComponent path) mode uid m (Ne.symm hv)
          have hcreated := hfs.created s.world v (pathLastComponent path) mode uid
          rcases hcreate : fs.create s.world v (pathLastComponent path) mode uid with ⟨r, w⟩
          rw [hcreate] at hkeeps hcreated
          cases r with
          | error e => exact .same hkeeps rfl rfl rfl
          | ok new =>
            refine guards_openVnode hfs hkeeps rfl rfl rfl rfl fun hm => ?_
            exact absurd ((hcreated new rfl).symm.trans hm) hv

lemma guards_close (hopen : (s.files i).vnode ≠ none) :
    Guards part m s (vfsClose fs s i) (vfsClose fs (writable m s) i) := by
  obtain ⟨v, hv⟩ := Option.ne_none_iff_exists'.mp hopen
  have hkeeps := hfs.closeFile s.world (s.files i).ops v m id
  rw [vfsClose, vfsClose, files_writable, hv]
  split_ifs
  · refine .same ?_ (keeps_freeFileptr i).2.1 (keeps_freeFileptr i).2.2 ?_
    · rw [world_freeFileptr]
      exact hkeeps
    · rw [world_freeFileptr, world_freeFileptr]
      rfl
  · refine .idle ?_ (keeps_freeFileptr i).2.1 (keeps_freeFileptr i).2.2 ?_
    · rw [world_freeFileptr]
    · rw [world_freeFileptr]
      rfl

lemma guards_read (length : ℕ) (hopen : (s.files i).vnode ≠ none) :
    Guards part m s (vfsRead fs s i length) (vfsRead fs (writable m s) i length) := by
  rw [vfsRead, vfsRead, files_writable]
  split_ifs
  · exact .idle rfl rfl rfl rfl
  · exact .same (hfs.read s.world (s.files i) length m id) rfl rfl rfl

lemma guards_readdir (hopen : (s.files i).vnode ≠ none) :
    Guards part m s (vfsReaddir fs s i) (vfsReaddir fs (writable m s) i) := by
  simp only [vfsReaddir, files_writable, world_writable, if_neg hopen]
  exact .same (hfs.readdir s.world (s.files i) m id) rfl rfl rfl

lemma guards_write (hro : (s.mounts m).readOnly = true) (data : Name)
    (hfile : (s.files i).vnode = some v) (hkind : (s.world.node v).mp = m →
      sIsreg (s.world.node v).mode = true ∨ sIsdir (s.world.node v).mode = true ∨
      (s.files i).ops = .device ∨ (s.files i).flags &&& oAccmode = oRdonly)
    (hdriver : backs s.world v m → (s.files i).flags &&& oAccmode = oRdonly) :
    Guards part m s (vfsWrite fs s i data) (vfsWrite fs (writable m s) i data) := by
  simp only [vfsWrite, files_writable, hfile, world_writable, Option.bind_eq_bind, Option.bind_some]
  have hwrite : ((s.files i).ops = .fs → (s.world.node v).mp ≠ m) →
      ¬ (s.files i).flags &&& oAccmode = oRdonly →
      Keeps part m s.world (fs.write s.world (s.files i) data).2.2 := by
    intro hops hflags
    refine hfs.write s.world (s.files i) data m ?_
    rintro ⟨u, hu, hm⟩
    obtain rfl : v = u := Option.some.inj (hfile.symm.trans hu)
    rcases hm with ⟨hfs', hm⟩ | hback
    · exact hops hfs' hm.symm
    · exact hflags (hdriver hback)
  by_cases hv : (s.world.node v).mp = m
  · have hread : readOnly s v = true := by
      rw [readOnly, hv, hro]
    by_cases hmode : sIsreg (s.world.node v).mode = true ∨ sIsdir (s.world.node v).mode = true
    · rw [if_pos ⟨hread, hmode⟩]
      exact .refused rfl rfl rfl
    · have hpass : ∀ x : State D, ¬(readOnly x v = true ∧ (sIsreg (s.world.node v).mode = true ∨
          sIsdir (s.world.node v).mode = true)) := fun x h => hmode h.2
      simp only [if_neg (hpass s), if_neg (hpass (writable m s))]
      split_ifs with hflags
      · exact .idle rfl rfl rfl rfl
      · have hdevice : (s.files i).ops = .device := by
          rcases hkind hv with h | h | h | h
          · exact absurd (.inl h) hmode
          · exact absurd (.inr h) hmode
          · exact h
          · exact absurd h hflags
        exact .same (hwrite (by simp [hdevice]) hflags) rfl rfl rfl
  · rw [readOnly_writable hv]
    split_ifs with _ hflags
    · exact .idle rfl rfl rfl rfl
    · exact .idle rfl rfl rfl rfl
    · exact .same (hwrite (fun _ => hv) hflags) rfl rfl rfl

lemma keeps_syncLoop (dev : ℕ) (slots : List ℕ) (s : State D) :
    Keeps part m s.world (syncLoop fs dev slots s).2.world ∧
      (syncLoop fs dev slots s).2.mounts = s.mounts ∧
      (syncLoop fs dev slots s).2.rootFs = s.rootFs := by
  induction slots generalizing s with
  | nil => exact ⟨.refl _, rfl, rfl⟩
  | cons i rest ih =>
    rw [syncLoop]
    split_ifs
    · exact ih s
    · have hsync := hfs.sync s.world i m id
      dsimp only
      split_ifs
      · exact ⟨hsync, rfl, rfl⟩
      · obtain ⟨hkeeps, hmounts, hroot⟩ := ih { s with world := (fs.sync s.world i).2 }
        exact ⟨hsync.trans hkeeps, hmounts, hroot⟩

lemma guards_sync (dev : ℕ) :
    Guards part m s (some (vfsSync fs s dev)) (some (vfsSync fs (writable m s) dev)) := by
  obtain ⟨hkeeps, hmounts, hroot⟩ := keeps_syncLoop (m := m) hfs dev (List.range vfsMountMax) s
  refine ⟨_, rfl, hkeeps, hmounts, hroot, fun q hq => .inl ?_⟩
  obtain rfl := Option.some.inj hq
  exact (keeps_syncLoop hfs dev (List.range vfsMountMax) (writable m s)).1

lemma guards_serve (hsane : Sane s) (hro : (s.mounts m).readOnly = true) (request : Request)
    (hpermitted : Permitted fs backs m s request) :
    Guards part m s (serve fs s request) (serve fs (writable m s) request) := by
  cases request with
  | openPath cwd path flags mode uid => exact guards_open hfs hsane hro hpermitted
  | close i => exact guards_close hfs hpermitted
  | read i length => exact guards_read hfs length hpermitted
  | write i data =>
    obtain ⟨v, hfile, hkind, hdriver⟩ := hpermitted
    exact guards_write hfs hro data hfile hkind hdriver
  | readdir i => exact guards_readdir hfs hpermitted
  | chmod cwd path mode uid => exact guards_chmod hfs hsane hro cwd path mode uid
  | chown cwd path owner group uid => exact guards_chown hfs hsane hro cwd path owner group uid
  | mknod cwd path mode dev uid => exact guards_mknod hfs hsane hro cwd path mode dev uid
  | link cwd oldpath newpath uid => exact hpermitted.elim
  | unlink cwd path uid => exact guards_unlink hsane hpermitted
  | rename cwd oldpath newpath uid => exact guards_rename hfs hsane hro cwd oldpath newpath uid
  | sync dev => exact guards_sync hfs dev
end
end Guarding

def WouldModify {D C : Type} (part : D → ℕ → C) (fs : Fs D) (m : ℕ) (s : State D)
    (request : Request) : Prop :=
  ∃ r, serve fs (writable m s) request = some r ∧ ¬Keeps part m s.world r.2.world

section Runs
variable {D C : Type} {part : D → ℕ → C} {fs : Fs D} {backs : World D → ℕ → ℕ → Prop} {m : ℕ}
  {s t : State D}

def Step (fs : Fs D) (s : State D) (request : Request) (t : State D) : Prop :=
  ∃ code, serve fs s request = some (code, t)

lemma Sane.of_keeps (hsane : Sane s) (hkeeps : Keeps part m s.world t.world)
    (hmounts : t.mounts = s.mounts) (hroot : t.rootFs = s.rootFs) : Sane t where
  root := by
    rw [hmounts, hroot]
    exact hsane.root
  mounted v i := by
    rw [hmounts, hkeeps.mounted]
    exact hsane.mounted v i
  under := by
    rw [hmounts]
    exact hsane.under

/-- Whatever calls that keep to the rules are made, everything on a read-only mount stays as it was,
and a call that would change it answers `EROFS`. -/
theorem readOnly_unchanged (hfs : Lawful part backs fs) (hsane : Sane s)
    (hro : (s.mounts m).readOnly = true) {requests : List Request}
    (hrun : Run (Guarded (Permitted fs backs m) (Step fs)) s requests t) : Keeps part m s.world t.world ∧
      ∀ request, Permitted fs backs m t request →
        ∃ code u, serve fs t request = some (code, u) ∧ Keeps part m t.world u.world ∧
          (WouldModify part fs m t request → code = EROFS) := by
  have hinv : Keeps part m s.world t.world ∧ Sane t ∧ (t.mounts m).readOnly = true := by
    refine hrun.preserves (I := fun t => Keeps part m s.world t.world ∧ Sane t ∧
      (t.mounts m).readOnly = true) ⟨.refl _, hsane, hro⟩ ?_
    rintro t request u ⟨hkept, hsane, hro⟩ ⟨hpermitted, code, hserve⟩
    obtain ⟨r, hr, hkeeps, hmounts, hroot, -⟩ := guards_serve hfs hsane hro request hpermitted
    obtain rfl := Option.some.inj (hserve.symm.trans hr)
    exact ⟨hkept.trans hkeeps, hsane.of_keeps hkeeps hmounts hroot, by rw [hmounts, hro]⟩
  obtain ⟨hkept, hsane, hro⟩ := hinv
  refine ⟨hkept, fun request hpermitted => ?_⟩
  obtain ⟨⟨code, u⟩, hr, hkeeps, -, -, htwin⟩ := guards_serve hfs hsane hro request hpermitted
  refine ⟨code, u, hr, hkeeps, ?_⟩
  rintro ⟨q, hq, hchanged⟩
  exact (htwin q hq).resolve_left hchanged
end Runs

lemma plainFs_nameMax : 2 ≤ plainFs.nameMax := plainFs.nameMax_ge

/-- A file system in which every device file is one for the device of the mount `k`. -/
def deviceFs (k : ℕ) : Fs (ℕ → ℕ) :=
  { plainFs with
    nameMax_ge := plainFs_nameMax
    write := fun w file data =>
      if file.ops = .device ∧ file.vnode.isSome then
        (data.length, file.position + data.length,
          { w with disk := update w.disk k data.length })
      else (0, file.position, w) }

lemma deviceFs_lawful (k : ℕ) :
    Lawful (fun (d : ℕ → ℕ) k => d k) (fun _ _ k' => k' = k) (deviceFs k) where
  lookup w v name u h := by
    simp only [deviceFs, plainFs] at h
    split_ifs at h with hname
    rw [← Except.ok.inj h, hname.1, hname.2.2]
  create w v _ _ _ _ _ := .refl w
  created w v name mode uid u h := by cases h
  mknod w _ _ _ _ _ _ _ := .refl w
  rename w _ _ _ _ _ _ _ := .refl w
  truncate w v _ hother :=
    { disk := update_of_ne hother _ _
      node := fun _ _ => rfl
      mounted := fun _ => rfl }
  update w _ _ _ := .refl w
  sync w _ _ _ := .refl w
  openFile w _ _ _ _ _ := .refl w
  closeFile w _ _ _ _ := .refl w
  read w _ _ _ _ := .refl w
  readdir w _ _ _ := .refl w
  write w file data _ hother := by
    obtain ⟨ops, vnode, _, _, _⟩ := file
    cases ops with
    | fs => exact .refl w
    | device =>
      cases vnode with
      | none => exact .refl w
      | some v =>
        exact
          { disk := update_of_ne (fun he => hother ⟨v, rfl, .inr he⟩) _ _
            node := fun _ _ => rfl
            mounted := fun _ => rfl }

/-- The read-only mount with an open device file. -/
def deviceState : State (ℕ → ℕ) :=
  { plainState true with
    world := ⟨update (plainState true).world.node 3 ⟨0o60600, 0, 0, 0, false, 0⟩, fun _ => 7⟩
    files := fun _ => ⟨.device, some 3, 1, oAccmode, 0⟩ }

lemma deviceState_sane : Sane deviceState where
  root := ⟨0, 1, rfl, rfl⟩
  mounted v i h := by
    by_cases hv : v = 3
    · simp [deviceState, hv] at h
    · simp [deviceState, plainState, update_of_ne hv] at h
  under i root h := by
    by_cases hi : i = 0
    · simp [deviceState, plainState, hi]
    · simp [deviceState, plainState, hi] at h

theorem chmod_refused : ∃ t,
    Run (Guarded (Permitted (deviceFs 5) (fun _ _ k => k = 5) 0) (Step (deviceFs 5))) deviceState
        [.chmod none [47, 97] 0o600 0] t ∧
      Keeps (fun (d : ℕ → ℕ) k => d k) 0 deviceState.world t.world ∧
      ∃ code u, serve (deviceFs 5) t (.write 0 [1, 2]) = some (code, u) ∧
        Keeps (fun (d : ℕ → ℕ) k => d k) 0 t.world u.world := by
  obtain ⟨⟨code, t⟩, hserve, hops, hvnode⟩ :
      ∃ r ∈ serve (deviceFs 5) deviceState (.chmod none [47, 97] 0o600 0),
        (r.2.files 0).ops = .device ∧ (r.2.files 0).vnode = some 3 := by decide +kernel
  have hrun : Run (Guarded (Permitted (deviceFs 5) (fun _ _ k => k = 5) 0) (Step (deviceFs 5)))
      deviceState [.chmod none [47, 97] 0o600 0] t := .one ⟨trivial, code, hserve⟩
  obtain ⟨hkept, hnext⟩ := readOnly_unchanged (deviceFs_lawful 5) deviceState_sane rfl hrun
  obtain ⟨code', u, hwrite, hkeeps, -⟩ := hnext (.write 0 [1, 2])
    ⟨3, hvnode, fun _ => .inr (.inr (.inl hops)), nofun⟩
  exact ⟨t, hrun, hkept, code', u, hwrite, hkeeps⟩

/-- `O_TRUNC` and a write to the device change a read-only mount. -/
theorem open_truncates_read_only :
    ((serve plainFs (plainState true) (.openPath none [47, 97] oTrunc 0 0)).map
        (fun r => (r.1, r.2.world.disk 0)) = some (0, 0) ∧
      (plainState true).world.disk 0 = 7 ∧ ((plainState true).mounts 0).readOnly = true) ∧
    ((serve (deviceFs 0) deviceState (.write 0 [1, 2])).map
        (fun r => (r.1, r.2.world.disk 0)) = some (2, 2) ∧
      deviceState.world.disk 0 = 7 ∧ (deviceState.mounts 0).readOnly = true) := by
  decide +kernel

end Gloworm.Vfs
