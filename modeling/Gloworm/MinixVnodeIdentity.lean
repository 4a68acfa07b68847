import Gloworm.MinixVnodeModel
import Gloworm.UpdatedSums

/-! A cached vnode belongs to the device that is mounted in its slot. -/
namespace Gloworm.MinixVnode
open List Option Function Queue LinkedSegments Transition UpdatedSums
variable {ι : Type} {c c' : Cache ι} {m : ℕ → Mount} {xs : List ℕ} {v w i mp ino : ℕ}
  {n n' : Vnode ι} {load : Load ι}

lemma Mount.refs_nonneg (x : Mount) (v : ℕ) : 0 ≤ x.refs v := by
  unfold Mount.refs
  split_ifs <;> norm_num

variable {x : Mount} {dev : ℕ}

lemma Mount.refs_free (h : x.dev = 0) (v : ℕ) : x.refs v = 0 := if_pos h

lemma Mount.refs_on (h : x.dev ≠ 0) (v : ℕ) :
    x.refs v = (if x.rootNode = some (.minix v) then 1 else 0) +
      (if x.mountNode = some (.minix v) then 1 else 0) := if_neg h

lemma Mount.refs_setNode (h : x.dev ≠ 0) (node : Node) (v : ℕ) :
    (x.setNode node).refs v = (if x.rootNode = some (.minix v) then 1 else 0) +
      (if node = .minix v then 1 else 0) := by
  rw [Mount.refs_on (x := x.setNode node) h]
  congr 1
  simp [Mount.setNode]

lemma Mount.refs_setRoot (h : x.dev ≠ 0) (root : Option Node) (v : ℕ) :
    (x.setRoot root).refs v = (if root = some (.minix v) then 1 else 0) +
      (if x.mountNode = some (.minix v) then 1 else 0) := Mount.refs_on (x := x.setRoot root) h v

lemma held_update (hi : i < vfsMountMax) (m : ℕ → Mount) (x : Mount) (v : ℕ) :
    held (update m i x) v + (m i).refs v = held m v + x.refs v := by
  have hfun : (fun j => (update m i x j).refs v) = update (fun j => (m j).refs v) i (x.refs v) :=
    funext fun j => apply_update (fun _ y => Mount.refs y v) m i x j
  rw [held, hfun, sum_update (Finset.mem_range.mpr hi)]
  rfl

lemma refs_le_held (hi : i < vfsMountMax) (m : ℕ → Mount) (v : ℕ) : (m i).refs v ≤ held m v :=
  Finset.single_le_sum (f := fun j => (m j).refs v) (fun j _ => (m j).refs_nonneg v)
    (Finset.mem_range.mpr hi)

lemma held_nonneg (m : ℕ → Mount) (v : ℕ) : 0 ≤ held m v :=
  Finset.sum_nonneg fun j _ => (m j).refs_nonneg v

structure Listed (c : Cache ι) (xs : List ℕ) : Prop where
  holds : Holds c.list fun _ => xs
  count : c.nodesInCache = xs.length
  live : ∀ v, (c.vnodes v).isSome ↔ v ∈ xs

namespace Listed
section
variable (h : Listed c xs) (test : Vnode ι → Bool)
include h

lemma scanned {link : ℕ → Option ℕ} {first : Option ℕ} {ys : List ℕ} (hys : ∀ v ∈ ys, v ∈ xs)
    (hwalk : walk link (fun v => ((c.vnodes v).map test).getD true) (c.nodesInCache.toNat + 1)
      first = some (ys.find? fun v => ((c.vnodes v).map test).getD true)) :
    scan c link test first = some (ys.find? fun v => ((c.vnodes v).map test).getD true) := by
  rw [scan, hwalk]
  cases hfind : ys.find? fun v => ((c.vnodes v).map test).getD true with
  | none => rfl
  | some v =>
    have hlive := (h.live v).mpr (hys v (List.mem_of_find?_eq_some hfind))
    obtain ⟨n, hn⟩ := isSome_iff_exists.mp hlive
    simp [hn]

lemma scan_next : scan c c.list.next test (c.list.head ()) =
      some (xs.find? fun v => ((c.vnodes v).map test).getD true) := by
  apply h.scanned test fun _ hv => hv
  rw [h.holds.head ()]
  exact walk_next (h.holds.linked ()) (by simp [h.count])

lemma scan_prev : scan c c.list.prev test (c.list.tail ()) =
      some (xs.reverse.find? fun v => ((c.vnodes v).map test).getD true) := by
  apply h.scanned test fun _ hv => mem_reverse.mp hv
  rw [h.holds.tail ()]
  exact walk_prev (h.holds.linked ()) (by simp [h.count])
end
section
variable (h : Listed c xs) (hv : c.vnodes v = some n)
include h hv

lemma mem : v ∈ xs := (h.live v).mp (by simp [hv])

lemma put (n' : Vnode ι) : Listed (c.put v n') xs := by
  refine ⟨h.holds, h.count, fun w => ?_⟩
  by_cases hw : w = v
  · subst hw
    simp [Cache.put, h.mem hv]
  · simp [Cache.put, hw, h.live]

lemma releaseVnode : ∃ c', releaseVnode c v = some c' ∧ Listed c' (xs.erase v) ∧
      c'.vnodes = update c.vnodes v none ∧ c'.nodesInCache = c.nodesInCache - 1 := by
  have hmem := h.mem hv
  have hholds := h.holds.remove (k := ()) hmem
  refine ⟨_, by rw [MinixVnode.releaseVnode, hv, map_some], ⟨?_, ?_, ?_⟩, rfl, rfl⟩
  · convert hholds using 1
    exact (update_unit xs _).symm
  · have hlen := length_erase_of_mem hmem
    have hpos := length_pos_of_mem hmem
    simp only [h.count]
    omega
  · intro w
    rw [(h.holds.nodup ()).mem_erase_iff]
    by_cases hw : w = v
    · simp [hw]
    · simp [hw, h.live]
end

lemma insert (h : Listed c xs) (hv : c.vnodes v = none) (n : Vnode ι) :
    Listed ⟨queueInsert c.list () v, c.nodesInCache + 1, update c.vnodes v (some n)⟩ (v :: xs) := by
  have hnew : v ∉ xs := fun hmem => by simpa [hv] using (h.live v).mpr hmem
  refine ⟨?_, by simp [h.count], fun w => ?_⟩
  · convert h.holds.insert (k := ()) (fun _ => hnew) using 1
    exact (update_unit xs _).symm
  · by_cases hw : w = v
    · simp [hw]
    · simp [hw, h.live]

lemma touch (h : Listed c xs) (hv : c.vnodes v = some n) :
    Listed { c with list := queueInsert (queueRemove c.list () v) () v } (v :: xs.erase v) := by
  have hmem := h.mem hv
  have hnd := h.holds.nodup ()
  have hremove := h.holds.remove (k := ()) hmem
  rw [update_unit] at hremove
  refine ⟨?_, ?_, fun w => ?_⟩
  · convert hremove.insert (k := ()) (fun _ => hnd.not_mem_erase) using 1
    exact (update_unit _ _).symm
  · rw [h.count, length_cons, length_erase_of_mem hmem]
    have := length_pos_of_mem hmem
    omega
  · rw [h.live, mem_cons, hnd.mem_erase_iff]
    by_cases hw : w = v
    · simp [hw, hmem]
    · simp [hw]
end Listed

/-- A vnode has the references of the mounts, and contents of the device while mounted. -/
structure Kept (m : ℕ → Mount) (v : ℕ) (n : Vnode ι) : Prop where
  slot : n.mp < vfsMountMax
  held : held m v ≤ n.refcount
  used : n.refcount ≠ 0 → (m n.mp).minixOn
  origin : ∃ l, n.loaded = some l ∧ ((m n.mp).minixOn → l.dev = (m n.mp).dev)

structure Sound (c : Cache ι) (m : ℕ → Mount) : Prop where
  listed : ∃ xs, Listed c xs
  kept : ∀ v n, c.vnodes v = some n → Kept m v n
  unique : ∀ v w n n', c.vnodes v = some n → c.vnodes w = some n' → n.mp = n'.mp →
    n.ino = n'.ino → v = w
  live : ∀ v, 0 < held m v → (c.vnodes v).isSome
  devs : ∀ i j, i < vfsMountMax → j < vfsMountMax → (m i).dev ≠ 0 → (m i).dev = (m j).dev → i = j

def Fewer (c c' : Cache ι) : Prop := ∀ v n, c'.vnodes v = some n → c.vnodes v = some n

namespace Sound

lemma change (h : Sound c m) (hlist : ∃ ys, Listed c' ys)
    (hkept : ∀ v n', c'.vnodes v = some n' → Kept m v n') (hold : ∀ v n', c'.vnodes v = some n' →
      ∃ n, c.vnodes v = some n ∧ n'.mp = n.mp ∧ n'.ino = n.ino)
    (hlive : ∀ v, 0 < held m v → (c'.vnodes v).isSome) : Sound c' m := by
  refine ⟨hlist, hkept, ?_, hlive, h.devs⟩
  intro v w n n' hv hw hmp hino
  obtain ⟨a, ha, hamp, haino⟩ := hold v n hv
  obtain ⟨b, hb, hbmp, hbino⟩ := hold w n' hw
  exact h.unique v w a b ha hb (by rw [← hamp, hmp, hbmp]) (by rw [← haino, hino, hbino])

lemma put (h : Sound c m) (hv : c.vnodes v = some n) (hn' : Kept m v n') (hmp : n'.mp = n.mp)
    (hino : n'.ino = n.ino) : Sound (c.put v n') m := by
  obtain ⟨xs, hl⟩ := h.listed
  apply h.change ⟨xs, hl.put hv n'⟩
  · intro w a hw
    obtain ⟨rfl, rfl⟩ | ⟨-, hw⟩ := update_eq_some.mp hw
    · exact hn'
    · exact h.kept w a hw
  · intro w a hw
    obtain ⟨rfl, rfl⟩ | ⟨-, hw⟩ := update_eq_some.mp hw
    · exact ⟨n, hv, hmp, hino⟩
    · exact ⟨a, hw, rfl, rfl⟩
  · intro w hw
    exact ((hl.put hv n').live w).mpr ((hl.live w).mp (h.live w hw))

lemma releaseVnode (h : Sound c m) (hv : c.vnodes v = some n) (hheld : ¬ 0 < held m v) :
    ∃ c', releaseVnode c v = some c' ∧ Sound c' m ∧ Fewer c c' ∧
      c'.nodesInCache = c.nodesInCache - 1 := by
  obtain ⟨xs, hl⟩ := h.listed
  obtain ⟨c', hc', hl', hvn, hcount⟩ := hl.releaseVnode hv
  have hfewer : Fewer c c' := by
    intro w a hw
    rw [hvn] at hw
    by_cases hwv : w = v
    · simp [hwv] at hw
    · simpa [hwv] using hw
  refine ⟨c', hc', h.change ⟨_, hl'⟩ ?_ ?_ ?_, hfewer, hcount⟩
  · intro w a hw
    exact h.kept w a (hfewer w a hw)
  · intro w a hw
    exact ⟨a, hfewer w a hw, rfl, rfl⟩
  · intro w hw
    have hne : w ≠ v := fun he => hheld (he ▸ hw)
    rw [hvn, update_of_ne hne]
    exact h.live w hw

lemma releaseLoop {fuel : ℕ} (h : Sound c m) (hfuel : c.nodesInCache.toNat ≤ fuel) :
    ∃ c', releaseLoop fuel c = some c' ∧ Sound c' m ∧ Fewer c c' := by
  induction fuel generalizing c with
  | zero =>
    have hstop : ¬ c.nodesInCache - 1 ≥ maxVnodes := by
      unfold maxVnodes
      omega
    exact ⟨c, by rw [MinixVnode.releaseLoop, if_neg hstop], h, fun _ _ hw => hw⟩
  | succ fuel ih =>
    obtain ⟨xs, hl⟩ := h.listed
    by_cases hmore : c.nodesInCache - 1 ≥ maxVnodes
    · rw [MinixVnode.releaseLoop, if_pos hmore, hl.scan_prev]
      cases hfind : xs.reverse.find? fun v =>
          ((c.vnodes v).map fun n => decide (¬ 0 < n.refcount)).getD true with
      | none => exact ⟨c, rfl, h, fun _ _ hw => hw⟩
      | some last =>
        have hmem := mem_reverse.mp (List.mem_of_find?_eq_some hfind)
        obtain ⟨n, hn⟩ := isSome_iff_exists.mp ((hl.live last).mpr hmem)
        have hunused : ¬ 0 < n.refcount := by simpa [hn] using List.find?_some hfind
        have hfree : ¬ 0 < held m last := fun hlt => by
          have := (h.kept last n hn).held
          omega
        obtain ⟨c1, hc1, hsound, hfewer, hcount⟩ := h.releaseVnode hn hfree
        obtain ⟨c2, hc2, hsound2, hfewer2⟩ := ih hsound (by
          unfold maxVnodes at hmore
          omega)
        refine ⟨c2, ?_, hsound2, fun w a hw => hfewer w a (hfewer2 w a hw)⟩
        simpa [hc1] using hc2
    · exact ⟨c, by rw [MinixVnode.releaseLoop, if_neg hmore], h, fun _ _ hw => hw⟩

lemma releaseUnusedVnodes (h : Sound c m) :
    ∃ c', releaseUnusedVnodes c = some c' ∧ Sound c' m ∧ Fewer c c' := h.releaseLoop le_rfl
end Sound

/-- A vnode of the right inode with contents of the mounted device and one more reference. -/
structure Got (c : Cache ι) (m : ℕ → Mount) (mp ino v : ℕ) (c' : Cache ι) : Prop where
  found : ∃ n l, c'.vnodes v = some n ∧ n.mp = mp ∧ n.ino = ino ∧ n.loaded = some l ∧
    l.dev = (m mp).dev ∧ held m v < n.refcount ∧
    (n.refcount = 1 ∨ ∃ a, c.vnodes v = some a ∧ a.mp = mp ∧ n.refcount = a.refcount + 1)
  others : ∀ w n, w ≠ v → c'.vnodes w = some n → c.vnodes w = some n

def Cached (c : Cache ι) (mp ino : ℕ) : Prop :=
  ∃ v n, c.vnodes v = some n ∧ n.mp = mp ∧ n.ino = ino

def Reads (c : Cache ι) (mp ino : ℕ) (load : Load ι) : Prop :=
  ¬ Cached c mp ino → load.vnode.isSome → load.inode.isSome

def Countable (c : Cache ι) : Prop := ∀ v n, c.vnodes v = some n → n.refcount < intMax

namespace Sound
section
variable (h : Sound c m)
include h

lemma loadVnode (hmp : mp < vfsMountMax) (hon : (m mp).minixOn) (hbuf : (m mp).bufDev = (m mp).dev)
    (hfresh : load.Fresh c) (hmiss : ¬ Cached c mp ino)
    (hread : load.vnode.isSome → load.inode.isSome) :
    ∃ r, loadVnode c m mp ino load = some r ∧ Sound r.2 m ∧
      (r.1 = none ∧ Fewer c r.2 ∨ ∃ v, r.1 = some v ∧ Got c m mp ino v r.2) := by
  obtain ⟨c1, hc1, hsound, hfewer⟩ := h.releaseUnusedVnodes
  rw [MinixVnode.loadVnode, hc1, map_some]
  cases hv : load.vnode with
  | none => exact ⟨_, rfl, hsound, .inl ⟨rfl, hfewer⟩⟩
  | some v =>
    obtain ⟨inode, hinode⟩ := isSome_iff_exists.mp (hread (by simp [hv]))
    simp only [hinode]
    have hnew : c1.vnodes v = none := hfresh v (by simp [hv]) c1 hc1
    have hunheld : held m v ≤ 0 := by
      by_contra hlt
      have := hsound.live v (by omega)
      simp [hnew] at this
    obtain ⟨xs, hl⟩ := hsound.listed
    have hother : ∀ w a, c1.vnodes w = some a → a.mp = mp → a.ino ≠ ino :=
      fun w a hw hamp haino => hmiss ⟨w, a, hfewer w a hw, hamp, haino⟩
    refine ⟨_, rfl, ⟨⟨_, hl.insert hnew _⟩, ?_, ?_, ?_, h.devs⟩, .inr ⟨v, rfl, ?_, ?_⟩⟩
    · intro w a hw
      obtain ⟨rfl, rfl⟩ | ⟨-, hw⟩ := update_eq_some.mp hw
      · exact ⟨hmp, by simpa using hunheld.trans zero_le_one, fun _ => hon,
          ⟨(m mp).bufDev, inode⟩, rfl, fun _ => hbuf⟩
      · exact hsound.kept w a hw
    · intro w x a b hw hx hab hino
      obtain ⟨hwv, ha⟩ | ⟨-, hw1⟩ := update_eq_some.mp hw <;>
        obtain ⟨hxv, hb⟩ | ⟨-, hx1⟩ := update_eq_some.mp hx
      · rw [hwv, hxv]
      · subst ha
        exact absurd hino.symm (hother x b hx1 hab.symm)
      · subst hb
        exact absurd hino (hother w a hw1 hab)
      · exact hsound.unique w x a b hw1 hx1 hab hino
    · intro w hw
      exact ((hl.insert hnew _).live w).mpr
        (mem_cons_of_mem v ((hl.live w).mp (hsound.live w hw)))
    · exact ⟨_, ⟨(m mp).bufDev, inode⟩, update_self _ _ _, rfl, rfl, rfl, hbuf,
        by simpa using hunheld.trans_lt zero_lt_one, .inl rfl⟩
    · intro w a hwv hw
      exact hfewer w a (by simpa [hwv] using hw)

lemma cloneVnode (hv : c.vnodes v = some n) (hmax : n.refcount ≠ intMax) (hon : (m n.mp).minixOn) :
    ∃ c', cloneVnode c v = some c' ∧ Sound c' m ∧ c' = c.put v { n with refcount := n.refcount + 1 } := by
  have hk := h.kept v n hv
  have hmore : Kept m v { n with refcount := n.refcount + 1 } :=
    ⟨hk.slot, hk.held.trans (by simp), fun _ => hon, hk.origin⟩
  refine ⟨_, ?_, h.put hv hmore rfl rfl, rfl⟩
  simp only [MinixVnode.cloneVnode, hv]
  exact if_neg hmax

lemma findVnode (hmp : mp < vfsMountMax) (hon : (m mp).minixOn) :
    findVnode c m mp ino = some none ∧ ¬ Cached c mp ino ∨
      ∃ v n, findVnode c m mp ino = some (some v) ∧ c.vnodes v = some n ∧ n.mp = mp ∧
        n.ino = ino := by
  obtain ⟨xs, hl⟩ := h.listed
  rw [MinixVnode.findVnode, hl.scan_next]
  cases hfind : xs.find? fun v => ((c.vnodes v).map fun n =>
      decide ((m n.mp).dev = (m mp).dev ∧ n.ino = ino)).getD true with
  | none =>
    left
    refine ⟨rfl, ?_⟩
    rintro ⟨v, n, hv, rfl, rfl⟩
    simpa [hv] using List.find?_eq_none.mp hfind v (hl.mem hv)
  | some v =>
    right
    have hmem := List.mem_of_find?_eq_some hfind
    obtain ⟨n, hn⟩ := isSome_iff_exists.mp ((hl.live v).mpr hmem)
    obtain ⟨hdev, hino⟩ : (m n.mp).dev = (m mp).dev ∧ n.ino = ino := by
      simpa [hn] using List.find?_some hfind
    have hslot := h.devs mp n.mp hmp (h.kept v n hn).slot hon.1 hdev.symm
    exact ⟨v, n, rfl, hn, hslot.symm, hino⟩

lemma getVnode (hgo : Countable c ∨ (getVnode c m mp ino load).isSome) (hmp : mp < vfsMountMax)
    (hon : (m mp).minixOn) (hbuf : (m mp).bufDev = (m mp).dev) (hfresh : load.Fresh c)
    (hread : Reads c mp ino load) : ∃ r, getVnode c m mp ino load = some r ∧ Sound r.2 m ∧
      (r.1 = none ∧ Fewer c r.2 ∨ ∃ v, r.1 = some v ∧ Got c m mp ino v r.2) := by
  rw [MinixVnode.getVnode] at hgo ⊢
  obtain ⟨hfind, hmiss⟩ | ⟨v, n, hfind, hv, rfl, rfl⟩ :
      _ ∨ ∃ v n, MinixVnode.findVnode c m mp ino = some (some v) ∧ _ := h.findVnode hmp hon
  · rw [hfind]
    exact h.loadVnode hmp hon hbuf hfresh hmiss (hread hmiss)
  · rw [hfind] at hgo ⊢
    have hmax : n.refcount ≠ intMax := by
      rintro heq
      rcases hgo with hcount | hsome
      · exact (hcount v n hv).ne heq
      · simp [MinixVnode.cloneVnode, hv, heq] at hsome
    obtain ⟨c1, hc1, hsound, hput⟩ := h.cloneVnode hv hmax hon
    have hv1 : c1.vnodes v = some { n with refcount := n.refcount + 1 } := by simp [hput, Cache.put]
    obtain ⟨ys, hl⟩ := hsound.listed
    obtain ⟨l, hload, hdev⟩ := (h.kept v n hv).origin
    have hheld := (h.kept v n hv).held
    simp only [hc1, map_some]
    refine ⟨_, rfl, ?_, .inr ⟨v, rfl, ?_, ?_⟩⟩
    · exact ⟨⟨_, hl.touch hv1⟩, hsound.kept, hsound.unique, hsound.live, hsound.devs⟩
    · exact ⟨_, l, hv1, rfl, rfl, hload, hdev hon, by simpa using Int.lt_add_one_of_le hheld,
        .inr ⟨n, hv, rfl, rfl⟩⟩
    · intro w a hwv hw
      simpa [hput, Cache.put, hwv] using hw

lemma reslot (hheld : ∀ v n, c.vnodes v = some n → held (update m i x) v ≤ n.refcount)
    (hlive : ∀ v, 0 < held (update m i x) v → (c.vnodes v).isSome)
    (hslot : ∀ v n, c.vnodes v = some n → n.mp = i → (n.refcount ≠ 0 → x.minixOn) ∧
      ∀ l, n.loaded = some l → x.minixOn → l.dev = x.dev)
    (hdev : ∀ j, j < vfsMountMax → j ≠ i → x.dev ≠ 0 → (m j).dev ≠ x.dev) :
    Sound c (update m i x) := by
  refine ⟨h.listed, fun v n hv => ?_, h.unique, hlive, fun j k hj hk hne heq => ?_⟩
  · have hkept := h.kept v n hv
    obtain ⟨l, hl, horigin⟩ := hkept.origin
    by_cases hmp : n.mp = i
    · obtain ⟨hused, hload⟩ := hslot v n hv hmp
      refine ⟨hkept.slot, hheld v n hv, ?_, l, hl, ?_⟩ <;> rw [hmp, update_self]
      exacts [hused, hload l hl]
    · refine ⟨hkept.slot, hheld v n hv, ?_, l, hl, ?_⟩ <;> rw [update_of_ne hmp]
      exacts [hkept.used, horigin]
  · by_cases hji : j = i <;> by_cases hki : k = i
    · rw [hji, hki]
    · rw [hji, update_self] at hne heq
      rw [update_of_ne hki] at heq
      exact absurd heq.symm (hdev k hk hki hne)
    · rw [update_of_ne hji] at hne heq
      rw [hki, update_self] at heq
      exact absurd heq (hdev j hj hji (heq ▸ hne))
    · rw [update_of_ne hji] at hne heq
      rw [update_of_ne hki] at heq
      exact h.devs j k hj hk hne heq

lemma remountAt (hi : i < vfsMountMax) (hdev : x.dev = (m i).dev) (hminix : x.minix = (m i).minix)
    (hrefs : ∀ v, x.refs v ≤ (m i).refs v ∨
      ∃ n, c.vnodes v = some n ∧ held m v - (m i).refs v + x.refs v ≤ n.refcount) :
    Sound c (update m i x) := by
  have hup := fun v => held_update hi m x v
  have hon : x.minixOn ↔ (m i).minixOn := by rw [Mount.minixOn, Mount.minixOn, hdev, hminix]
  apply h.reslot
  · intro v n hv
    have := hup v
    rcases hrefs v with hle | ⟨n', hn', hle⟩
    · have := (h.kept v n hv).held
      omega
    · rw [hv, some.injEq] at hn'
      subst hn'
      omega
  · intro v hpos
    rcases hrefs v with hle | ⟨n', hn', -⟩
    · apply h.live
      have := hup v
      omega
    · simp [hn']
  · rintro v n hv rfl
    have hk := h.kept v n hv
    obtain ⟨l, hl, horigin⟩ := hk.origin
    refine ⟨fun hr => hon.mpr (hk.used hr), fun l' hl' hx => ?_⟩
    rw [hl, some.injEq] at hl'
    rw [← hl', hdev]
    exact horigin (hon.mp hx)
  · intro j hj hji hne heq
    rw [hdev] at hne heq
    exact hji (h.devs i j hi hj hne heq.symm).symm

lemma occupy (hi : i < vfsMountMax) (hfree : (m i).dev = 0)
    (hdev : ∀ j, j < vfsMountMax → (m j).dev ≠ x.dev) (hroot : x.rootNode = none)
    (hstale : x.minix → ∀ v n l, c.vnodes v = some n → n.mp = i → n.loaded = some l → l.dev = x.dev)
    (hnode : ∀ v, x.mountNode = some (.minix v) → ∃ n, c.vnodes v = some n ∧ held m v < n.refcount) :
    Sound c (update m i x) := by
  have hne : x.dev ≠ 0 := fun he => hdev i hi (hfree.trans he.symm)
  have hup : ∀ v, held (update m i x) v =
      held m v + if x.mountNode = some (.minix v) then 1 else 0 := by
    intro v
    have := held_update hi m x v
    rw [Mount.refs_free hfree, Mount.refs_on hne, hroot] at this
    simpa using this
  apply h.reslot
  · intro v n hv
    rw [hup]
    split_ifs with hm
    · obtain ⟨n', hn', hlt⟩ := hnode v hm
      rw [hv, some.injEq] at hn'
      subst hn'
      omega
    · simpa using (h.kept v n hv).held
  · intro v hpos
    rw [hup] at hpos
    split_ifs at hpos with hm
    · obtain ⟨n, hn, -⟩ := hnode v hm
      simp [hn]
    · exact h.live v (by simpa using hpos)
  · intro v n hv hmp
    refine ⟨fun hr => ?_, fun l hl hon => hstale hon.2 v n l hv hmp hl⟩
    exact absurd (hmp ▸ hfree) ((h.kept v n hv).used hr).1
  · exact fun j hj _ _ => hdev j hj

lemma vacate (hi : i < vfsMountMax) (hidle : ∀ v n, c.vnodes v = some n → n.mp = i → n.refcount = 0)
    (hx : x.dev = 0) : Sound c (update m i x) := by
  have hle : ∀ v, held (update m i x) v ≤ held m v := by
    intro v
    have := held_update hi m x v
    rw [Mount.refs_free hx] at this
    have := (m i).refs_nonneg v
    omega
  apply h.reslot
  · exact fun v n hv => (hle v).trans (h.kept v n hv).held
  · exact fun v hpos => h.live v (hpos.trans_le (hle v))
  · exact fun v n hv hmp => ⟨fun hr => absurd (hidle v n hv hmp) hr, fun l hl hon => absurd hx hon.1⟩
  · exact fun j _ _ hne => absurd hx hne

lemma node_live (hi : i < vfsMountMax) (hdev : (m i).dev ≠ 0)
    (hnode : (m i).rootNode = some (.minix v) ∨ (m i).mountNode = some (.minix v)) :
    ∃ n, c.vnodes v = some n := by
  have hle := refs_le_held hi m v
  rw [Mount.refs_on hdev] at hle
  apply isSome_iff_exists.mp (h.live v _)
  rcases hnode with hnode | hnode <;> rw [if_pos hnode] at hle <;> split_ifs at hle <;> omega

lemma vfsReleaseVnode (hv : c.vnodes v = some n) (hheld : held m v < n.refcount) :
    ∃ c', vfsReleaseVnode c v = some c' ∧ Sound c' m ∧ ∀ w a, c'.vnodes w = some a →
      ∃ b, c.vnodes w = some b ∧ a.mp = b.mp ∧
        a.refcount = b.refcount - if w = v then 1 else 0 := by
  have hk := h.kept v n hv
  have hless : Kept m v { n with refcount := n.refcount - 1 } := by
    refine ⟨hk.slot, by simpa using Int.le_sub_one_of_lt hheld, fun _ => hk.used ?_, hk.origin⟩
    have := held_nonneg m v
    omega
  have hsound := h.put hv hless rfl rfl
  have hback : ∀ w a, (c.put v { n with refcount := n.refcount - 1 }).vnodes w = some a →
      ∃ b, c.vnodes w = some b ∧ a.mp = b.mp ∧
        a.refcount = b.refcount - if w = v then 1 else 0 := by
    intro w a hw
    obtain ⟨rfl, rfl⟩ | ⟨hwv, hw⟩ := update_eq_some.mp hw
    · exact ⟨n, hv, rfl, by simp⟩
    · exact ⟨a, hw, rfl, by simp [hwv]⟩
  have hv' : (c.put v { n with refcount := n.refcount - 1 }).vnodes v =
      some { n with refcount := n.refcount - 1 } := by simp [Cache.put]
  simp only [MinixVnode.vfsReleaseVnode, hv, minixRelease, hv']
  split_ifs with hzero hino
  · obtain ⟨c', hc', hsound', hfewer, -⟩ := hsound.releaseVnode hv' (by
      have := hless.held
      simp only [hzero] at this
      omega)
    exact ⟨c', hc', hsound', fun w a hw => hback w a (hfewer w a hw)⟩
  · exact ⟨_, rfl, hsound, hback⟩
  · exact ⟨_, rfl, hsound, hback⟩
end
end Sound

structure Mount.Rooted (x : Mount) : Prop where
  node : x.mountNode ≠ none
  minix : x.minix = true → x.bufDev = x.dev ∧ ∃ v, x.rootNode = some (.minix v)
  other : x.minix = false → x.rootNode = some .other

def Rooted (m : ℕ → Mount) : Prop := ∀ j, j < vfsMountMax → (m j).dev ≠ 0 → (m j).Rooted

lemma Rooted.updated (h : Rooted m) (hx : x.dev ≠ 0 → x.Rooted) : Rooted (update m i x) := by
  intro j hj hne
  by_cases hji : j = i
  · rw [hji, update_self] at hne ⊢
    exact hx hne
  · rw [update_of_ne hji] at hne ⊢
    exact h j hj hne

def Good (s : System ι) : Prop := Sound s.cache s.mountpoints ∧ Rooted s.mountpoints

section Mounting
variable {s : System ι} {node : Option Node} {error : ℤ}

lemma finishMount_failed (herror : error ≠ 0)
    (hsound : Sound s.cache (update s.mountpoints i (s.mountpoints i).free))
    (hrooted : Rooted (update s.mountpoints i (s.mountpoints i).free))
    (hnode : ∀ v, node = some (.minix v) → ∃ n, s.cache.vnodes v = some n ∧
      held (update s.mountpoints i (s.mountpoints i).free) v < n.refcount) :
    ∃ r, finishMount s i node error = some r ∧ Good r.2 := by
  rw [finishMount.eq_def, if_pos herror]
  rcases node with _ | v | _
  · exact ⟨_, rfl, hsound, hrooted⟩
  · obtain ⟨n, hn, hlt⟩ := hnode v rfl
    obtain ⟨c', hc', hsound', -⟩ := hsound.vfsReleaseVnode hn hlt
    simp only [System.setMount, releaseNode, hc', map_some]
    exact ⟨_, rfl, hsound', hrooted⟩
  · exact ⟨_, rfl, hsound, hrooted⟩

lemma markMounted_sound (h : Sound c m) (flag : Bool) {node : Node}
    (hlive : ∀ v, node = .minix v → (c.vnodes v).isSome) :
    ∃ c', markMounted c flag node = some c' ∧ Sound c' m ∧
      (∀ v a, c'.vnodes v = some a → ∃ b, c.vnodes v = some b ∧ a.mp = b.mp ∧
        a.refcount = b.refcount) ∧ ∀ v, (c.vnodes v).isSome → (c'.vnodes v).isSome := by
  cases node with
  | other => exact ⟨c, rfl, h, fun v a ha => ⟨a, ha, rfl, rfl⟩, fun _ hv => hv⟩
  | minix v =>
    obtain ⟨n, hn⟩ := isSome_iff_exists.mp (hlive v rfl)
    have hk := h.kept v n hn
    refine ⟨c.put v { n with mounted := flag }, by simp [markMounted, hn],
      h.put hn ⟨hk.slot, hk.held, hk.used, hk.origin⟩ rfl rfl, ?_, ?_⟩
    · intro w a hw
      obtain ⟨rfl, rfl⟩ | ⟨-, hw⟩ := update_eq_some.mp hw
      · exact ⟨n, hn, rfl, rfl⟩
      · exact ⟨a, hw, rfl, rfl⟩
    · intro w hw
      by_cases hwv : w = v
      · simp [Cache.put, hwv]
      · simpa [Cache.put, hwv] using hw

lemma finishMount_done (h : Sound s.cache s.mountpoints) (hi : i < vfsMountMax)
    (hdev : (s.mountpoints i).dev ≠ 0) (hnode : (s.mountpoints i).mountNode = node)
    (hothers : ∀ j, j < vfsMountMax → j ≠ i → (s.mountpoints j).dev ≠ 0 → (s.mountpoints j).Rooted)
    (hminix : (s.mountpoints i).minix = true → (s.mountpoints i).bufDev = (s.mountpoints i).dev ∧
      ∃ v n, (s.mountpoints i).rootNode = some (.minix v) ∧ s.cache.vnodes v = some n ∧
        n.mp = i ∧ n.refcount ≠ intMax)
    (hother : (s.mountpoints i).minix = false → (s.mountpoints i).rootNode = some .other) :
    ∃ r, finishMount s i node 0 = some r ∧ Good r.2 := by
  have hbase : ∀ x : Mount, x.Rooted → Rooted (update s.mountpoints i x) := by
    intro x hx j hj hne
    by_cases hji : j = i
    · rwa [hji, update_self]
    · rw [update_of_ne hji] at hne ⊢
      exact hothers j hj hji hne
  rw [finishMount.eq_def, if_neg (by simp)]
  cases node with
  | some node =>
    have hlive : ∀ v, node = .minix v → (s.cache.vnodes v).isSome := by
      rintro v rfl
      exact isSome_iff_exists.mpr (h.node_live hi hdev (.inr hnode))
    obtain ⟨c', hc', hsound, -, -⟩ := markMounted_sound h true hlive
    simp only [hc', map_some]
    refine ⟨_, rfl, hsound, ?_⟩
    have hself := hbase (s.mountpoints i) ⟨by simp [hnode], fun hm => ?_, hother⟩
    · rwa [update_eq_self] at hself
    · obtain ⟨hbuf, v, n, hroot, -⟩ := hminix hm
      exact ⟨hbuf, v, hroot⟩
  | none =>
    cases hm : (s.mountpoints i).minix with
    | false =>
      have hroot := hother hm
      have hrefs : ∀ v, ((s.mountpoints i).setNode .other).refs v ≤ (s.mountpoints i).refs v := by
        intro v
        rw [Mount.refs_setNode hdev, Mount.refs_on hdev, hnode]
        simp
      simp only [mountRoot, hroot, map_some]
      refine ⟨_, rfl, ?_, ?_⟩
      · exact h.remountAt hi rfl rfl fun v => .inl (hrefs v)
      · refine hbase _ ⟨by simp [Mount.setNode], fun hm' => ?_, fun _ => hroot⟩
        simp [Mount.setNode, hm] at hm'
    | true =>
      obtain ⟨hbuf, v, n, hroot, hn, hmp, hmax⟩ := hminix hm
      have hon : (s.mountpoints n.mp).minixOn := by
        rw [hmp]
        exact ⟨hdev, hm⟩
      obtain ⟨c', hc', hsound, hput⟩ := h.cloneVnode hn hmax hon
      simp only [mountRoot, hroot, hc', map_some]
      refine ⟨_, rfl, ?_, ?_⟩
      · refine hsound.remountAt hi rfl rfl fun w => ?_
        rw [Mount.refs_setNode hdev, Mount.refs_on hdev, hnode, hroot]
        by_cases hwv : w = v
        · right
          subst hwv
          have := (h.kept w n hn).held
          refine ⟨{ n with refcount := n.refcount + 1 }, by simp [hput, Cache.put], ?_⟩
          simp only [↓reduceIte, reduceCtorEq]
          omega
        · left
          simp [Ne.symm hwv]
      · refine hbase _ ⟨by simp [Mount.setNode], fun _ => ⟨hbuf, v, hroot⟩, fun hm' => ?_⟩
        simp [Mount.setNode, hm] at hm'

lemma slotOf_some (h : slotOf m dev = some i) : i < vfsMountMax ∧ (m i).dev = dev := by
  have hmem := List.mem_of_find?_eq_some h
  have hdev := List.find?_some h
  exact ⟨mem_range.mp hmem, by simpa using hdev⟩

lemma slotOf_none (h : slotOf m dev = none) {j : ℕ} (hj : j < vfsMountMax) : (m j).dev ≠ dev := by
  simpa using List.find?_eq_none.mp h j (mem_range.mpr hj)

def Fs.Clean (fs : Fs ι) (c : Cache ι) (i dev : ℕ) : Prop :=
  match fs with
  | .minix superblock root => 0 ≤ superblock →
      (∀ v n l, c.vnodes v = some n → n.mp = i → n.loaded = some l → l.dev = dev) ∧
        Reads c i 1 root
  | .other _ => True

section Slots
variable {fs : Fs ι}

lemma idle_of_free (h : Sound c m) (hfree : (m i).dev = 0) :
    ∀ v n, c.vnodes v = some n → n.mp = i → n.refcount = 0 := by
  intro v n hv hmp
  by_contra hne
  exact ((h.kept v n hv).used hne).1 (hmp ▸ hfree)

variable (hgood : Good s) (hi : i < vfsMountMax) (hfree : (s.mountpoints i).dev = 0)
  (hdev : ∀ j, j < vfsMountMax → (s.mountpoints j).dev ≠ dev)
  (hnode : ∀ v, node = some (.minix v) → Referenced s v)
include hi hfree hnode

lemma held_free (x : Mount) (v : ℕ) (hv : node = some (.minix v)) :
    ∃ n, s.cache.vnodes v = some n ∧ held (update s.mountpoints i x.free) v < n.refcount := by
  obtain ⟨n, hn, hlt⟩ := hnode v hv
  have hup := held_update hi s.mountpoints x.free v
  rw [Mount.refs_free (x := x.free) rfl, Mount.refs_free hfree] at hup
  exact ⟨n, hn, by omega⟩

include hgood

lemma mountSlot_refused (x : Mount) (herror : error ≠ 0) :
    ∃ r, finishMount (s.setMount i x) i node error = some r ∧ Good r.2 := by
  obtain ⟨hsound, hrooted⟩ := hgood
  have hidem : update (s.setMount i x).mountpoints i ((s.setMount i x).mountpoints i).free =
      update s.mountpoints i x.free := by
    simp [System.setMount]
  apply finishMount_failed herror
  · rw [hidem]
    exact hsound.vacate hi (idle_of_free hsound hfree) rfl
  · rw [hidem]
    exact hrooted.updated fun hne => absurd rfl hne
  · rw [hidem]
    exact held_free hi hfree hnode x

include hdev

lemma mountSlot_minix {superblock : ℤ} (hsuper : 0 ≤ superblock) (hfresh : load.Fresh s.cache)
    (hclean : (Fs.minix superblock load).Clean s.cache i dev)
    (hgo : Countable s.cache ∨ (mountSlot s i node dev (.minix superblock load)).isSome) :
    ∃ r, mountSlot s i node dev (.minix superblock load) = some r ∧ Good r.2 := by
  obtain ⟨hsound, hrooted⟩ := hgood
  obtain ⟨hstale, hread⟩ := hclean hsuper
  have hne : dev ≠ 0 := fun he => hdev i hi (hfree.trans he.symm)
  generalize hx : (⟨true, node, none, dev, dev⟩ : Mount) = x
  have hxdev : x.dev = dev := by rw [← hx]
  have hxnode : x.mountNode = node := by rw [← hx]
  have hxroot : x.rootNode = none := by rw [← hx]
  have hxon : (update s.mountpoints i x i).minixOn := by
    rw [update_self, ← hx]
    exact ⟨hne, rfl⟩
  -- the slot as it stands when the root vnode is asked for
  have hocc : Sound s.cache (update s.mountpoints i x) := by
    apply hsound.occupy hi hfree
    · intro j hj
      rw [hxdev]
      exact hdev j hj
    · exact hxroot
    · intro _ v n l hv hmp hl
      rw [hxdev]
      exact hstale v n l hv hmp hl
    · intro v hv
      exact hnode v (hxnode ▸ hv)
  have hset : (s.setMount i ⟨(Fs.minix superblock load).isMinix, node, none, dev,
      (s.mountpoints i).bufDev⟩).setMount i
        ((s.setMount i ⟨(Fs.minix superblock load).isMinix, node, none, dev,
          (s.mountpoints i).bufDev⟩).mountpoints i).initBufcache = s.setMount i x := by
    simp [System.setMount, Mount.initBufcache, Fs.isMinix, ← hx]
  have hslot : mountSlot s i node dev (.minix superblock load) =
      ((getVnode s.cache (update s.mountpoints i x) i 1 load).map
        (takeRoot (s.setMount i x) i)).bind fun r => finishMount r.2 i node r.1 := by
    rw [mountSlot, fsMount, minixMount, if_neg (by omega), hset]
    rfl
  have hgo' : Countable s.cache ∨
      (getVnode s.cache (update s.mountpoints i x) i 1 load).isSome := by
    refine hgo.imp_right fun hsome => ?_
    rw [hslot] at hsome
    by_contra hnone
    rw [not_isSome_iff_eq_none] at hnone
    simp [hnone] at hsome
  obtain ⟨r, hr, hsound', hcases⟩ := hocc.getVnode hgo' hi hxon (by simp [← hx]) hfresh hread
  rw [hslot, hr, map_some, bind_some]
  rcases hcases with ⟨hnone, hfewer⟩ | ⟨v, hv, hgot⟩
  · have htake : takeRoot (s.setMount i x) i r = (ENOMEM, { s.setMount i x with cache := r.2 }) := by
      simp [takeRoot, hnone]
    rw [htake]
    have hidem : update (update s.mountpoints i x) i x.free =
        update s.mountpoints i x.free := by simp
    have hself : ({ s.setMount i x with cache := r.2 } : System ι).mountpoints i = x := by
      simp [System.setMount]
    apply finishMount_failed (show ENOMEM ≠ 0 by decide)
    · rw [hself]
      refine hsound'.vacate hi (fun w a hw hmp => ?_) rfl
      exact idle_of_free hsound hfree w a (hfewer w a hw) hmp
    · rw [hself]
      show Rooted (update (update s.mountpoints i x) i x.free)
      rw [hidem]
      exact hrooted.updated fun hne => absurd rfl hne
    · intro w hw
      obtain ⟨n, hn, hlt⟩ := held_free hi hfree hnode x w hw
      have hheld := held_update hi s.mountpoints x w
      rw [Mount.refs_free hfree, Mount.refs_on (hxdev ▸ hne), hxnode, hxroot, if_pos hw] at hheld
      have hlive := hsound'.live w (by
        have := held_nonneg s.mountpoints w
        simp at hheld
        omega)
      obtain ⟨a, ha⟩ := isSome_iff_exists.mp hlive
      have hsame := hfewer w a ha
      rw [hn, some.injEq] at hsame
      refine ⟨a, ha, ?_⟩
      rw [hself]
      show held (update (update s.mountpoints i x) i x.free) w < a.refcount
      rwa [hidem, ← hsame]
  · have htake : takeRoot (s.setMount i x) i r = (0, ⟨r.2, update
        (update s.mountpoints i x) i (x.setRoot (some (.minix v))), s.rootFs⟩) := by
      simp [takeRoot, hv, System.setMount]
    rw [htake]
    obtain ⟨n, l, hn, hmp, -, -, -, hlt, hone⟩ := hgot.found
    apply finishMount_done
    · refine hsound'.remountAt hi (by simp [Mount.setRoot]) (by simp [Mount.setRoot]) fun w => ?_
      rw [update_self, Mount.refs_setRoot (hxdev ▸ hne), Mount.refs_on (hxdev ▸ hne), hxroot]
      by_cases hwv : w = v
      · right
        subst hwv
        refine ⟨n, hn, ?_⟩
        simp only [↓reduceIte, reduceCtorEq]
        omega
      · left
        simp [Ne.symm hwv]
    · exact hi
    · simpa [Mount.setRoot, hxdev] using hne
    · simp [Mount.setRoot, hxnode]
    · intro j hj hji hjne
      simp only [update_of_ne hji] at hjne ⊢
      exact hrooted j hj hjne
    · intro _
      refine ⟨by simp [Mount.setRoot, ← hx], v, n, by simp [Mount.setRoot], hn, hmp, ?_⟩
      rcases hone with h1 | ⟨a, ha, hamp, h1⟩
      · rw [h1]
        decide
      · rw [h1, idle_of_free hsound hfree v a ha hamp]
        decide
    · intro hm
      simp [Mount.setRoot, ← hx] at hm

lemma mountSlot_other : ∃ r, mountSlot s i node dev (.other 0) = some r ∧ Good r.2 := by
  obtain ⟨hsound, hrooted⟩ := hgood
  have hne : dev ≠ 0 := fun he => hdev i hi (hfree.trans he.symm)
  generalize hx : (⟨false, node, none, dev, (s.mountpoints i).bufDev⟩ : Mount) = x
  have hxdev : x.dev ≠ 0 := by
    rw [← hx]
    exact hne
  have hocc : Sound s.cache (update s.mountpoints i x) := by
    subst hx
    apply hsound.occupy hi hfree hdev rfl
    · intro hm
      cases hm
    · exact hnode
  have hslot : mountSlot s i node dev (.other 0) = finishMount ⟨s.cache, update
      (update s.mountpoints i x) i (x.setRoot (some .other)), s.rootFs⟩ i node 0 := by
    simp [mountSlot, fsMount, System.setMount, Fs.isMinix, ← hx]
  rw [hslot]
  apply finishMount_done
  · refine hocc.remountAt hi (by simp [Mount.setRoot]) (by simp [Mount.setRoot]) fun w => .inl ?_
    rw [update_self, Mount.refs_setRoot hxdev, Mount.refs_on hxdev]
    simp [← hx]
  · exact hi
  · simpa [Mount.setRoot] using hxdev
  · simp [Mount.setRoot, ← hx]
  · intro j hj hji hjne
    simp only [update_of_ne hji] at hjne ⊢
    exact hrooted j hj hjne
  · intro hm
    simp [Mount.setRoot, ← hx] at hm
  · intro _
    simp [Mount.setRoot]

lemma mountSlot_good (hfresh : fs.Fresh s.cache) (hclean : fs.Clean s.cache i dev)
    (hgo : Countable s.cache ∨ (mountSlot s i node dev fs).isSome) :
    ∃ r, mountSlot s i node dev fs = some r ∧ Good r.2 := by
  cases fs with
  | minix superblock root =>
    by_cases hsuper : 0 ≤ superblock
    · exact mountSlot_minix hgood hi hfree hdev hnode hsuper hfresh hclean hgo
    · have hlt : superblock < 0 := not_le.mp hsuper
      rw [mountSlot, fsMount, minixMount, if_pos hlt, bind_some]
      exact mountSlot_refused hgood hi hfree hnode _ hlt.ne
  | other error =>
    by_cases herror : error = 0
    · subst herror
      exact mountSlot_other hgood hi hfree hdev hnode
    · rw [mountSlot, fsMount, if_pos herror, bind_some]
      exact mountSlot_refused hgood hi hfree hnode _ herror

omit hgood hi hfree hdev hnode in
lemma mountNode_good (hgood : Good s) (hnode : ∀ v, node = some (.minix v) → Referenced s v)
    (hfresh : fs.Fresh s.cache)
    (hclean : ∀ i, slotOf s.mountpoints dev = none → slotOf s.mountpoints 0 = some i →
      fs.Clean s.cache i dev) (hgo : Countable s.cache ∨ (mountNode s node dev fs).isSome) :
    ∃ r, mountNode s node dev fs = some r ∧ Good r.2 := by
  rw [mountNode] at hgo ⊢
  cases hbusy : slotOf s.mountpoints dev with
  | some j =>
    rw [if_pos (by simp)]
    exact ⟨_, rfl, hgood⟩
  | none =>
    rw [if_neg (by simp)]
    rw [hbusy, if_neg (by simp)] at hgo
    cases hslot : slotOf s.mountpoints 0 with
    | none => exact ⟨_, rfl, hgood⟩
    | some i =>
      rw [hslot] at hgo
      obtain ⟨hi, hfree⟩ := slotOf_some hslot
      exact mountSlot_good hgood hi hfree (fun j hj => slotOf_none hbusy hj) hnode hfresh
        (hclean i hbusy hslot) hgo
end Slots
end Mounting

def Reaches (s : System ι) (lookup : Lookup) (dev uid i : ℕ) : Prop :=
  uid = suUid ∧ slotOf s.mountpoints dev = none ∧ slotOf s.mountpoints 0 = some i ∧
    (s.rootFs = none ∨ ∃ node flag, lookup = .found node flag ∧
      isMounted s.cache flag node = some false)

/-- Inode reads succeed, and a slot that still has cached vnodes is given only to their device. -/
def Clean (s : System ι) : Call ι → Prop
  | .mount lookup dev uid fs => ∀ i, Reaches s lookup dev uid i → fs.Clean s.cache i dev
  | .get mp ino load => Reads s.cache mp ino load
  | _ => True

section Calls
variable {s t : System ι} {e : Call ι}

/-- Mounting keeps the cache sound. -/
lemma vfsMount_good {lookup : Lookup} {uid : ℕ} {fs : Fs ι} (hgood : Good s)
    (hperm : Permitted s (.mount lookup dev uid fs)) (hclean : Clean s (.mount lookup dev uid fs))
    (hgo : Countable s.cache ∨ (vfsMount s lookup dev uid fs).isSome) :
    ∃ r, vfsMount s lookup dev uid fs = some r ∧ Good r.2 := by
  obtain ⟨hfresh, href⟩ := hperm
  by_cases huid : uid = suUid
  · by_cases hroot : s.rootFs = none
    · have heq : vfsMount s lookup dev uid fs = mountNode s none dev fs := by
        rw [vfsMount.eq_def, if_neg (by simp [huid]), if_pos hroot]
      rw [heq] at hgo ⊢
      exact mountNode_good hgood (by simp) hfresh
        (fun i hbusy hslot => hclean i ⟨huid, hbusy, hslot, .inl hroot⟩) hgo
    · cases lookup with
      | failed error =>
        have heq : vfsMount s (.failed error) dev uid fs = some (error, s) := by
          rw [vfsMount.eq_def, if_neg (by simp [huid]), if_neg hroot]
        exact ⟨_, heq, hgood⟩
      | found node flag =>
        have heq : vfsMount s (.found node flag) dev uid fs =
            mountOn s node dev fs (isMounted s.cache flag node) := by
          rw [vfsMount.eq_def, if_neg (by simp [huid]), if_neg hroot]
        have hnode : ∀ v, some node = some (.minix v) → Referenced s v := by
          intro v hv
          cases hv
          exact href hroot
        have hlive : (isMounted s.cache flag node).isSome := by
          cases node with
          | other => rfl
          | minix v =>
            obtain ⟨n, hn, -⟩ := hnode v rfl
            simp [isMounted, hn]
        obtain ⟨busy, hbusy⟩ := isSome_iff_exists.mp hlive
        rw [heq, hbusy] at hgo
        rw [heq, hbusy]
        cases busy with
        | false =>
          exact mountNode_good hgood hnode hfresh
            (fun i hdev hslot => hclean i ⟨huid, hdev, hslot, .inr ⟨node, flag, rfl, hbusy⟩⟩) hgo
        | true =>
          cases node with
          | other => exact ⟨_, rfl, hgood⟩
          | minix v =>
            obtain ⟨n, hn, hlt⟩ := hnode v rfl
            obtain ⟨c', hc', hsound, -⟩ := hgood.1.vfsReleaseVnode hn hlt
            simp only [mountOn, releaseNode, hc', map_some]
            exact ⟨_, rfl, hsound, hgood.2⟩
  · have heq : vfsMount s lookup dev uid fs = some (EPERM, s) := by
      rw [vfsMount.eq_def, if_pos huid]
    exact ⟨_, heq, hgood⟩

def Idle (c : Cache ι) (x : Mount) (i : ℕ) : Prop :=
  ∀ v n, c.vnodes v = some n → n.mp = i → n.refcount = x.refs v

lemma dropRef (h : Sound c m) (hi : i < vfsMountMax) (x : Mount)
    (hdev : x.dev = (m i).dev) (hminix : x.minix = (m i).minix) (hv : held m v ≤ n.refcount)
    (hn : c.vnodes v = some n)
    (hrefs : ∀ w, x.refs w = (m i).refs w - if w = v then 1 else 0) (hidle : Idle c (m i) i) :
    ∃ c', vfsReleaseVnode c v = some c' ∧ Sound c' (update m i x) ∧ Idle c' x i := by
  have hsound : Sound c (update m i x) := by
    refine h.remountAt hi hdev hminix fun w => .inl ?_
    rw [hrefs]
    split_ifs <;> omega
  have hlt : held (update m i x) v < n.refcount := by
    have := held_update hi m x v
    rw [hrefs, if_pos rfl] at this
    omega
  obtain ⟨c', hc', hsound', hback⟩ := hsound.vfsReleaseVnode hn hlt
  refine ⟨c', hc', hsound', fun w a hw hmp => ?_⟩
  obtain ⟨b, hb, hbmp, hcount⟩ := hback w a hw
  rw [hcount, hidle w b hb (hbmp ▸ hmp), hrefs]

lemma fsUnmount_good (answers : Unmount) (hgood : Good s) (hi : i < vfsMountMax)
    (hdev : (s.mountpoints i).dev ≠ 0) (hidle : Idle s.cache (s.mountpoints i) i) :
    ∃ r, fsUnmount s i answers = some r ∧ Sound r.2.cache r.2.mountpoints ∧
      (r.1 ≠ 0 ∧ r.2 = s ∨ r.1 = 0 ∧ (∀ y, update r.2.mountpoints i y =
          update s.mountpoints i y) ∧ (r.2.mountpoints i).dev ≠ 0 ∧
        (r.2.mountpoints i).mountNode = (s.mountpoints i).mountNode ∧
        (∀ v, (r.2.mountpoints i).rootNode ≠ some (.minix v)) ∧
        Idle r.2.cache (r.2.mountpoints i) i) := by
  obtain ⟨hsound, hrooted⟩ := hgood
  have hroot := hrooted i hi hdev
  rw [fsUnmount]
  cases hm : (s.mountpoints i).minix with
  | false =>
    rw [if_neg (by simp)]
    have hother : ∀ v, (s.mountpoints i).rootNode ≠ some (.minix v) := by
      intro v
      simp [hroot.other hm]
    split_ifs with hsync
    · exact ⟨_, rfl, hsound, .inl ⟨hsync, rfl⟩⟩
    · refine ⟨_, rfl, hsound, ?_⟩
      by_cases hunmount : answers.unmount = 0
      · exact .inr ⟨hunmount, fun _ => rfl, hdev, rfl, hother, hidle⟩
      · exact .inl ⟨hunmount, rfl⟩
  | true =>
    obtain ⟨hbuf, v, hv⟩ := hroot.minix hm
    obtain ⟨n, hn⟩ := hsound.node_live hi hdev (.inl hv)
    have hrefs : ∀ w, ((s.mountpoints i).setRoot none).refs w =
        (s.mountpoints i).refs w - if w = v then 1 else 0 := by
      intro w
      rw [Mount.refs_setRoot hdev, Mount.refs_on hdev, hv]
      by_cases hwv : w = v
      · simp [hwv]
      · simp [hwv, Ne.symm hwv]
    obtain ⟨c', hc', hsound', hidle'⟩ := dropRef hsound hi ((s.mountpoints i).setRoot none) rfl rfl
      (hsound.kept v n hn).held hn hrefs hidle
    simp only [if_true, hv, releaseNode, hc', map_some]
    refine ⟨_, rfl, hsound', .inr ⟨rfl, fun y => ?_, ?_, ?_, fun w => ?_, ?_⟩⟩
    · simp [System.setMount]
    · simpa [System.setMount, Mount.setRoot] using hdev
    · simp [System.setMount, Mount.setRoot]
    · simp [System.setMount, Mount.setRoot]
    · simpa [System.setMount] using hidle'

def Mount.dropNode (x : Mount) : Mount := { x with mountNode := none }

lemma leaveNode_good {node : Node} (flag : Bool) (hsound : Sound c m) (hi : i < vfsMountMax)
    (hdev : (m i).dev ≠ 0) (hnode : (m i).mountNode = some node)
    (hroot : ∀ v, (m i).rootNode ≠ some (.minix v)) (hidle : Idle c (m i) i) (mounted : Bool) :
    (isMounted c flag node).isSome ∧ ∃ c', leaveNode c node mounted = some c' ∧
      Sound c' (update m i (m i).free) := by
  have hzero : ∀ w, (m i).dropNode.refs w = 0 := by
    intro w
    rw [Mount.refs_on (x := (m i).dropNode) hdev]
    simp [Mount.dropNode, hroot w]
  cases node with
  | other =>
    have hrefs : ∀ w, (m i).refs w = 0 := by
      intro w
      rw [Mount.refs_on hdev, hnode, if_neg (hroot w)]
      rfl
    refine ⟨rfl, c, ?_, hsound.vacate hi (fun v a ha hmp => (hidle v a ha hmp).trans (hrefs v)) rfl⟩
    cases mounted <;> rfl
  | minix v =>
    obtain ⟨n, hn⟩ := hsound.node_live hi hdev (.inr hnode)
    have hlive : (c.vnodes v).isSome := by simp [hn]
    refine ⟨by simp [isMounted, hn], ?_⟩
    obtain ⟨c1, hc1, hsound1, hback, hkeep⟩ : ∃ c1, (if mounted then markMounted c false (.minix v)
        else some c) = some c1 ∧ Sound c1 m ∧ (∀ w a, c1.vnodes w = some a → ∃ b,
          c.vnodes w = some b ∧ a.mp = b.mp ∧ a.refcount = b.refcount) ∧
          ∀ w, (c.vnodes w).isSome → (c1.vnodes w).isSome := by
      cases mounted with
      | false => exact ⟨c, rfl, hsound, fun w a ha => ⟨a, ha, rfl, rfl⟩, fun _ hw => hw⟩
      | true =>
        rw [if_pos rfl]
        apply markMounted_sound hsound
        intro w hw
        cases hw
        exact hlive
    obtain ⟨n1, hn1⟩ := isSome_iff_exists.mp (hkeep v hlive)
    have hidle1 : Idle c1 (m i) i := by
      intro w a ha hmp
      obtain ⟨b, hb, hbmp, hcount⟩ := hback w a ha
      rw [hcount]
      exact hidle w b hb (hbmp ▸ hmp)
    have hrefs : ∀ w, (m i).dropNode.refs w = (m i).refs w - if w = v then 1 else 0 := by
      intro w
      rw [hzero, Mount.refs_on hdev, hnode, if_neg (hroot w)]
      by_cases hwv : w = v
      · simp [hwv]
      · simp [hwv, Ne.symm hwv]
    obtain ⟨c2, hc2, hsound2, hidle2⟩ := dropRef hsound1 hi (m i).dropNode rfl rfl
      (hsound1.kept v n1 hn1).held hn1 hrefs hidle1
    refine ⟨c2, by rw [leaveNode, hc1]; exact hc2, ?_⟩
    have hfree := hsound2.vacate hi (x := (m i).free)
      (fun w a ha hmp => (hidle2 w a ha hmp).trans (hzero w)) rfl
    rwa [update_idem] at hfree

variable {answers : Unmount}

lemma finishUnmount_good (hsound : Sound s.cache s.mountpoints)
    (hi : i < vfsMountMax) (hdev : (s.mountpoints i).dev ≠ 0)
    (hrooted : Rooted (update s.mountpoints i (s.mountpoints i).free))
    (hnode : (s.mountpoints i).mountNode ≠ none)
    (hroot : ∀ v, (s.mountpoints i).rootNode ≠ some (.minix v))
    (hidle : Idle s.cache (s.mountpoints i) i) :
    ∃ r, finishUnmount s i answers = some r ∧ Good r.2 := by
  obtain ⟨node, hn⟩ := ne_none_iff_exists'.mp hnode
  have hleave := leaveNode_good answers.mounted hsound hi hdev hn hroot hidle
  obtain ⟨mounted, hmounted⟩ := isSome_iff_exists.mp (hleave true).1
  obtain ⟨-, c', hc', hsound'⟩ := hleave mounted
  rw [finishUnmount, hn]
  simp only [hmounted, bind_some, hc', map_some]
  exact ⟨_, rfl, hsound', hrooted⟩

lemma vfsUnmount_good {uid : ℕ} (hgood : Good s) (hperm : Permitted s (.unmount dev uid answers)) :
    ∃ r, vfsUnmount s dev uid answers = some r ∧ Good r.2 := by
  obtain ⟨hne, hidle⟩ := hperm
  rw [vfsUnmount]
  cases hslot : slotOf s.mountpoints dev with
  | none => exact ⟨_, rfl, hgood⟩
  | some i =>
    obtain ⟨hi, hdev⟩ := slotOf_some hslot
    have hon : (s.mountpoints i).dev ≠ 0 := hdev ▸ hne
    by_cases huid : uid = suUid
    · simp only [huid, ne_eq, not_true_eq_false, if_false, if_neg hon]
      obtain ⟨r, hr, hsound, hcases⟩ := fsUnmount_good answers hgood hi hon (hidle i hslot)
      rw [hr, bind_some]
      rcases hcases with ⟨herror, hsame⟩ | ⟨hzero, hsame, hon', hnode, hroot, hidle'⟩
      · rw [if_pos herror]
        exact ⟨r, rfl, hsame ▸ hgood⟩
      · rw [if_neg (by simp [hzero])]
        apply finishUnmount_good hsound hi hon'
        · rw [hsame]
          exact hgood.2.updated fun hx => absurd rfl hx
        · rw [hnode]
          exact (hgood.2 i hi hon).node
        · exact hroot
        · exact hidle'
    · exact ⟨_, if_pos huid, hgood⟩

lemma perform_good (hgood : Good s) (hperm : Permitted s e) (hclean : Clean s e)
    (hgo : Countable s.cache ∨ (perform s e).isSome) : ∃ t, perform s e = some t ∧ Good t := by
  cases e with
  | mount lookup dev uid fs =>
    obtain ⟨r, hr, hgood'⟩ := vfsMount_good hgood hperm hclean (by simpa [perform] using hgo)
    exact ⟨r.2, by simp [perform, hr], hgood'⟩
  | unmount dev uid answers =>
    obtain ⟨r, hr, hgood'⟩ := vfsUnmount_good hgood hperm
    exact ⟨r.2, by simp [perform, hr], hgood'⟩
  | get mp ino load =>
    obtain ⟨hmp, hon, hfresh⟩ := hperm
    have hbuf := ((hgood.2 mp hmp hon.1).minix hon.2).1
    obtain ⟨r, hr, hsound, -⟩ := hgood.1.getVnode (by simpa [perform] using hgo) hmp hon hbuf hfresh
      hclean
    exact ⟨{ s with cache := r.2 }, by simp [perform, hr], hsound, hgood.2⟩
  | release v =>
    obtain ⟨n, hn, hlt⟩ := hperm
    obtain ⟨c', hc', hsound, -⟩ := hgood.1.vfsReleaseVnode hn hlt
    exact ⟨{ s with cache := c' }, by simp [perform, hc'], hsound, hgood.2⟩
  | evict v =>
    obtain ⟨n, hn, hzero⟩ := hperm
    have hheld := (hgood.1.kept v n hn).held
    obtain ⟨c', hc', hsound, -⟩ := hgood.1.releaseVnode hn (by omega)
    exact ⟨{ s with cache := c' }, by simp [perform, hc'], hsound, hgood.2⟩

lemma good_start : Good (start : System ι) := by
  have hheld : ∀ v, held (start : System ι).mountpoints v = 0 := fun v =>
    Finset.sum_eq_zero fun j _ => Mount.refs_free rfl v
  refine ⟨⟨⟨[], holds_init, rfl, by simp [start]⟩, ?_, ?_, ?_, ?_⟩, ?_⟩
  · intro v n hv
    simp [start] at hv
  · intro v w n n' hv
    simp [start] at hv
  · intro v hv
    rw [hheld] at hv
    simp at hv
  · intro i j _ _ hne
    exact absurd rfl hne
  · intro j _ hne
    exact absurd rfl hne

lemma good_run {es : List (Call ι)} (hrun : Run (Guarded Clean Step) start es s) : Good s := by
  apply hrun.preserves good_start
  rintro s e t hgood ⟨hclean, hperm, hstep⟩
  obtain ⟨t', ht', hgood'⟩ := perform_good hgood hperm hclean (.inr (by simp [hstep]))
  rw [hstep, some.injEq] at ht'
  exact ht' ▸ hgood'
end Calls

inductive Reachable (c : Cache ι) : ℕ → Prop
  | head {v : ℕ} (h : c.list.head () = some v) : Reachable c v
  | next {v w : ℕ} (h : Reachable c v) (hw : c.list.next v = some w) : Reachable c w

lemma Listed.reachable (h : Listed c xs) (hv : Reachable c v) : v ∈ xs := by
  induction hv with
  | head hhead =>
    rw [h.holds.head ()] at hhead
    exact List.mem_of_mem_head? hhead
  | next _ hw ih => exact h.holds.next_mem (k := ()) ih hw

/-- The list leads to allocated vnodes with contents, no two of them in use for one inode. -/
structure Identity (s : System ι) : Prop where
  loaded : ∀ v, Reachable s.cache v → ∃ n l, s.cache.vnodes v = some n ∧ n.loaded = some l
  single : ∀ v w n n', Reachable s.cache v → Reachable s.cache w → s.cache.vnodes v = some n →
    s.cache.vnodes w = some n' → n.refcount ≠ 0 → n'.refcount ≠ 0 →
    (s.mountpoints n.mp).dev = (s.mountpoints n'.mp).dev → n.ino = n'.ino → v = w
  origin : ∀ v n l, s.cache.vnodes v = some n → n.refcount ≠ 0 → n.loaded = some l →
    l.dev = (s.mountpoints n.mp).dev

lemma Good.identity {s : System ι} (h : Good s) : Identity s := by
  obtain ⟨hsound, -⟩ := h
  refine ⟨fun v hv => ?_, ?_, ?_⟩
  · obtain ⟨xs, hl⟩ := hsound.listed
    obtain ⟨n, hn⟩ := isSome_iff_exists.mp ((hl.live v).mpr (hl.reachable hv))
    obtain ⟨l, hload, -⟩ := (hsound.kept v n hn).origin
    exact ⟨n, l, hn, hload⟩
  · intro v w n n' _ _ hv hw hr _ hdev hino
    have hk := hsound.kept v n hv
    have hslot := hsound.devs _ _ hk.slot (hsound.kept w n' hw).slot (hk.used hr).1 hdev
    exact hsound.unique v w n n' hv hw hslot hino
  · intro v n l hv hr hl
    have hk := hsound.kept v n hv
    obtain ⟨l', hl', hdev⟩ := hk.origin
    rw [hl, some.injEq] at hl'
    exact hl' ▸ hdev (hk.used hr)

/-- While inode reads succeed and no slot passes to another device with vnodes cached, every history
keeps the cache sound, and `get_vnode` answers contents of the mounted device. -/
theorem vnode_cache_identity {es : List (Call ι)} {s : System ι}
    (hrun : Run (Guarded Clean Step) start es s) : Identity s ∧
    (∀ e, Permitted s e → Clean s e → Countable s.cache → ∃ t, perform s e = some t) ∧
    ∀ mp ino load r v, Permitted s (.get mp ino load) → Clean s (.get mp ino load) →
      getVnode s.cache s.mountpoints mp ino load = some r → r.1 = some v →
      ∃ n l, r.2.vnodes v = some n ∧ n.mp = mp ∧ n.ino = ino ∧ n.loaded = some l ∧
        l.dev = (s.mountpoints mp).dev := by
  have hgood := good_run hrun
  refine ⟨hgood.identity, fun e hperm hclean hcount => ?_, ?_⟩
  · obtain ⟨t, ht, -⟩ := perform_good hgood hperm hclean (.inl hcount)
    exact ⟨t, ht⟩
  · rintro mp ino load r v ⟨hmp, hon, hfresh⟩ hclean hget hv
    have hbuf := ((hgood.2 mp hmp hon.1).minix hon.2).1
    obtain ⟨r', hr', -, hcases⟩ := hgood.1.getVnode (.inr (by simp [hget])) hmp hon hbuf hfresh
      hclean
    rw [hget, some.injEq] at hr'
    subst hr'
    rcases hcases with ⟨hnone, -⟩ | ⟨w, hw, hgot⟩
    · simp [hnone] at hv
    · rw [hw, some.injEq] at hv
      subst hv
      obtain ⟨n, l, hn, hnmp, hino, hload, hdev, -⟩ := hgot.found
      exact ⟨n, l, hn, hnmp, hino, hload, hdev⟩

lemma Load.fresh_of_few {inode : Option ι} (hfew : c.nodesInCache ≤ maxVnodes)
    (hv : c.vnodes v = none) : (⟨some v, inode⟩ : Load ι).Fresh c := by
  intro w hw c' hc'
  cases hw
  have hstop : ¬ c.nodesInCache - 1 ≥ maxVnodes := by omega
  have hsame : releaseUnusedVnodes c = some c := by
    rw [releaseUnusedVnodes]
    cases c.nodesInCache.toNat <;> simp [releaseLoop, hstop]
  rw [hsame, some.injEq] at hc'
  exact hc' ▸ hv

def mountFirst : Call ℕ := .mount (.failed 0) 1 suUid (.minix 0 ⟨some 100, some 7⟩)

def firstMounted : System ℕ where
  cache :=
    { list := queueInsert queueInit () 100
      nodesInCache := 1
      vnodes := update (update (fun _ => none) 100
        (some ⟨0, 1, 1, false, some ⟨1, 7⟩⟩)) 100 (some ⟨0, 2, 1, false, some ⟨1, 7⟩⟩) }
  mountpoints := update (update (update (update
    (fun _ => ⟨false, none, none, 0, 0⟩) 0 ⟨true, none, none, 1, 0⟩) 0 ⟨true, none, none, 1, 1⟩)
    0 ⟨true, none, some (.minix 100), 1, 1⟩) 0 ⟨true, some (.minix 100), some (.minix 100), 1, 1⟩
  rootFs := some 0

lemma mountFirst_step : Step start mountFirst firstMounted :=
  ⟨⟨Load.fresh_of_few (by decide) rfl, trivial⟩, rfl⟩

lemma mountFirst_clean : Clean start mountFirst :=
  fun _ _ _ => ⟨fun _ _ _ hv => by simp [start] at hv, fun _ _ => rfl⟩

lemma unmountFirst_permitted : Permitted firstMounted (.unmount 1 suUid ⟨0, 0, false⟩) := by
  refine ⟨by decide, fun i hi v n hv hmp => ?_⟩
  cases (show some 0 = some i from hi)
  by_cases hv100 : v = 100
  · subst hv100
    simp only [firstMounted, update_self, some.injEq] at hv
    subst hv
    rfl
  · simp [firstMounted, hv100] at hv

lemma mount_permitted (s : System ℕ) (dev : ℕ) :
    Permitted s (.mount (.failed 0) dev suUid (.minix 0 ⟨none, none⟩)) := by
  refine ⟨fun v hv => ?_, trivial⟩
  cases hv

theorem vnode_cache_identity_remounted : ∃ s : System ℕ, Run (Guarded Clean Step) start
    ([mountFirst] ++ [.unmount 1 suUid ⟨0, 0, false⟩] ++
      [.mount (.failed 0) 1 suUid (.minix 0 ⟨none, none⟩)]) s ∧
    (s.mountpoints 0).dev = 1 ∧ Identity s := by
  obtain ⟨s, hrun, hdev⟩ : ∃ s : System ℕ, Run (Guarded Clean Step) start
      ([mountFirst] ++ [.unmount 1 suUid ⟨0, 0, false⟩] ++
        [.mount (.failed 0) 1 suUid (.minix 0 ⟨none, none⟩)]) s ∧ (s.mountpoints 0).dev = 1 := by
    refine ⟨_, .snoc (.snoc (.one ⟨mountFirst_clean, mountFirst_step⟩)
      ⟨trivial, unmountFirst_permitted, rfl⟩) ⟨?_, mount_permitted _ _, rfl⟩, rfl⟩
    intro i _ _
    refine ⟨fun v n l hv _ hl => ?_, fun _ hsome => by cases hsome⟩
    by_cases hv100 : v = 100
    · subst hv100
      cases hv
      cases hl
      rfl
    · simp [firstMounted, System.setMount, Cache.put, hv100] at hv
  exact ⟨s, hrun, hdev, (vnode_cache_identity hrun).1⟩

/-- Another device in the same slot gets the cached root. -/
theorem remount_answers_old_root :
    (∃ es, ∃ s : System ℕ, Run Step start es s ∧ (s.mountpoints 0).dev = 2 ∧
      ∃ r n, getVnode s.cache s.mountpoints 0 1 ⟨none, none⟩ = some r ∧ r.1 = some 100 ∧
        r.2.vnodes 100 = some n ∧ n.loaded = some ⟨1, 7⟩) ∧
    ∃ es, ∃ s : System ℕ, Run Step start es s ∧ Reachable s.cache 101 ∧
      s.cache.vnodes 101 = none := by
  constructor
  · exact ⟨_, _, ((Run.one mountFirst_step).snoc ⟨unmountFirst_permitted, rfl⟩).snoc
      ⟨mount_permitted _ 2, rfl⟩, rfl, _, _, rfl, rfl, rfl, rfl⟩
  · have hget : Permitted firstMounted (.get 0 5 ⟨some 101, none⟩) :=
      ⟨by decide, by decide, Load.fresh_of_few (by decide) rfl⟩
    exact ⟨_, _, (Run.one mountFirst_step).snoc ⟨hget, rfl⟩, .head rfl, rfl⟩

end Gloworm.MinixVnode
