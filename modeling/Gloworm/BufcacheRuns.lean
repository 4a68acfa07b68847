import Gloworm.BufcacheCoherence

/-! The contents the cache promises over whole histories. -/
namespace Gloworm.Bufcache
open List Option Transition
open BufcacheFault (Safe)
variable {β : Type}

/-- The block lies within the device's offsets, and its buffer is not taken from a dirty
block 0. -/
def SparesBlockZero (s : System β) : Event β → Prop
  | .get num _ _ _ => num * s.cache.blockSize < 2 ^ 32 ∧
    ∀ b ∈ victim s.cache num, ¬ ((s.cache.bufs b).num = 0 ∧ s.cache.dirty b)
  | _ => True

namespace Coherent
variable {s : System β} {xs : List ℕ} (h : Coherent s xs)
include h

lemma get {num token fresh : ℕ} {zero : β} {r : Option ℕ × Cache β × (ℕ → β)}
    (hfresh : fresh ∉ s.entries) (hg : SparesBlockZero s (.get num token fresh zero))
    (hr : getBlock s.cache s.disk num fresh zero = some r) :
    (∃ ys, Coherent (s.afterGet token fresh r) ys) ∧
      ∀ b ∈ r.1, (r.2.1.bufs b).num = num ∧ (r.2.1.bufs b).block = s.left num := by
  obtain ⟨he, hentries, hc⟩ := coherent_iff.mp h
  rw [getBlock_done] at hr
  have hnew : ∀ b ∈ some fresh, b ∉ xs := by
    intro b hb hin
    obtain rfl := some.inj hb
    exact hfresh ((hentries fresh).mpr hin)
  have hsafe : Safe s.cache num [] (.done : BufcacheFault.Answer β) :=
    ⟨hg.1, by simp, fun b hb hd => ⟨fun hz => hg.2 b hb ⟨hz, hd⟩, rfl⟩⟩
  obtain ⟨ys, ht⟩ := he.get hnew hr
  obtain ⟨hc', hblock, hread⟩ := hc.get he hsafe hr ht hnew
  rw [eq_nil_of_subset_nil (hread rfl)] at hc'
  have hmarks : (s.afterGet token fresh r).marks = r.1.toList.map (·, false) ++ s.marks := by
    obtain ⟨_ | b, c, disk⟩ := r <;> rfl
  refine ⟨⟨ys, coherent_iff.mpr ⟨hmarks ▸ ht.entries, fun b => ?_, hmarks ▸ hc'⟩⟩,
    fun b hb => ⟨ht.found b hb, hblock b hb⟩⟩
  rw [ht.mem b, System.afterGet]
  split_ifs
  · exact hentries b
  · simp [hentries]

lemma get_some (num fresh : ℕ) (zero : β) (hdev : s.cache.dev ≠ 0)
    (hroom : s.cache.numEntries < bufcacheMax ∨ ∃ b ∈ s.entries, ¬ 0 < (s.cache.bufs b).refcount)
    (hmax : ∀ b ∈ s.entries, (s.cache.bufs b).refcount < intMax) :
    ∃ b c disk, getBlock s.cache s.disk num fresh zero = some (some b, c, disk) := by
  have he := (coherent_iff.mp h).1
  rw [getBlock, he.findBlock_spec]
  cases hf : xs.find? fun b => (s.cache.bufs b).num = num with
  | some b =>
    have hb := (h.entries b).mpr (List.mem_of_find?_eq_some hf)
    simp only [if_neg (hmax b hb).ne]
    exact ⟨_, _, _, rfl⟩
  | none =>
    simp only [loadBlock, if_neg hdev, findFreeEntry, he.lastUnreferenced_spec]
    by_cases hlt : s.cache.numEntries < bufcacheMax
    · simp only [if_pos hlt, map_some]
      exact ⟨_, _, _, rfl⟩
    · obtain ⟨b, hb, hz⟩ := hroom.resolve_left hlt
      have hin : b ∈ xs.reverse := mem_reverse.mpr ((h.entries b).mp hb)
      have hsome : (xs.reverse.find? fun b => ¬ 0 < (s.cache.bufs b).refcount).isSome :=
        List.find?_isSome.mpr ⟨b, hin, by simpa using hz⟩
      obtain ⟨v, hv⟩ := isSome_iff_exists.mp hsome
      simp only [if_neg hlt, hv, map_some]
      exact ⟨_, _, _, rfl⟩

lemma sync : ∃ c disk, syncBufcache s.cache s.disk = some (c, disk) ∧
      Coherent { s with cache := c, disk := disk } xs ∧
      ∀ num, num * s.cache.blockSize < 2 ^ 32 → ¬ s.Pending num →
        disk (num * s.cache.blockSize) = s.left num := by
  obtain ⟨he, hentries, hc⟩ := coherent_iff.mp h
  obtain ⟨c, disk, hrun, hsame, hclean, hkeeps⟩ := he.synced s.disk fun _ => .done
  have hcoh : Coherent { s with cache := c, disk := disk } xs :=
    coherent_iff.mpr ⟨he.same hsame, hentries, hkeeps s.left [] hc⟩
  refine ⟨c, disk, (syncBufcache_done _ _).trans hrun, hcoh, fun num hn hp => ?_⟩
  have hp' : ¬ ({ s with cache := c, disk := disk } : System β).Pending num := by
    simpa only [System.Pending, hsame.num] using hp
  rw [← hsame.blockSize] at hn ⊢
  by_cases hin : ∃ a ∈ xs, (c.bufs a).num = num
  · obtain ⟨a, ha, rfl⟩ := hin
    exact hcoh.clean a ha (hclean (fun _ => rfl) a ha) hp'
  · exact hcoh.absent num hn fun a ha hsame' => hin ⟨a, ha, hsame'⟩

lemma step {e : Event β} {t : System β} (hstep : Guarded SparesBlockZero Step s e t) :
    ∃ ys, Coherent t ys := by
  obtain ⟨hg, hperm, hdo⟩ := hstep
  obtain ⟨he, hentries, hc⟩ := coherent_iff.mp h
  have hmarks : ∀ k ∈ s.holders, s.marks.Perm ((k.buf, k.modified) ::
      (s.holders.erase k).map fun h => (h.buf, h.modified)) :=
    fun k hk => (perm_cons_erase hk).map _
  cases e with
  | get num token fresh zero =>
    obtain ⟨r, hr, rfl⟩ := map_eq_some_iff.mp hdo
    exact (h.get hperm.2 hg hr).1
  | modify token value =>
    obtain ⟨k, hk, rfl⟩ := map_eq_some_iff.mp hdo
    have hmark := hmarks k (List.mem_of_find?_eq_some hk)
    have hchanged := he.changed hmark true (f := fun x => { x with block := value })
      (fun _ => rfl) fun _ => rfl
    exact ⟨xs, coherent_iff.mpr ⟨hchanged, hentries, hc.stored he hmark value⟩⟩
  | release token dirty =>
    obtain ⟨k, hk, rfl⟩ := map_eq_some_iff.mp hdo
    obtain ⟨k', hk', hd⟩ := hperm
    obtain rfl : k = k' := some.inj (hk.symm.trans hk')
    have hmark := hmarks k (List.mem_of_find?_eq_some hk)
    exact ⟨xs, coherent_iff.mpr ⟨he.released hmark dirty, hentries, hc.released he hmark hd⟩⟩
  | sync =>
    obtain ⟨r, hr, rfl⟩ := map_eq_some_iff.mp hdo
    obtain ⟨c, disk, hrun, hcoh, _⟩ := h.sync
    obtain rfl : (c, disk) = r := some.inj (hrun.symm.trans hr)
    exact ⟨xs, hcoh⟩
end Coherent

/-- In every history that never takes the buffer of a dirty block 0, `get_block` answers the
contents last given to the block, and `sync_bufcache` writes them to the device. -/
theorem bufcache_loses_no_update {dev blockSize : ℕ} (hsize : 0 < blockSize) (mem : ℕ → Buf β)
    (disk : ℕ → β) {es : List (Event β)} {s : System β}
    (hrun : Run (Guarded SparesBlockZero Step) (start dev blockSize mem disk) es s) :
    (∀ num token fresh zero b c d, Permitted s (.get num token fresh zero) →
      SparesBlockZero s (.get num token fresh zero) →
      getBlock s.cache s.disk num fresh zero = some (some b, c, d) →
      (c.bufs b).num = num ∧ (c.bufs b).block = s.left num) ∧ (∀ num fresh zero, s.cache.dev ≠ 0 →
      (s.cache.numEntries < bufcacheMax ∨ ∃ b ∈ s.entries, ¬ 0 < (s.cache.bufs b).refcount) →
      (∀ b ∈ s.entries, (s.cache.bufs b).refcount < intMax) →
      ∃ b c d, getBlock s.cache s.disk num fresh zero = some (some b, c, d)) ∧
    ∃ c d, syncBufcache s.cache s.disk = some (c, d) ∧
      ∀ num, num * s.cache.blockSize < 2 ^ 32 → ¬ s.Pending num →
        d (num * s.cache.blockSize) = s.left num := by
  obtain ⟨xs, h⟩ := hrun.preserves (I := fun s => ∃ xs, Coherent s xs)
    ⟨[], coherent_start hsize mem disk⟩ (fun _ _ _ ⟨_, h⟩ hstep => h.step hstep)
  refine ⟨?_, fun num fresh zero => h.get_some num fresh zero, ?_⟩
  · intro num token fresh zero b c d hperm hg hget
    exact (h.get hperm.2 hg hget).2 b rfl
  · obtain ⟨c, d, hsync, _, hleft⟩ := h.sync
    exact ⟨c, d, hsync, hleft⟩

instance (s : System β) (e : Event β) : Decidable (Permitted s e) := by
  cases e <;> unfold Permitted <;> infer_instance

instance (s : System β) (e : Event β) : Decidable (SparesBlockZero s e) := by
  cases e <;> unfold SparesBlockZero <;> infer_instance

def advance (guard : System β → Event β → Bool) (s : System β) (e : Event β) :
    Option (System β) :=
  if guard s e ∧ Permitted s e then perform s e else none

lemma advance_step {guard : System β → Event β → Bool} {s t : System β} {e : Event β}
    (h : advance guard s e = some t) : guard s e = true ∧ Step s e t := by
  unfold advance at h
  split_ifs at h with hc
  exact ⟨hc.1, hc.2, h⟩

def changeZeroAndRead : List (Event ℕ) :=
  [.get 0 0 1000 0, .modify 0 7, .release 0 true] ++
    (List.range 100).flatMap fun i => [.get (i + 1) (i + 1) (1001 + i) 0, .release (i + 1) false]

/-- Block 0 is recycled without being written. -/
theorem recycling_loses_block_zero :
    ∃ s, Run Step (start 1 1024 (fun _ => ⟨0, 0, 0, 0⟩) fun _ => 0) changeZeroAndRead s ∧
      s.left 0 = 7 ∧ ¬ s.Pending 0 ∧
      ∃ b c d, getBlock s.cache s.disk 0 5000 0 = some (some b, c, d) ∧
        (c.bufs b).block = 0 ∧ ∃ c' d', syncBufcache s.cache s.disk = some (c', d') ∧
          d' 0 = 0 := by
  refine (exists_run (p := fun s => s.left 0 = 7 ∧ s.holders = [] ∧
    (∃ r ∈ getBlock s.cache s.disk 0 5000 0, ∃ b ∈ r.1, (r.2.1.bufs b).block = 0) ∧
    ∃ r ∈ syncBufcache s.cache s.disk, r.2 0 = 0) (f := advance fun _ _ => true)
    (fun s e t h => (advance_step h).2) (by decide +kernel)).imp
    fun s ⟨hrun, hleft, hnone, hget, hsync⟩ => ⟨hrun, hleft, ?_, ?_⟩
  · rintro ⟨k, hk, _⟩
    rw [hnone] at hk
    cases hk
  · obtain ⟨⟨a, c, d⟩, hg, b, ha, hb⟩ := hget
    obtain ⟨⟨c', d'⟩, hs', hd⟩ := hsync
    obtain rfl : a = some b := ha
    exact ⟨b, c, d, hg, hb, c', d', hs', hd⟩

def changeThreeAndRead : List (Event ℕ) :=
  [.get 3 0 1000 0, .modify 0 7, .release 0 true] ++
    (List.range 100).flatMap fun i => [.get (i + 4) (i + 1) (1001 + i) 0, .release (i + 1) false]

/-- The last of the blocks that are read takes the buffer of block 3. -/
theorem bufcache_loses_no_update_recycled : ∃ s,
    Run (Guarded SparesBlockZero Step) (start 1 1024 (fun _ => ⟨0, 0, 0, 0⟩) fun _ => 0)
      changeThreeAndRead s ∧ s.left 3 = 7 ∧ (s.cache.bufs 1000).num = 103 ∧
    ∃ c d, syncBufcache s.cache s.disk = some (c, d) ∧ d 3072 = 7 := by
  refine (exists_run (p := fun s => s.left 3 = 7 ∧ (s.cache.bufs 1000).num = 103 ∧
    s.holders = [] ∧ s.cache.blockSize = 1024)
    (guarded_of_advance fun _ _ _ _ => advance_step) (by decide +kernel)).imp
    fun s ⟨hrun, hleft, hnum, hnone, hsize⟩ => ⟨hrun, hleft, hnum, ?_⟩
  obtain ⟨_, _, c, d, hsync, hd⟩ := bufcache_loses_no_update (by decide) _ _ hrun
  refine ⟨c, d, hsync, ?_⟩
  have hpend : ¬ s.Pending 3 := by
    rintro ⟨k, hk, _⟩
    rw [hnone] at hk
    cases hk
  have := hd 3 (by rw [hsize]; decide) hpend
  rwa [hsize, hleft] at this

end Gloworm.Bufcache
