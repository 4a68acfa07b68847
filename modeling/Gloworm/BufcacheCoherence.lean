import Gloworm.BufcacheInvariant

/-! The cache and the device together always hold the contents that holders have given
the blocks. -/
namespace Gloworm.Bufcache
open List Queue
open BufcacheFault (Entries Contents)
variable {β : Type}

def System.Pending (s : System β) (num : ℕ) : Prop :=
  ∃ h ∈ s.holders, h.modified = true ∧ (s.cache.bufs h.buf).num = num

structure Coherent (s : System β) (xs : List ℕ) : Prop where
  holds : Holds s.cache.blocks fun _ => xs
  flags : s.cache.flags = 0
  blockSize : 0 < s.cache.blockSize
  count : s.cache.numEntries = xs.length
  entries : ∀ b, b ∈ s.entries ↔ b ∈ xs
  distinct : ∀ a ∈ xs, ∀ b ∈ xs, (s.cache.bufs a).num = (s.cache.bufs b).num → a = b
  inside : ∀ a ∈ xs, (s.cache.bufs a).num * s.cache.blockSize < 2 ^ 32
  block : ∀ a ∈ xs, (s.cache.bufs a).block = s.left (s.cache.bufs a).num
  clean : ∀ a ∈ xs, ¬ s.cache.dirty a → ¬ s.Pending (s.cache.bufs a).num →
    s.disk ((s.cache.bufs a).num * s.cache.blockSize) = s.left (s.cache.bufs a).num
  absent : ∀ num, num * s.cache.blockSize < 2 ^ 32 → (∀ a ∈ xs, (s.cache.bufs a).num ≠ num) →
    s.disk (num * s.cache.blockSize) = s.left num
  refs : ∀ a ∈ xs, (s.cache.bufs a).refcount = (s.holders.countP fun h => h.buf = a : ℕ)
  held : ∀ h ∈ s.holders, h.buf ∈ xs

lemma coherent_start {dev blockSize : ℕ} (hsize : 0 < blockSize) (mem : ℕ → Buf β)
    (disk : ℕ → β) : Coherent (start dev blockSize mem disk) [] := by
  refine ⟨holds_init, rfl, hsize, rfl, ?_, ?_, ?_, ?_, ?_, ?_, ?_, ?_⟩
  all_goals simp [start, initBufcache]

def System.marks (s : System β) : List (ℕ × Bool) := s.holders.map fun h => (h.buf, h.modified)

variable {s : System β} {xs : List ℕ}

lemma pending_iff (he : Entries s.cache s.marks xs) {a : ℕ} (ha : a ∈ xs) :
    s.Pending (s.cache.bufs a).num ↔ (a, true) ∈ s.marks := by
  constructor
  · rintro ⟨k, hk, hm, hn⟩
    have hmark : (k.buf, k.modified) ∈ s.marks := List.mem_map.mpr ⟨k, hk, rfl⟩
    rw [← he.distinct k.buf (he.held _ hmark) a ha hn, ← hm]
    exact hmark
  · intro hin
    obtain ⟨k, hk, hmark⟩ := List.mem_map.mp hin
    obtain ⟨rfl, hm⟩ := Prod.mk.inj hmark
    exact ⟨k, hk, hm, rfl⟩

lemma coherent_iff : Coherent s xs ↔ Entries s.cache s.marks xs ∧
    (∀ b, b ∈ s.entries ↔ b ∈ xs) ∧ Contents s.cache s.disk s.left s.marks [] xs := by
  have hcount : ∀ a, s.marks.countP (fun m => m.1 = a) = s.holders.countP fun h => h.buf = a :=
    fun a => countP_map
  constructor
  · intro h
    have he : Entries s.cache s.marks xs := by
      refine ⟨h.holds, h.flags, h.count, h.distinct, fun a ha => ?_, fun m hm => ?_⟩
      · rw [h.refs a ha, hcount]
      · obtain ⟨k, hk, rfl⟩ := List.mem_map.mp hm
        exact h.held k hk
    refine ⟨he, h.entries, h.blockSize, h.inside, fun a ha _ => h.block a ha, ?_, h.absent, by simp⟩
    intro a ha hd hw
    exact h.clean a ha hd fun hp => hw ((pending_iff he ha).mp hp)
  · rintro ⟨he, hentries, hc⟩
    refine ⟨he.holds, he.flags, hc.blockSize, he.count, hentries, he.distinct, hc.inside,
      fun a ha => hc.block a ha (by simp), ?_, hc.absent, fun a ha => ?_, fun k hk => ?_⟩
    · intro a ha hd hp
      exact hc.clean a ha hd fun hw => hp ((pending_iff he ha).mpr hw)
    · rw [he.refs a ha, hcount]
    · exact he.held (k.buf, k.modified) (List.mem_map.mpr ⟨k, hk, rfl⟩)

/-- A device whose transfers succeed is one that always answers `done`. -/
lemma getBlock_done (c : Cache β) (disk : ℕ → β) (num fresh : ℕ) (zero : β) :
    getBlock c disk num fresh zero =
      BufcacheFault.getBlock c disk num (some fresh) zero .done .done := by
  unfold getBlock BufcacheFault.getBlock
  rcases findBlock c num with _ | _ | b
  · rfl
  · dsimp only
    unfold loadBlock BufcacheFault.loadBlock findFreeEntry BufcacheFault.findFreeEntry
    rcases lastUnreferenced c with _ | _ | last
    · rfl
    · split_ifs <;> rfl
    · split_ifs <;> rfl
  · rfl

lemma syncBufcache_done (c : Cache β) (disk : ℕ → β) :
    syncBufcache c disk = BufcacheFault.syncBufcache c disk fun _ => .done := by
  have hloop : ∀ fuel c disk p, syncLoop fuel c disk p =
      BufcacheFault.syncLoop (β := β) (fun _ => .done) fuel c disk p := by
    intro fuel
    induction fuel with
    | zero => exact fun _ _ _ => rfl
    | succ fuel ih =>
      intro c disk p
      cases p with
      | none => rfl
      | some b => exact ih _ _ _
  exact hloop _ c disk _

end Gloworm.Bufcache
