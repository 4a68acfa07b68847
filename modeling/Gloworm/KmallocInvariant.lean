import Gloworm.KmallocCalls

/-! Free and live blocks tile the pages obtained, the free list is ordered and fully joined, and the
counters are the sums of the block sizes. -/
namespace Gloworm.Kmalloc
open List Word SpanCover CoalescedList Transition

structure Invariant (s : System) (free : List Span) : Prop where
  chain : Chained s.heap.mem s.heap.freeBlocks free 0
  separated : Separated free
  placedFree : ∀ b ∈ free, Placed b
  placedLive : ∀ p ∈ s.live, Placed (liveSpan s.heap p)
  unlinked : ∀ p ∈ s.live, s.heap.next (liveSpan s.heap p).start = 0
  pagesInside : ∀ r ∈ s.heap.pages, 0 < r.start ∧ r.stop ≤ 2 ^ 32
  pagesOnce : ∀ x, cover s.heap.pages x ≤ 1
  tiled : ∀ x, cover free x + cover s.liveSpans x = cover s.heap.pages x
  bytesFree : s.heap.bytesFree = total free
  bytesAllocated : s.heap.bytesAllocated = total s.liveSpans

lemma invariant_init (mem : ℕ → ℕ) : Invariant ⟨initKernelHeap mem, []⟩ [] := by
  constructor <;> simp [initKernelHeap, Chained, Separated, System.liveSpans]

lemma total_lt_word {bs : List Span} (hplaced : ∀ b ∈ bs, Placed b)
    (honce : ∀ x, cover bs x ≤ 1) : total bs < 2 ^ 32 := by
  refine total_lt (by norm_num) (fun b hb => (hplaced b hb).inside) honce ?_
  by_contra hne
  obtain ⟨b, hb, h1, _⟩ := cover_pos_iff.mp (Nat.pos_of_ne_zero hne)
  have := (hplaced b hb).pos
  omega

variable {h h' : Heap} {b : Span}

lemma header_frame {spans bs : List Span} (hframe : ∀ w, cover spans w = 0 → h'.mem w = h.mem w)
    (hb : b ∈ bs) (hsize : sizeofBlock ≤ b.size) (hdis : ∀ x, cover spans x + cover bs x ≤ 1) :
    h'.mem b.start = h.mem b.start ∧ h'.next b.start = h.next b.start := by
  have h1 := covers_le_cover hb b.start
  have h2 := covers_le_cover hb (b.start + sizeofPointer)
  rw [covers_start hsize] at h1
  rw [covers_next hsize] at h2
  have h3 := hdis b.start
  have h4 := hdis (b.start + sizeofPointer)
  exact ⟨hframe _ (by omega), hframe _ (by omega)⟩

lemma liveSpan_congr {p : ℕ} (hm : h'.mem (liveSpan h p).start = h.mem (liveSpan h p).start) :
    liveSpan h' p = liveSpan h p := by
  simp only [liveSpan, Span.mk.injEq, true_and]
  exact hm

lemma live_frame {spans : List Span} {ps : List ℕ}
    (hframe : ∀ w, cover spans w = 0 → h'.mem w = h.mem w)
    (hplaced : ∀ p ∈ ps, Placed (liveSpan h p))
    (hdis : ∀ x, cover spans x + cover (ps.map (liveSpan h)) x ≤ 1) :
    ∀ p ∈ ps, liveSpan h' p = liveSpan h p ∧
      h'.next (liveSpan h p).start = h.next (liveSpan h p).start := by
  intro p hp
  obtain ⟨h1, h2⟩ := header_frame hframe (List.mem_map_of_mem hp) (hplaced p hp).header hdis
  exact ⟨liveSpan_congr h1, h2⟩

lemma map_live_frame {ps : List ℕ} (hsame : ∀ p ∈ ps, liveSpan h' p = liveSpan h p) :
    ps.map (liveSpan h') = ps.map (liveSpan h) := map_congr_left hsame

lemma liveSpan_start (hb : Placed b) (hm : h.mem b.start = b.size) :
    liveSpan h (add32 b.start sizeofBlock) = b := by
  have hlt : sub32 (add32 b.start sizeofBlock) sizeofBlock = b.start :=
    sub32_add32 hb.start_lt (by norm_num [sizeofBlock])
  simp only [liveSpan, hlt, Heap.size, hm]

lemma placed_join (a b : Span) (h : a.stop = b.start) (ha : Placed a) (hb : Placed b) :
    Placed ⟨a.start, a.size + b.size⟩ := by
  refine ⟨ha.header.trans (Nat.le_add_right _ _), ha.pos, ?_, ha.startAligned,
    Nat.dvd_add ha.sizeAligned hb.sizeAligned⟩
  have := hb.inside
  simp only [Span.stop] at h this ⊢
  omega

lemma takeFit_placed {n : ℕ} {free rest : List Span} (hn : sizeofBlock ≤ n)
    (hn4 : sizeofPointer ∣ n) (hfree : ∀ c ∈ free, Placed c)
    (htake : takeFit n 16 free = some (b, rest)) : Placed b ∧ ∀ d ∈ rest, Placed d := by
  constructor
  · obtain ⟨h1, e, he, h2, h3, h4⟩ := takeFit_span htake
    have hep := hfree e he
    have hin := hep.inside
    simp only at h1 h2 h3 h4
    refine ⟨hn.trans h1, by rw [h2]; exact hep.pos, ?_, by rw [h2]; exact hep.startAligned, ?_⟩
    · simp only [Span.stop] at hin ⊢
      omega
    · rcases h3 with h3 | h3
      · rw [h3]
        exact hn4
      · rw [h3]
        exact hep.sizeAligned
  · intro d hd
    rcases mem_takeFit htake hd with hm | ⟨e, he, h1, h2, h3⟩
    · exact hfree d hm
    · have hep := hfree e he
      have hin := hep.inside
      have hpos := hep.pos
      refine ⟨by rw [h2, sizeofBlock]; omega, by omega, ?_, ?_, ?_⟩
      · simp only [Span.stop] at hin ⊢
        omega
      · rw [h1]
        exact Nat.dvd_add hep.startAligned hn4
      · rw [h2]
        exact Nat.dvd_sub hep.sizeAligned hn4

namespace Invariant
variable {s : System} {free : List Span}

section
variable (inv : Invariant s free)
include inv

lemma placed_liveSpans : ∀ b ∈ s.liveSpans, Placed b := by
  intro b hb
  obtain ⟨p, hp, rfl⟩ := List.mem_map.mp hb
  exact inv.placedLive p hp

lemma once (x : ℕ) : cover free x + cover s.liveSpans x ≤ 1 :=
  (inv.tiled x).trans_le (inv.pagesOnce x)

lemma free_once (x : ℕ) : cover free x ≤ 1 :=
  (Nat.le_add_right _ _).trans (inv.once x)

lemma live_once (x : ℕ) : cover s.liveSpans x ≤ 1 :=
  (Nat.le_add_left _ _).trans (inv.once x)

lemma live_apart_free {p : ℕ} (hp : p ∈ s.live) : ∀ c ∈ free, (liveSpan s.heap p).Apart c := by
  intro c hc
  have h1 := (inv.placedLive p hp).header
  have h2 := (inv.placedFree c hc).header
  simp only [sizeofBlock] at h1 h2
  apply apart_of_covers (by omega) (by omega)
  intro x
  have h3 := covers_le_cover (List.mem_map_of_mem (f := liveSpan s.heap) hp) x
  have h4 := covers_le_cover hc x
  have h5 := inv.once x
  simp only [System.liveSpans] at h5
  omega

lemma length_lt : free.length < walkBound := by
  have hpos : ∀ b ∈ free, 0 < b.size := by
    intro b hb
    have := (inv.placedFree b hb).header
    simp only [sizeofBlock] at this
    omega
  exact (length_le_total hpos).trans_lt (total_lt_word inv.placedFree inv.free_once)

lemma walk : Walk s.heap [] free :=
  ⟨inv.chain.first, by rw [← inv.chain.first]; exact inv.chain, inv.separated, inv.placedFree⟩

lemma kmfree_spec {ptr : ℕ} (hlive : ptr ∈ s.live) (hguard : (liveSpan s.heap ptr).stop = 2 ^ 32 →
      ∀ c ∈ free, c.stop ≠ (liveSpan s.heap ptr).start) : ∃ h', kmfree s.heap ptr = .ok h' ∧
      Invariant ⟨h', s.live.erase ptr⟩ (release (liveSpan s.heap ptr) free) := by
  have hb := inv.placedLive ptr hlive
  have hap := inv.live_apart_free hlive
  have hperm : s.liveSpans.Perm (liveSpan s.heap ptr :: (s.live.erase ptr).map (liveSpan s.heap)) :=
    (perm_cons_erase hlive).map _
  have hcover := fun x => cover_perm hperm x
  have htotal := total_perm hperm
  have hlt := total_lt_word inv.placed_liveSpans inv.live_once
  simp only [cover_cons, total_cons] at hcover htotal
  have hwalk : Walking { s.heap with
      bytesFree := add32 s.heap.bytesFree (liveSpan s.heap ptr).size
      bytesAllocated := sub32 s.heap.bytesAllocated (liveSpan s.heap ptr).size }
      (liveSpan s.heap ptr) [] free :=
    ⟨⟨inv.chain.first, inv.walk.ahead, inv.separated, inv.placedFree⟩, hap, by simp, hb, rfl⟩
  obtain ⟨h', hok, hchain, hrw⟩ := kmfreeLoop_spec hwalk inv.length_lt hguard
  have hsame := live_frame (h := s.heap) hrw.frame
    (fun p hp => inv.placedLive p (mem_of_mem_erase (b := ptr) hp)) (by
      intro x
      have h1 := hcover x
      have h2 := inv.once x
      simp only [nil_append, cover_cons]
      omega)
  have hspans := map_live_frame fun p hp => (hsame p hp).1
  have hsizes : ∀ c ∈ free, 0 < c.size := by
    intro c hc
    have := (inv.placedFree c hc).header
    simp only [sizeofBlock] at this
    omega
  have hbsize : 0 < (liveSpan s.heap ptr).size := by
    have := hb.header
    simp only [sizeofBlock] at this
    omega
  refine ⟨h', ?_, ?_⟩
  · have hun : s.heap.next (sub32 ptr sizeofBlock) = 0 := inv.unlinked ptr hlive
    rw [kmfree, if_neg (not_not.mpr hun), ← hok]
    have hfirst := inv.chain.first
    simp only [lastStart, ← hfirst]
    rfl
  · refine ⟨hchain, release_separated inv.separated hbsize hsizes hap, ?_, ?_, ?_, ?_, ?_, ?_, ?_, ?_⟩
    · exact release_forall placed_join hb inv.placedFree
    · intro p hp
      simp only [(hsame p hp).1]
      exact inv.placedLive p (mem_of_mem_erase hp)
    · intro p hp
      simp only [(hsame p hp).1]
      rw [(hsame p hp).2]
      exact inv.unlinked p (mem_of_mem_erase hp)
    · simp only [hrw.pages]
      exact inv.pagesInside
    · simp only [hrw.pages]
      exact inv.pagesOnce
    · intro x
      have h1 := inv.tiled x
      have h2 := hcover x
      simp only [System.liveSpans, hspans, hrw.pages, cover_release]
      simp only [System.liveSpans] at h1 h2
      omega
    · have h1 : total free + (liveSpan s.heap ptr).size < 2 ^ 32 := by
        have h2 := total_lt_word (forall_mem_cons.mpr ⟨hb, inv.placedFree⟩)
          (by
            intro x
            have h3 := inv.once x
            have h4 := hcover x
            simp only [cover_cons]
            omega)
        simp only [total_cons] at h2
        omega
      simp only [hrw.bytesFree, inv.bytesFree, total_release, add32_of_lt h1]
      omega
    · simp only [hrw.bytesAllocated, inv.bytesAllocated, System.liveSpans, hspans] at htotal hlt ⊢
      rw [sub32_of_le (by omega) hlt]
      omega

lemma take {n : ℕ} {rest : List Span} (hn : sizeofBlock ≤ n)
    (hn4 : sizeofPointer ∣ n) (htake : takeFit n 16 free = some (b, rest))
    (k : Taken s.heap h' b free rest) :
    Invariant ⟨h', add32 b.start sizeofBlock :: s.live⟩ rest := by
  have hb := takeFit_placed hn hn4 inv.placedFree htake
  have hcover := cover_takeFit htake
  have htotal := total_takeFit htake
  simp only at hcover htotal
  have hnew : liveSpan h' (add32 b.start sizeofBlock) = b := liveSpan_start hb.1 k.size
  have hsame := live_frame k.frame inv.placedLive inv.once
  have hspans : s.live.map (liveSpan h') = s.liveSpans :=
    map_live_frame fun p hp => (hsame p hp).1
  refine ⟨k.chain, takeFit_separated htake inv.separated, hb.2, ?_, ?_, ?_, ?_, ?_, ?_, ?_⟩
  · refine forall_mem_cons.mpr ⟨by rw [hnew]; exact hb.1, fun p hp => ?_⟩
    rw [(hsame p hp).1]
    exact inv.placedLive p hp
  · refine forall_mem_cons.mpr ⟨by rw [hnew]; exact k.next, fun p hp => ?_⟩
    rw [(hsame p hp).1, (hsame p hp).2]
    exact inv.unlinked p hp
  · rw [k.pages]
    exact inv.pagesInside
  · rw [k.pages]
    exact inv.pagesOnce
  · intro x
    have h1 := inv.tiled x
    have h2 := hcover x
    simp only [System.liveSpans, map_cons, cover_cons, hnew, hspans, k.pages] at h1 ⊢
    omega
  · have hlt := total_lt_word inv.placedFree inv.free_once
    rw [k.bytesFree, inv.bytesFree, sub32_of_le (by omega) hlt]
    omega
  · have hlt : total (b :: s.liveSpans) < 2 ^ 32 := by
      apply total_lt_word
      · exact forall_mem_cons.mpr ⟨hb.1, inv.placed_liveSpans⟩
      · intro x
        have h1 := inv.once x
        have h2 := hcover x
        simp only [cover_cons]
        omega
    simp only [total_cons] at hlt
    simp only [System.liveSpans, map_cons, total_cons, hnew, hspans]
    rw [k.bytesAllocated, inv.bytesAllocated, add32_of_lt (by omega)]
    exact Nat.add_comm _ _

lemma addPage {r : Span} {new : List ℕ} (hpos : 0 < r.start)
    (hin : r.stop ≤ 2 ^ 32) (hap : ∀ q ∈ s.heap.pages, r.Apart q)
    (hframe : ∀ w, cover [r] w = 0 → h'.mem w = s.heap.mem w)
    (hfree : h'.freeBlocks = s.heap.freeBlocks) (hbytes : h'.bytesFree = s.heap.bytesFree)
    (hpages : h'.pages = r :: s.heap.pages)
    (halloc : h'.bytesAllocated = add32 s.heap.bytesAllocated r.size)
    (hnew : ∀ p ∈ new, Placed (liveSpan h' p) ∧ h'.next (liveSpan h' p).start = 0)
    (hcover : ∀ x, cover (new.map (liveSpan h')) x = r.covers x)
    (htotal : total (new.map (liveSpan h')) = r.size) : Invariant ⟨h', new ++ s.live⟩ free := by
  have hfresh : ∀ x, r.covers x + cover s.heap.pages x ≤ 1 := by
    intro x
    by_contra hne
    have h1 := inv.pagesOnce x
    have h2 := r.covers_le_one x
    have h3 : 0 < r.covers x := by omega
    have h4 : 0 < cover s.heap.pages x := by omega
    obtain ⟨q, hq, hx⟩ := cover_pos_iff.mp h4
    have h5 := Span.covers_pos.mp h3
    have h6 := hap q hq
    simp only [Span.Apart] at h6
    omega
  have hsame := live_frame hframe inv.placedLive (by
    intro x
    have h1 := hfresh x
    have h2 := inv.tiled x
    simp only [System.liveSpans] at h2
    simp only [cover_cons, cover_nil]
    omega)
  have hspans : s.live.map (liveSpan h') = s.liveSpans :=
    map_live_frame fun p hp => (hsame p hp).1
  refine ⟨?_, inv.separated, inv.placedFree, ?_, ?_, ?_, ?_, ?_, ?_, ?_⟩
  · simp only [hfree]
    apply chained_congr inv.chain
    intro c hc
    exact header_frame hframe hc (inv.placedFree c hc).header (by
      intro x
      have h1 := hfresh x
      have h2 := inv.tiled x
      simp only [cover_cons, cover_nil]
      omega)
  · intro p hp
    rcases mem_append.mp hp with hp | hp
    · exact (hnew p hp).1
    · simp only [(hsame p hp).1]
      exact inv.placedLive p hp
  · intro p hp
    rcases mem_append.mp hp with hp | hp
    · exact (hnew p hp).2
    · simp only [(hsame p hp).1]
      rw [(hsame p hp).2]
      exact inv.unlinked p hp
  · simp only [hpages]
    exact forall_mem_cons.mpr ⟨⟨hpos, hin⟩, inv.pagesInside⟩
  · intro x
    simp only [hpages, cover_cons]
    exact hfresh x
  · intro x
    have h1 := inv.tiled x
    simp only [System.liveSpans, map_append, cover_append, hspans, hpages, cover_cons,
      hcover x] at h1 ⊢
    omega
  · simp only [hbytes]
    exact inv.bytesFree
  · have hlt : total s.liveSpans + r.size < 2 ^ 32 := by
      have h1 : total (r :: s.liveSpans) < 2 ^ 32 := by
        refine total_lt (by norm_num) ?_ ?_ ?_
        · exact forall_mem_cons.mpr ⟨hin, fun b hb => (inv.placed_liveSpans b hb).inside⟩
        · intro x
          have h1 := hfresh x
          have h2 := inv.tiled x
          simp only [cover_cons]
          omega
        · by_contra hne
          obtain ⟨b, hb, h1, _⟩ := cover_pos_iff.mp (Nat.pos_of_ne_zero hne)
          rcases mem_cons.mp hb with rfl | hb
          · omega
          · have := (inv.placed_liveSpans b hb).pos
            omega
      simp only [total_cons] at h1
      omega
    simp only [System.liveSpans, map_append, total_append, hspans, htotal]
    rw [halloc, inv.bytesAllocated, add32_of_lt hlt]
    exact Nat.add_comm _ _
end
end Invariant
end Gloworm.Kmalloc
