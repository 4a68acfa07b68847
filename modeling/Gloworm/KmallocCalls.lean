import Gloworm.KmallocChain

/-! `kmfree` inserts the block into the free list as the address-ordered joining insertion does.
`kmalloc` takes the first free block that is large enough, and falls back to a fresh page range
whose unused end it releases into the free list. -/
namespace Gloworm.Kmalloc
open List Function Word SpanCover CoalescedList

structure Walking (h : Heap) (b : Span) (pre l : List Span) : Prop extends Walk h pre l where
  apart : ∀ c ∈ pre ++ l, b.Apart c
  below : ∀ c ∈ pre, c.stop ≤ b.start
  block : Placed b
  stored : h.mem b.start = b.size

lemma add32_stop {c : Span} {a : ℕ} (hc : c.stop ≤ 2 ^ 32) (ha : 0 < a) (ha' : a < 2 ^ 32) :
    add32 c.start c.size = a ↔ c.stop = a := by
  rcases hc.lt_or_eq with hlt | heq
  · rw [add32_of_lt hlt, Span.stop]
  · rw [add32_of_eq heq]
    omega

variable {l pre : List Span} {h : Heap}

lemma firstStart_lt (hplaced : ∀ c ∈ l, Placed c) : firstStart l < 2 ^ 32 := by
  cases l with
  | nil => simp [firstStart]
  | cons c l =>
    have hc := hplaced c (by simp)
    have h1 := hc.inside
    have h2 := hc.header
    simp only [Span.stop, sizeofBlock, firstStart] at h1 h2 ⊢
    omega

variable {b : Span}

lemma Placed.start_lt (hb : Placed b) : b.start < 2 ^ 32 := by
  simpa [firstStart] using firstStart_lt (l := [b]) (by simpa using hb)

lemma firstStart_ne (hb : Placed b) (hplaced : ∀ c ∈ l, Placed c)
    (hap : ∀ c ∈ l, b.Apart c) : firstStart l ≠ b.start := by
  cases l with
  | nil => exact hb.pos.ne
  | cons c l =>
    have := misses_start (hap c (by simp)) hb.header (hplaced c (by simp)).header
    exact Ne.symm this.1

lemma chained_setSize {s n v : ℕ} (hc : Chained h.mem h.freeBlocks (pre ++ ⟨s, n⟩ :: l) 0)
    (hmiss : ∀ c ∈ pre ++ l, Misses s c) :
    Chained (h.setSize s v).mem h.freeBlocks (pre ++ ⟨s, v⟩ :: l) 0 := by
  obtain ⟨r, hr, h1, _, h3⟩ := chained_append.mp hc
  refine chained_append.mpr ⟨r, chained_update hr (fun c hm => hmiss c (by simp [hm])), h1, ?_, ?_⟩
  · simp [Heap.setSize]
  · have hne : s + sizeofPointer ≠ s := by simp [sizeofPointer]
    simp only [Heap.setSize, update_of_ne hne]
    exact chained_update h3 (fun c hm => hmiss c (by simp [hm]))

lemma chained_skip {x d : Span} (hc : Chained h.mem h.freeBlocks (pre ++ x :: d :: l) 0)
    (hmiss : ∀ c ∈ pre ++ l, Misses (x.start + sizeofPointer) c) :
    Chained (h.setNext x.start (h.next d.start)).mem h.freeBlocks (pre ++ x :: l) 0 := by
  obtain ⟨r, hr, h1, h2, h3, _, h5⟩ := chained_append.mp hc
  refine chained_append.mpr ⟨r, chained_update hr (fun c hm => hmiss c (by simp [hm])), h1, ?_, ?_⟩
  · have hne : x.start ≠ x.start + sizeofPointer := by simp [sizeofPointer]
    simp only [Heap.setNext, update_of_ne hne, h2]
  · simp only [Heap.setNext, update_self]
    exact chained_update h5 (fun c hm => hmiss c (by simp [hm]))

lemma joinNext_spec {spans : List Span} {x e : Span}
    (hc : Chained h.mem h.freeBlocks (pre ++ x :: l) 0) (hplaced : ∀ c ∈ l, Placed c)
    (hlow : ∀ c ∈ pre, c.stop ≤ x.start) (hpre : ∀ c ∈ pre, Placed c)
    (hhigh : ∀ c ∈ l, x.stop ≤ c.start) (hx : x.stop < 2 ^ 32) (he : e ∈ spans)
    (hsize : sizeofBlock ≤ e.size) (hstart : x.start = e.start) (hpos : 0 < x.start)
    (hxsize : sizeofBlock ≤ x.size) : ∃ h', (if add32 x.start (h.size x.start) = firstStart l then
        Except.ok ((h.setSize x.start (add32 (h.size x.start) (h.size (firstStart l)))).setNext
          x.start ((h.setSize x.start (add32 (h.size x.start) (h.size (firstStart l)))).next
            (firstStart l)))
      else .ok h) = (.ok h' : Except Stop Heap) ∧
      Chained h'.mem h'.freeBlocks (pre ++ absorb x l) 0 ∧ Rewritten spans h h' := by
  have hmisses : ∀ c ∈ pre ++ l, x.Apart c ∧ sizeofBlock ≤ c.size := by
    intro c hm
    rcases mem_append.mp hm with hm | hm
    · exact ⟨.inr (hlow c hm), (hpre c hm).header⟩
    · exact ⟨.inl (hhigh c hm), (hplaced c hm).header⟩
  have hxm : h.size x.start = x.size := by
    obtain ⟨r, _, _, h2, _⟩ := chained_append.mp hc
    exact h2
  have hsum : add32 x.start (h.size x.start) = x.stop := by
    rw [hxm]
    exact add32_of_lt hx
  rw [hsum]
  cases l with
  | nil =>
    have hne : x.stop ≠ firstStart [] := by
      simp only [firstStart, Span.stop, sizeofBlock] at hxsize ⊢
      omega
    exact ⟨h, by rw [if_neg hne], by simpa [absorb] using hc, .refl _ _⟩
  | cons d l =>
    have hd := hplaced d (by simp)
    rw [firstStart_cons, absorb]
    by_cases htouch : x.stop = d.start
    · have hdm : h.size d.start = d.size := by
        obtain ⟨r, _, _, _, h3⟩ := chained_append.mp hc
        exact h3.2.1
      have hadd : add32 x.size d.size = x.size + d.size := by
        have hin := hd.inside
        simp only [Span.stop] at htouch hin
        exact add32_of_lt (by omega)
      rw [if_pos htouch, if_pos htouch, hxm, hdm, hadd]
      refine ⟨_, rfl, ?_, ?_⟩
      · have hsz := chained_setSize (v := x.size + d.size) hc
          (fun c hm => misses_start (hmisses c hm).1 hxsize (hmisses c hm).2)
        refine chained_skip (x := ⟨x.start, x.size + d.size⟩) hsz ?_
        intro c hm
        have hm' : c ∈ pre ++ d :: l := by
          simp only [mem_append, mem_cons] at hm ⊢
          tauto
        exact misses_next (b := x) (hmisses c hm').1 hxsize (hmisses c hm').2
      · rw [hstart]
        exact (rewritten_setSize he hsize h _).trans (rewritten_setNext he hsize _ _)
    · exact ⟨h, by rw [if_neg htouch], by rw [if_neg htouch]; exact hc, .refl _ _⟩

namespace Walking
variable {c : Span}

lemma advance (w : Walking h b pre (c :: l)) (hlt : c.start < b.start) :
    Walking h b (pre ++ [c]) l := by
  refine ⟨w.toWalk.step, ?_, ?_, w.block, w.stored⟩
  · simpa using w.apart
  · intro d hd
    rcases mem_append.mp hd with hd | hd
    · exact w.below d hd
    · have hap := w.apart c (by simp)
      rw [mem_singleton.mp hd]
      simp only [Span.Apart, Span.stop] at hap ⊢
      omega

lemma insert (w : Walking h b pre l) :
    Chained ((h.setLink (lastStart pre) b.start).setNext b.start (firstStart l)).mem
      ((h.setLink (lastStart pre) b.start).setNext b.start (firstStart l)).freeBlocks
      (pre ++ b :: l) 0 := by
  have hstart : ∀ c ∈ pre ++ l, Misses b.start c := fun c hc =>
    misses_start (w.apart c hc) w.block.header (w.placed c hc).header
  have hnext : ∀ c ∈ pre ++ l, Misses (b.start + sizeofPointer) c := fun c hc =>
    misses_next (w.apart c hc) w.block.header (w.placed c hc).header
  have hlink := chained_setLink (v := b.start) w.passed w.separated_pre w.placed_pre
  have hne : b.start ≠ b.start + sizeofPointer := by simp [sizeofPointer]
  simp only [Heap.setNext]
  refine chained_append.mpr ⟨b.start, ?_, rfl, ?_, ?_⟩
  · exact chained_update hlink (fun c hc => hnext c (by simp [hc]))
  · rw [update_of_ne hne, setLink_mem w.placed_pre (fun c hc => hstart c (by simp [hc]))]
    exact w.stored
  · rw [update_self]
    refine chained_update (chained_congr w.ahead ?_) (fun c hc => hnext c (by simp [hc]))
    intro c hc
    have hsep : ∀ d ∈ pre, d.Apart c := fun d hd =>
      .inl ((pairwise_append.mp w.separated).2.2 d hd c hc).le
    have hcp := (w.placed c (by simp [hc])).header
    constructor
    · exact setLink_mem w.placed_pre fun d hd =>
        misses_start (hsep d hd).symm hcp (w.placed_pre d hd).header
    · exact setLink_mem w.placed_pre fun d hd =>
        misses_next (hsep d hd).symm hcp (w.placed_pre d hd).header

lemma insert_rewritten (w : Walking h b pre l) (v : ℕ) :
    Rewritten (b :: (pre ++ l)) h ((h.setLink (lastStart pre) b.start).setNext b.start v) := by
  have h1 : ∀ d ∈ pre, d ∈ b :: (pre ++ l) := fun d hd => by simp [hd]
  exact (rewritten_setLink h1 w.placed_pre h _).trans
    (rewritten_setNext (by simp) w.block.header _ _)

lemma loop_nil (w : Walking h b pre []) (fuel : ℕ) :
    kmfreeLoop b.start (fuel + 1) h (lastStart pre) 0 =
      .ok ((h.setLink (lastStart pre) b.start).setNext b.start 0) := by
  rw [kmfreeLoop, if_pos rfl]
  by_cases hnil : lastStart pre = 0
  · have hpre : pre = [] := (lastStart_eq_zero fun c hc => (w.placed_pre c hc).pos).mp hnil
    subst hpre
    have hfree : h.freeBlocks = 0 := w.passed
    simp [lastStart, Heap.setLink, Heap.setNext, hfree]
  · rcases eq_nil_or_concat pre with rfl | ⟨p, a, rfl⟩
    · simp [lastStart] at hnil
    · have hap := w.apart a (by simp)
      have hne : b.start + sizeofPointer ≠ a.start + sizeofPointer :=
        (misses_next hap w.block.header (w.placed a (by simp)).header).2
      simp only [concat_eq_append, lastStart_append] at hnil ⊢
      simp only [ne_eq, hnil, not_false_eq_true, ↓reduceIte, Heap.setNext, Heap.setLink]
      rw [update_comm hne]

variable (w : Walking h b pre (c :: l))
include w

lemma next_head_ne : h.next c.start ≠ b.start := by
  rw [w.next_head]
  exact firstStart_ne w.block (fun d hd => w.placed d (by simp [hd]))
    (fun d hd => w.apart d (by simp [hd]))

lemma end_head : add32 c.start (h.size c.start) = b.start ↔ c.stop = b.start := by
  rw [w.size_head]
  exact add32_stop (w.placed c (by simp)).inside w.block.pos w.block.start_lt

lemma loop_mergeLeft (htouch : c.stop = b.start) (hguard : b.stop < 2 ^ 32) (fuel : ℕ) :
    ∃ h', kmfreeLoop b.start (fuel + 1) h (lastStart pre) c.start = .ok h' ∧
      Chained h'.mem h'.freeBlocks (pre ++ release b (c :: l)) 0 ∧
      Rewritten (b :: (pre ++ c :: l)) h h' := by
  have hc := w.placed c (by simp)
  have hsum : c.size + b.size < 2 ^ 32 := by
    simp only [Span.stop] at htouch hguard
    omega
  have hstop : (⟨c.start, c.size + b.size⟩ : Span).stop = b.stop := by
    simp only [Span.stop] at htouch ⊢
    omega
  have hmiss : ∀ d ∈ pre ++ l, Misses c.start d := fun d hd =>
    misses_start (w.head_apart d hd) hc.header (w.placed_others d hd).header
  have hgrown := chained_setSize (v := c.size + b.size) w.chained hmiss
  obtain ⟨h', heq, hchain, hrw⟩ := joinNext_spec (h := h.setSize c.start (c.size + b.size))
    (e := c) hgrown
    (fun d hd => w.placed d (by simp [hd])) (fun d hd => (w.pre_lt_head d hd).le) w.placed_pre
    (by
      intro d hd
      have h1 := w.separated_ahead.head_lt hd
      have h2 := w.apart d (by simp [hd])
      rw [hstop]
      have h3 := hc.header
      have h4 := w.block.header
      simp only [Span.Apart, Span.stop] at h1 h2 htouch ⊢
      omega)
    (by rwa [hstop]) (by simp : c ∈ b :: (pre ++ c :: l)) hc.header rfl hc.pos
    (hc.header.trans (Nat.le_add_right _ _))
  have hbs : h.size b.start = b.size := w.stored
  refine ⟨h', ?_, ?_, (rewritten_setSize (by simp) hc.header h _).trans hrw⟩
  · rw [kmfreeLoop, if_neg hc.pos.ne', if_neg w.next_head_ne, if_pos (w.end_head.mpr htouch),
      w.size_head, hbs, add32_of_lt hsum, ← heq]
    simp only [next_setSize_self, w.next_head]
  · rw [release, if_pos htouch]
    exact hchain

lemma loop_insert (hne : c.stop ≠ b.start) (hbc : b.start ≤ c.start) (fuel : ℕ) :
    ∃ h', kmfreeLoop b.start (fuel + 1) h (lastStart pre) c.start = .ok h' ∧
      Chained h'.mem h'.freeBlocks (pre ++ release b (c :: l)) 0 ∧
      Rewritten (b :: (pre ++ c :: l)) h h' := by
  have hc := w.placed c (by simp)
  have hbstop : b.stop ≤ c.start := by
    have hap := w.apart c (by simp)
    have h1 := hc.header
    simp only [Span.Apart, Span.stop, sizeofBlock] at hap h1 ⊢
    omega
  have hins := w.insert
  have hbs : ((h.setLink (lastStart pre) b.start).setNext b.start c.start).size b.start =
      b.size := by
    obtain ⟨_, _, _, h2, _⟩ := chained_append.mp hins
    exact h2
  obtain ⟨h', heq, hchain, hrw⟩ := joinNext_spec
    (h := (h.setLink (lastStart pre) b.start).setNext b.start c.start)
    (e := b) hins (fun d hd => w.placed d (by simp [hd]))
    w.below w.placed_pre
    (by
      intro d hd
      rcases mem_cons.mp hd with rfl | hd
      · exact hbstop
      · have h1 := w.separated_ahead.head_lt hd
        simp only [Span.stop] at h1 hbstop ⊢
        omega)
    (hbstop.trans_lt hc.start_lt) (by simp : b ∈ b :: (pre ++ c :: l)) w.block.header rfl
    w.block.pos w.block.header
  refine ⟨h', ?_, ?_, (w.insert_rewritten _).trans hrw⟩
  · rw [kmfreeLoop, if_neg hc.pos.ne', if_neg w.next_head_ne, if_neg (w.end_head.not.mpr hne),
      if_pos hbc, ← heq]
    rfl
  · rw [release, if_neg hne, if_pos hbc]
    exact hchain
end Walking

variable {fuel : ℕ}

lemma kmfreeLoop_spec (w : Walking h b pre l) (hfuel : l.length < fuel)
    (hguard : b.stop = 2 ^ 32 → ∀ c ∈ l, c.stop ≠ b.start) :
    ∃ h', kmfreeLoop b.start fuel h (lastStart pre) (firstStart l) = .ok h' ∧
      Chained h'.mem h'.freeBlocks (pre ++ release b l) 0 ∧ Rewritten (b :: (pre ++ l)) h h' := by
  induction l generalizing pre fuel with
  | nil =>
    obtain ⟨fuel, rfl⟩ := Nat.exists_eq_add_of_lt hfuel
    exact ⟨_, w.loop_nil _, w.insert, w.insert_rewritten _⟩
  | cons c l ih =>
    obtain _ | fuel := fuel
    · omega
    by_cases htouch : c.stop = b.start
    · have hlt : b.stop < 2 ^ 32 :=
        lt_of_le_of_ne w.block.inside fun h => hguard h c (by simp) htouch
      exact w.loop_mergeLeft htouch hlt fuel
    by_cases hbc : b.start ≤ c.start
    · exact w.loop_insert htouch hbc fuel
    have hc := w.placed c (by simp)
    obtain ⟨h', heq, hchain, hrw⟩ := ih (w.advance (not_le.mp hbc))
      (by simp only [length_cons] at hfuel; omega : l.length < fuel)
      (fun h d hd => hguard h d (by simp [hd]))
    refine ⟨h', ?_, ?_, ?_⟩
    · rw [firstStart_cons, kmfreeLoop, if_neg hc.pos.ne', if_neg w.next_head_ne,
        if_neg (w.end_head.not.mpr htouch), if_neg hbc, w.next_head, ← heq, lastStart_append]
    · rw [release, if_neg htouch, if_neg hbc]
      simpa using hchain
    · simpa using hrw

variable {c : Span} {n : ℕ}

lemma cover_singleton_of_apart {d : Span} {w : ℕ} (hap : c.Apart d) (hd : d.covers w = 1) :
    cover [c] w = 0 := by
  by_contra hne
  obtain ⟨e, he, h1⟩ := cover_pos_iff.mp (Nat.pos_of_ne_zero hne)
  rw [mem_singleton.mp he] at h1
  rw [Span.covers_eq_one] at hd
  simp only [Span.Apart] at hap
  omega

lemma chained_rewritten {h' : Heap} {p q : ℕ} (hrw : Rewritten [c] h h')
    (hchain : Chained h.mem p l q) (hap : ∀ d ∈ l, c.Apart d) (hplaced : ∀ d ∈ l, Placed d) :
    Chained h'.mem p l q := by
  apply chained_congr hchain
  intro d hd
  have hs := (hplaced d hd).header
  exact ⟨hrw.frame _ (cover_singleton_of_apart (hap d hd) (covers_start hs)),
    hrw.frame _ (cover_singleton_of_apart (hap d hd) (covers_next hs))⟩

structure Carved (h h' : Heap) (c s : Span) (cut : List Span) (link : ℕ) : Prop where
  freeBlocks : h'.freeBlocks = h.freeBlocks
  rewritten : Rewritten [c] h h'
  start : s.start = c.start
  size : h'.mem c.start = s.size
  next : h'.mem (c.start + sizeofPointer) = 0
  chain : Chained h'.mem link cut (h.next c.start)
  inside : ∀ d ∈ cut, Placed d ∧ c.start ≤ d.start ∧ d.stop ≤ c.stop
  whole : sizeofBlock ≤ s.size

lemma splitBlock_spec (hc : Placed c) (hn : sizeofBlock ≤ n) (hn4 : sizeofPointer ∣ n)
    (hlarge : n + 16 < 2 ^ 32) (hfit : n ≤ c.size) (hsize : h.size c.start = c.size) :
    ∃ s cut, (∀ l, takeFit n 16 (c :: l) = some (s, cut ++ l)) ∧
      Carved h ((splitBlock h c.start n).2.setNext c.start 0) c s cut
        (splitBlock h c.start n).1 := by
  have hin := hc.inside
  simp only [Span.stop] at hin
  have hadd : add32 (add32 n sizeofBlock) 8 = n + 16 := by
    rw [add32_of_lt (a := n) (by simp only [sizeofBlock]; omega)]
    rw [add32_of_lt (by simp only [sizeofBlock]; omega)]
    rfl
  by_cases hsplit : n + 16 ≤ c.size
  · have hlink : add32 c.start n = c.start + n := add32_of_lt (by omega)
    have hrest : sub32 c.size n = c.size - n := sub32_of_le hfit (by have := hc.pos; omega)
    refine ⟨⟨c.start, n⟩, [⟨c.start + n, c.size - n⟩], fun l => ?_, ?_⟩
    · rw [takeFit, if_pos hfit, if_pos hsplit]
      rfl
    · have hs : splitBlock h c.start n = (c.start + n,
          ((h.setSize (c.start + n) (c.size - n)).setSize c.start n).setNext (c.start + n)
            (h.next c.start)) := by
        rw [splitBlock, hsize, hadd, if_pos hsplit, hlink, hrest]
        have h1 : ((h.setSize (c.start + n) (c.size - n)).setSize c.start n).next c.start =
            h.next c.start := by
          rw [next_setSize_self]
          apply update_of_ne
          simp only [sizeofBlock, sizeofPointer] at hn ⊢
          omega
        simp only [h1]
      rw [hs]
      simp only [sizeofBlock] at hn
      refine ⟨rfl, ⟨?_, rfl, rfl, rfl, rfl⟩, rfl, ?_, ?_, ⟨rfl, ?_, ?_⟩, ?_, hn⟩
      · intro w hw
        have hout : ¬ (c.start ≤ w ∧ w < c.start + c.size) := by
          intro hin'
          have hpos : 0 < cover [c] w := cover_pos_iff.mpr ⟨c, by simp, hin'⟩
          omega
        simp only [Heap.setNext, Heap.setSize, sizeofPointer]
        rw [update_of_ne (by omega), update_of_ne (by omega),
          update_of_ne (by omega), update_of_ne (by omega)]
      · simp only [Heap.setNext, Heap.setSize, sizeofPointer]
        rw [update_of_ne (by omega), update_of_ne (by omega), update_self]
      · simp [Heap.setNext]
      · simp only [Heap.setNext, Heap.setSize, sizeofPointer]
        rw [update_of_ne (by omega), update_of_ne (by omega), update_of_ne (by omega), update_self]
      · simp only [Heap.setNext, Heap.setSize, sizeofPointer, Chained]
        rw [update_of_ne (by omega), update_self]
      · intro d hd
        rw [mem_singleton.mp hd]
        have hdvd := Nat.dvd_add hc.startAligned hn4
        have hdvd' := Nat.dvd_sub hc.sizeAligned hn4
        refine ⟨⟨?_, ?_, ?_, hdvd, hdvd'⟩, ?_, ?_⟩
        all_goals simp only [Span.stop, sizeofBlock]; omega
  · refine ⟨c, [], fun l => ?_, ?_⟩
    · rw [takeFit, if_pos hfit, if_neg hsplit]
      rfl
    · have hs : splitBlock h c.start n = (h.next c.start, h) := by
        rw [splitBlock, hsize, hadd, if_neg hsplit]
      rw [hs]
      refine ⟨rfl, rewritten_setNext (by simp) hc.header h 0, rfl, ?_, ?_, rfl, by simp, hc.header⟩
      · have hne : c.start ≠ c.start + sizeofPointer := by simp [sizeofPointer]
        exact (update_of_ne hne _ _).trans hsize
      · simp [Heap.setNext]

structure Taken (h h' : Heap) (s : Span) (spans free : List Span) : Prop where
  chain : Chained h'.mem h'.freeBlocks free 0
  size : h'.mem s.start = s.size
  next : h'.mem (s.start + sizeofPointer) = 0
  frame : ∀ w, cover spans w = 0 → h'.mem w = h.mem w
  totalPages : h'.totalPages = h.totalPages
  bytesFree : h'.bytesFree = sub32 h.bytesFree s.size
  bytesAllocated : h'.bytesAllocated = add32 h.bytesAllocated s.size
  pages : h'.pages = h.pages

lemma Carved.relink {h' : Heap} {s : Span} {cut : List Span} {link : ℕ}
    (k : Carved h h' c s cut link) (w : Walk h pre (c :: l)) :
    Chained (h'.setLink (lastStart pre) link).mem (h'.setLink (lastStart pre) link).freeBlocks
      (pre ++ (cut ++ l)) 0 := by
  have hap := w.head_apart
  have hplaced := w.placed_others
  have hpassed : Chained h'.mem h'.freeBlocks pre (firstStart (c :: l)) := by
    rw [k.freeBlocks]
    exact chained_rewritten k.rewritten w.passed (fun d hd => hap d (by simp [hd])) w.placed_pre
  have hrest : Chained h'.mem link (cut ++ l) 0 := by
    refine chained_append.mpr ⟨_, k.chain, ?_⟩
    exact chained_rewritten k.rewritten w.ahead.2.2 (fun d hd => hap d (by simp [hd]))
      (fun d hd => hplaced d (by simp [hd]))
  refine chained_append.mpr ⟨link, chained_setLink hpassed w.separated_pre w.placed_pre, ?_⟩
  apply chained_congr hrest
  have hfar : ∀ d ∈ cut ++ l, sizeofBlock ≤ d.size ∧ ∀ e ∈ pre, d.Apart e := by
    intro d hd
    rcases mem_append.mp hd with hd | hd
    · obtain ⟨h1, h2, _⟩ := k.inside d hd
      exact ⟨h1.header, fun e he => .inr ((w.pre_lt_head e he).le.trans h2)⟩
    · refine ⟨(hplaced d (by simp [hd])).header, fun e he => .inr ?_⟩
      exact ((pairwise_append.mp w.separated).2.2 e he d (by simp [hd])).le
  intro d hd
  obtain ⟨h1, h2⟩ := hfar d hd
  exact ⟨setLink_mem w.placed_pre fun e he => misses_start (h2 e he) h1 (w.placed_pre e he).header,
    setLink_mem w.placed_pre fun e he => misses_next (h2 e he) h1 (w.placed_pre e he).header⟩

def takeBlock (h : Heap) (n prev cur : ℕ) : Heap :=
  ((splitBlock h cur n).2.setNext cur 0).setLink prev (splitBlock h cur n).1

lemma kmallocLoop_fit {prev cur : ℕ} (hcur : cur ≠ 0) (hfit : n ≤ h.size cur) :
    kmallocLoop n (fuel + 1) h prev cur = .ok (some (add32 cur sizeofBlock,
      { takeBlock h n prev cur with
        bytesFree := sub32 (takeBlock h n prev cur).bytesFree ((takeBlock h n prev cur).size cur)
        bytesAllocated := add32 (takeBlock h n prev cur).bytesAllocated
          ((takeBlock h n prev cur).size cur) })) := by
  rw [kmallocLoop, if_neg hcur, if_pos hfit]
  rfl

lemma kmallocLoop_spec (w : Walk h pre l) (hfuel : l.length < fuel)
    (hn : sizeofBlock ≤ n) (hn4 : sizeofPointer ∣ n) (hlarge : n + 16 < 2 ^ 32) :
    match takeFit n 16 l with
    | none => kmallocLoop n fuel h (lastStart pre) (firstStart l) = .ok none
    | some (s, free) => ∃ h', kmallocLoop n fuel h (lastStart pre) (firstStart l) =
        .ok (some (add32 s.start sizeofBlock, h')) ∧ Taken h h' s (pre ++ l) (pre ++ free) := by
  induction l generalizing pre fuel with
  | nil =>
    obtain _ | fuel := fuel
    · omega
    simp [takeFit, firstStart, kmallocLoop]
  | cons c l ih =>
    obtain _ | fuel := fuel
    · omega
    have hc := w.placed c (by simp)
    by_cases hfit : n ≤ c.size
    · obtain ⟨s, cut, htake, k⟩ := splitBlock_spec hc hn hn4 hlarge hfit w.size_head
      have hmiss : ∀ d ∈ pre, c.Apart d := fun d hd => w.head_apart d (by simp [hd])
      rw [htake l]
      have hsz : (takeBlock h n (lastStart pre) c.start).size c.start = s.size := by
        rw [Heap.size, takeBlock, setLink_mem w.placed_pre fun e he =>
          misses_start (hmiss e he) hc.header (w.placed_pre e he).header]
        exact k.size
      have hcarve : Rewritten (pre ++ c :: l) h ((splitBlock h c.start n).2.setNext c.start 0) := by
        apply k.rewritten.mono
        intro x hx
        simp only [cover_append, cover_cons, cover_nil] at hx ⊢
        omega
      have hsub : ∀ d ∈ pre, d ∈ pre ++ c :: l := fun d hd => by simp [hd]
      have hrw := hcarve.trans (rewritten_setLink hsub w.placed_pre _ (splitBlock h c.start n).1)
      have hfit' : n ≤ h.size c.start := hfit.trans_eq w.size_head.symm
      rw [firstStart_cons, kmallocLoop_fit hc.pos.ne' hfit', ← k.start]
      refine ⟨_, rfl, ?_⟩
      rw [k.start]
      refine ⟨k.relink w, ?_, ?_, hrw.frame, hrw.totalPages, ?_, ?_, hrw.pages⟩
      · rw [k.start]
        exact hsz
      · rw [k.start]
        exact (setLink_mem w.placed_pre fun e he =>
          misses_next (hmiss e he) hc.header (w.placed_pre e he).header).trans k.next
      · simp only [hsz]
        exact congrArg (sub32 · s.size) hrw.bytesFree
      · simp only [hsz]
        exact congrArg (add32 · s.size) hrw.bytesAllocated
    · have hloop : kmallocLoop n (fuel + 1) h (lastStart pre) (firstStart (c :: l)) =
          kmallocLoop n fuel h (lastStart (pre ++ [c])) (firstStart l) := by
        rw [firstStart_cons, kmallocLoop, if_neg hc.pos.ne', w.size_head, if_neg hfit,
          w.next_head, lastStart_append]
      have hrec := ih w.step (by simp only [length_cons] at hfuel; omega : l.length < fuel)
      rw [takeFit, if_neg hfit, hloop]
      cases htake : takeFit n 16 l with
      | none => simpa [htake] using hrec
      | some p => simpa [htake] using hrec

end Gloworm.Kmalloc
