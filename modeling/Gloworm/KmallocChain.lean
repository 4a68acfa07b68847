import Gloworm.KmallocModel

/-! The free list as a chain of blocks in memory. -/
namespace Gloworm.Kmalloc
open List Function Word SpanCover CoalescedList

def Chained (m : ℕ → ℕ) (p : ℕ) : List Span → ℕ → Prop
  | [], q => p = q
  | b :: l, q => p = b.start ∧ m b.start = b.size ∧ Chained m (m (b.start + sizeofPointer)) l q

def firstStart : List Span → ℕ
  | [] => 0
  | b :: _ => b.start

def lastStart (l : List Span) : ℕ := ((l.getLast?).map Span.start).getD 0

structure Placed (b : Span) : Prop where
  header : sizeofBlock ≤ b.size
  pos : 0 < b.start
  inside : b.stop ≤ 2 ^ 32
  startAligned : sizeofPointer ∣ b.start
  sizeAligned : sizeofPointer ∣ b.size

def Misses (w : ℕ) (b : Span) : Prop := w ≠ b.start ∧ w ≠ b.start + sizeofPointer

structure Rewritten (spans : List Span) (h h' : Heap) : Prop where
  frame : ∀ w, cover spans w = 0 → h'.mem w = h.mem w
  totalPages : h'.totalPages = h.totalPages
  bytesFree : h'.bytesFree = h.bytesFree
  bytesAllocated : h'.bytesAllocated = h.bytesAllocated
  pages : h'.pages = h.pages

lemma Rewritten.refl (spans : List Span) (h : Heap) : Rewritten spans h h :=
  ⟨fun _ _ => rfl, rfl, rfl, rfl, rfl⟩

lemma Rewritten.trans {spans : List Span} {h h' h'' : Heap} (a : Rewritten spans h h')
    (b : Rewritten spans h' h'') : Rewritten spans h h'' :=
  ⟨fun w hw => (b.frame w hw).trans (a.frame w hw), b.totalPages.trans a.totalPages,
    b.bytesFree.trans a.bytesFree, b.bytesAllocated.trans a.bytesAllocated,
    b.pages.trans a.pages⟩

lemma Rewritten.mono {spans spans' : List Span} {h h' : Heap} (a : Rewritten spans h h')
    (hs : ∀ w, cover spans' w = 0 → cover spans w = 0) : Rewritten spans' h h' :=
  ⟨fun w hw => a.frame w (hs w hw), a.totalPages, a.bytesFree, a.bytesAllocated, a.pages⟩

lemma covers_start {b : Span} (h : sizeofBlock ≤ b.size) : b.covers b.start = 1 := by
  rw [Span.covers_eq_one, Span.stop]
  simp only [sizeofBlock] at h
  omega

lemma covers_next {b : Span} (h : sizeofBlock ≤ b.size) :
    b.covers (b.start + sizeofPointer) = 1 := by
  rw [Span.covers_eq_one, Span.stop]
  simp only [sizeofBlock, sizeofPointer] at h ⊢
  omega

lemma next_setSize_self (h : Heap) (block v : ℕ) : (h.setSize block v).next block = h.next block :=
  update_of_ne (by simp [sizeofPointer]) _ _

section
variable {spans : List Span} {b : Span} (hb : b ∈ spans) (hsize : sizeofBlock ≤ b.size) (h : Heap)
  (v : ℕ)
include hb hsize h

lemma rewritten_setSize : Rewritten spans h (h.setSize b.start v) := by
  refine ⟨fun w hw => ?_, rfl, rfl, rfl, rfl⟩
  apply update_of_ne
  rintro rfl
  have h1 := covers_le_cover hb b.start
  have h2 := covers_start hsize
  omega

lemma rewritten_setNext : Rewritten spans h (h.setNext b.start v) := by
  refine ⟨fun w hw => ?_, rfl, rfl, rfl, rfl⟩
  apply update_of_ne
  rintro rfl
  have h1 := covers_le_cover hb (b.start + sizeofPointer)
  have h2 := covers_next hsize
  omega
end
section
variable {b c : Span} (hap : b.Apart c) (hb : sizeofBlock ≤ b.size) (hc : sizeofBlock ≤ c.size)
include hap hb hc

lemma misses_start : Misses b.start c := by
  simp only [Misses, Span.Apart, Span.stop, sizeofBlock, sizeofPointer] at *
  omega

lemma misses_next : Misses (b.start + sizeofPointer) c := by
  simp only [Misses, Span.Apart, Span.stop, sizeofBlock, sizeofPointer] at *
  omega
end

variable {m : ℕ → ℕ} {p q : ℕ} {l : List Span}

lemma chained_append {l' : List Span} :
    Chained m p (l ++ l') q ↔ ∃ r, Chained m p l r ∧ Chained m r l' q := by
  induction l generalizing p with
  | nil => simp [Chained]
  | cons b l ih =>
    simp only [cons_append, Chained, ih]
    constructor
    · rintro ⟨h1, h2, r, h3, h4⟩
      exact ⟨r, ⟨h1, h2, h3⟩, h4⟩
    · rintro ⟨r, ⟨h1, h2, h3⟩, h4⟩
      exact ⟨h1, h2, r, h3, h4⟩

lemma chained_update {w v : ℕ} (h : Chained m p l q) (hw : ∀ c ∈ l, Misses w c) :
    Chained (update m w v) p l q := by
  induction l generalizing p with
  | nil => exact h
  | cons b l ih =>
    obtain ⟨h1, h2, h3⟩ := h
    have hb := hw b (by simp)
    refine ⟨h1, ?_, ?_⟩
    · rw [update_of_ne (Ne.symm hb.1), h2]
    · rw [update_of_ne (Ne.symm hb.2)]
      exact ih h3 (fun c hc => hw c (by simp [hc]))

lemma chained_congr {m' : ℕ → ℕ} (h : Chained m p l q) (hm : ∀ c ∈ l, m' c.start = m c.start ∧
      m' (c.start + sizeofPointer) = m (c.start + sizeofPointer)) : Chained m' p l q := by
  induction l generalizing p with
  | nil => exact h
  | cons b l ih =>
    obtain ⟨h1, h2, h3⟩ := h
    have hb := hm b (by simp)
    refine ⟨h1, hb.1.trans h2, ?_⟩
    rw [hb.2]
    exact ih h3 (fun c hc => hm c (by simp [hc]))

lemma Chained.first (h : Chained m p l 0) : p = firstStart l := by
  cases l with
  | nil => exact h
  | cons b l => exact h.1

lemma firstStart_cons (b : Span) (l : List Span) : firstStart (b :: l) = b.start := rfl

@[simp] lemma lastStart_append (l : List Span) (b : Span) : lastStart (l ++ [b]) = b.start := by
  simp [lastStart]

lemma lastStart_eq_zero (hpos : ∀ b ∈ l, 0 < b.start) : lastStart l = 0 ↔ l = [] := by
  rcases eq_nil_or_concat l with rfl | ⟨l, b, rfl⟩
  · simp [lastStart]
  · have := hpos b (by simp)
    simp only [concat_eq_append, lastStart_append]
    simp
    omega

lemma chained_setLink {h : Heap} {pre : List Span} {cur v : ℕ}
    (hc : Chained h.mem h.freeBlocks pre cur) (hsep : Separated pre)
    (hplaced : ∀ b ∈ pre, Placed b) :
    Chained (h.setLink (lastStart pre) v).mem (h.setLink (lastStart pre) v).freeBlocks pre v := by
  rcases eq_nil_or_concat pre with rfl | ⟨pre, a, rfl⟩
  · simp [Heap.setLink, lastStart, Chained]
  · simp only [concat_eq_append] at hc hsep hplaced ⊢
    have ha := hplaced a (by simp)
    have hne : a.start ≠ 0 := ha.pos.ne'
    obtain ⟨r, hr, h1, h2, h3⟩ := chained_append.mp hc
    simp only [lastStart_append, Heap.setLink, ne_eq, hne, not_false_eq_true, ↓reduceIte,
      Heap.setNext]
    refine chained_append.mpr ⟨r, chained_update hr ?_, h1, ?_, ?_⟩
    · intro c hm
      have hca : c.stop < a.start := (pairwise_append.mp hsep).2.2 c hm a (by simp)
      exact misses_next (.inr hca.le) ha.header (hplaced c (by simp [hm])).header
    · rw [update_of_ne, h2]
      simp [sizeofPointer]
    · simp [Chained]

lemma rewritten_setLink {spans pre : List Span} (hsub : ∀ b ∈ pre, b ∈ spans)
    (hplaced : ∀ b ∈ pre, Placed b) (h : Heap) (v : ℕ) :
    Rewritten spans h (h.setLink (lastStart pre) v) := by
  rcases eq_nil_or_concat pre with rfl | ⟨pre, a, rfl⟩
  · exact ⟨fun _ _ => rfl, rfl, rfl, rfl, rfl⟩
  · simp only [concat_eq_append] at hsub hplaced ⊢
    have ha := hplaced a (by simp)
    rw [lastStart_append, Heap.setLink, if_pos ha.pos.ne']
    exact rewritten_setNext (hsub a (by simp)) ha.header h v

lemma setLink_mem {h : Heap} {pre : List Span} {v w : ℕ}
    (hplaced : ∀ b ∈ pre, Placed b) (hw : ∀ b ∈ pre, Misses w b) :
    (h.setLink (lastStart pre) v).mem w = h.mem w := by
  rcases eq_nil_or_concat pre with rfl | ⟨pre, a, rfl⟩
  · rfl
  · simp only [concat_eq_append] at hplaced hw ⊢
    have ha := hplaced a (by simp)
    rw [lastStart_append, Heap.setLink, if_pos ha.pos.ne']
    exact update_of_ne (hw a (by simp)).2 _ _

structure Walk (h : Heap) (pre l : List Span) : Prop where
  passed : Chained h.mem h.freeBlocks pre (firstStart l)
  ahead : Chained h.mem (firstStart l) l 0
  separated : Separated (pre ++ l)
  placed : ∀ c ∈ pre ++ l, Placed c

namespace Walk
variable {h : Heap} {c : Span} {pre : List Span}

lemma separated_pre (w : Walk h pre l) : Separated pre :=
  (pairwise_append.mp w.separated).1

lemma separated_ahead (w : Walk h pre l) : Separated l :=
  (pairwise_append.mp w.separated).2.1

lemma placed_pre (w : Walk h pre l) : ∀ c ∈ pre, Placed c :=
  fun c hc => w.placed c (by simp [hc])

lemma chained (w : Walk h pre l) : Chained h.mem h.freeBlocks (pre ++ l) 0 :=
  chained_append.mpr ⟨_, w.passed, w.ahead⟩

variable (w : Walk h pre (c :: l))
include w

lemma next_head : h.next c.start = firstStart l :=
  w.ahead.2.2.first

lemma size_head : h.size c.start = c.size := w.ahead.2.1

lemma pre_lt_head : ∀ d ∈ pre, d.stop < c.start :=
  fun d hd => (pairwise_append.mp w.separated).2.2 d hd c (by simp)

lemma head_apart : ∀ d ∈ pre ++ l, c.Apart d := by
  intro d hd
  rcases mem_append.mp hd with hd | hd
  · exact .inr (w.pre_lt_head d hd).le
  · exact .inl (w.separated_ahead.head_lt hd).le

lemma placed_others : ∀ d ∈ pre ++ l, Placed d := by
  intro d hd
  apply w.placed d
  simp only [mem_append, mem_cons] at hd ⊢
  tauto

lemma step : Walk h (pre ++ [c]) l := by
  refine ⟨?_, ?_, ?_, ?_⟩
  · exact chained_append.mpr ⟨_, w.passed, rfl, w.ahead.2.1, w.next_head⟩
  · rw [← w.next_head]
    exact w.ahead.2.2
  · simpa using w.separated
  · simpa using w.placed
end Walk
end Gloworm.Kmalloc
