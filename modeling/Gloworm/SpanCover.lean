import Mathlib

/-! Lists of address spans compared by how often they cover each address, so that splitting and
joining neighbours are equations between covers. -/
namespace Gloworm.SpanCover

structure Span where
  start : ℕ
  size : ℕ
  deriving DecidableEq, Repr

def Span.stop (b : Span) : ℕ := b.start + b.size

def Span.covers (b : Span) (x : ℕ) : ℕ := if b.start ≤ x ∧ x < b.stop then 1 else 0

def Span.Apart (a b : Span) : Prop := a.stop ≤ b.start ∨ b.stop ≤ a.start

variable {b : Span} {bs : List Span} {x n : ℕ}

lemma Span.Apart.symm {a : Span} (h : a.Apart b) : b.Apart a := Or.symm h

instance : Std.Symm Span.Apart := ⟨fun _ _ h => h.symm⟩

def cover (bs : List Span) (x : ℕ) : ℕ := (bs.map (fun b => b.covers x)).sum

def total (bs : List Span) : ℕ := (bs.map Span.size).sum

@[simp] lemma cover_nil (x : ℕ) : cover [] x = 0 := rfl

@[simp] lemma cover_cons (b : Span) (bs : List Span) (x : ℕ) :
    cover (b :: bs) x = b.covers x + cover bs x := by simp [cover]

@[simp] lemma cover_append (bs cs : List Span) (x : ℕ) :
    cover (bs ++ cs) x = cover bs x + cover cs x := by simp [cover]

@[simp] lemma total_nil : total [] = 0 := rfl

@[simp] lemma total_cons (b : Span) (bs : List Span) :
    total (b :: bs) = b.size + total bs := by simp [total]

@[simp] lemma total_append (bs cs : List Span) : total (bs ++ cs) = total bs + total cs := by
  simp [total]

lemma cover_perm {cs : List Span} (h : bs.Perm cs) (x : ℕ) : cover bs x = cover cs x :=
  (h.map _).sum_eq

lemma total_perm {cs : List Span} (h : bs.Perm cs) : total bs = total cs := (h.map _).sum_eq

lemma Span.covers_le_one (b : Span) (x : ℕ) : b.covers x ≤ 1 := by
  unfold Span.covers
  split_ifs <;> omega

lemma Span.covers_eq_one : b.covers x = 1 ↔ b.start ≤ x ∧ x < b.stop := by
  simp [Span.covers]

lemma Span.covers_pos : 0 < b.covers x ↔ b.start ≤ x ∧ x < b.stop := by
  unfold Span.covers
  split_ifs with h <;> simp [h]

lemma covers_split (a s t x : ℕ) :
    (⟨a, s + t⟩ : Span).covers x = (⟨a, s⟩ : Span).covers x + (⟨a + s, t⟩ : Span).covers x := by
  by_cases h : x < a + s
  · have h2 : ¬ a + s ≤ x := by omega
    have h3 : x < a + (s + t) := by omega
    simp [Span.covers, Span.stop, h, h2, h3]
  · have h2 : a + s ≤ x := by omega
    have h3 : a ≤ x := by omega
    simp [Span.covers, Span.stop, h, h2, h3, Nat.add_assoc]

lemma covers_le_cover (hb : b ∈ bs) (x : ℕ) : b.covers x ≤ cover bs x := by
  induction bs with
  | nil => simp at hb
  | cons c bs ih =>
    rw [cover_cons]
    rcases List.mem_cons.mp hb with rfl | hb
    · omega
    · have := ih hb
      omega

lemma cover_pos_iff : 0 < cover bs x ↔ ∃ b ∈ bs, b.start ≤ x ∧ x < b.stop := by
  constructor
  · intro h
    by_contra hn
    push Not at hn
    have hz : cover bs x = 0 := by
      apply List.sum_eq_zero
      intro n hm
      obtain ⟨b, hb, rfl⟩ := List.mem_map.mp hm
      simpa [Span.covers] using hn b hb
    omega
  · rintro ⟨b, hb, hx⟩
    have h1 := Span.covers_eq_one.mpr hx
    have h2 := covers_le_cover hb x
    omega

lemma apart_of_covers {a : Span} (ha : 0 < a.size) (hb : 0 < b.size)
    (h : ∀ x, a.covers x + b.covers x ≤ 1) : a.Apart b := by
  by_contra hn
  simp only [Span.Apart, not_or, not_le, Span.stop] at hn
  have hx := h (max a.start b.start)
  have h1 : a.covers (max a.start b.start) = 1 := by
    simp only [Span.covers_eq_one, Span.stop]
    omega
  have h2 : b.covers (max a.start b.start) = 1 := by
    simp only [Span.covers_eq_one, Span.stop]
    omega
  omega

lemma apart_of_cover_cons {c : Span} (hb : 0 < b.size) (hc : 0 < c.size) (hm : c ∈ bs)
    (h : ∀ x, cover (b :: bs) x ≤ 1) : b.Apart c := by
  apply apart_of_covers hb hc
  intro x
  have h1 := h x
  have h2 := covers_le_cover hm x
  rw [cover_cons] at h1
  omega

lemma pairwise_apart (hpos : ∀ b ∈ bs, 0 < b.size) (h : ∀ x, cover bs x ≤ 1) :
    bs.Pairwise Span.Apart := by
  induction bs with
  | nil => exact List.Pairwise.nil
  | cons b bs ih =>
    refine List.Pairwise.cons ?_ (ih (fun c hc => hpos c (by simp [hc])) ?_)
    · intro c hc
      exact apart_of_cover_cons (hpos b (by simp)) (hpos c (by simp [hc])) hc h
    · intro x
      have := h x
      rw [cover_cons] at this
      omega

lemma sum_covers (h : b.stop ≤ n) : ∑ x ∈ Finset.range n, b.covers x = b.size := by
  have hf : (Finset.range n).filter (fun x => b.start ≤ x ∧ x < b.stop) =
      Finset.Ico b.start b.stop := by
    ext x
    simp only [Finset.mem_filter, Finset.mem_range, Finset.mem_Ico]
    omega
  unfold Span.covers
  rw [← Finset.card_filter, hf, Nat.card_Ico, Span.stop]
  omega

lemma sum_cover (h : ∀ b ∈ bs, b.stop ≤ n) : ∑ x ∈ Finset.range n, cover bs x = total bs := by
  induction bs with
  | nil => simp
  | cons b bs ih =>
    simp only [cover_cons, total_cons, Finset.sum_add_distrib]
    rw [sum_covers (h b (by simp)), ih (fun c hc => h c (by simp [hc]))]

lemma total_lt (hn : 0 < n) (h : ∀ b ∈ bs, b.stop ≤ n) (h1 : ∀ x, cover bs x ≤ 1)
    (h0 : cover bs 0 = 0) : total bs < n := by
  rw [← sum_cover h]
  have hlt : ∑ x ∈ Finset.range n, cover bs x < ∑ _x ∈ Finset.range n, 1 := by
    apply Finset.sum_lt_sum (fun x _ => h1 x)
    exact ⟨0, Finset.mem_range.mpr hn, by omega⟩
  simpa using hlt

lemma length_le_total (h : ∀ b ∈ bs, 0 < b.size) : bs.length ≤ total bs := by
  induction bs with
  | nil => simp
  | cons b bs ih =>
    have h1 := h b (by simp)
    have h2 := ih (fun c hc => h c (by simp [hc]))
    simp only [List.length_cons, total_cons]
    omega

end Gloworm.SpanCover
