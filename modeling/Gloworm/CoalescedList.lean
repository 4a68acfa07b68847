import Gloworm.SpanCover

/-! Address-ordered lists of spans that are kept fully joined; taking space uses the first span that
is large enough. -/
namespace Gloworm.CoalescedList
open SpanCover List Option

def Separated (l : List Span) : Prop := l.Pairwise (fun a b => a.stop < b.start)

def absorb (c : Span) : List Span → List Span
  | [] => [c]
  | d :: rest => if c.stop = d.start then ⟨c.start, c.size + d.size⟩ :: rest else c :: d :: rest

def release (b : Span) : List Span → List Span
  | [] => [b]
  | c :: rest =>
    if c.stop = b.start then absorb ⟨c.start, c.size + b.size⟩ rest
    else if b.start ≤ c.start then absorb b (c :: rest)
    else c :: release b rest

def takeFit (n slack : ℕ) : List Span → Option (Span × List Span)
  | [] => none
  | c :: rest =>
    if n ≤ c.size then
      if n + slack ≤ c.size then some (⟨c.start, n⟩, ⟨c.start + n, c.size - n⟩ :: rest)
      else some (c, rest)
    else (takeFit n slack rest).map fun p => (p.1, c :: p.2)

variable {b c d : Span} {l : List Span}

lemma covers_join {a : Span} (h : a.stop = b.start) (x : ℕ) :
    (⟨a.start, a.size + b.size⟩ : Span).covers x = a.covers x + b.covers x := by
  rw [covers_split]
  congr 2
  rw [← Span.stop, h]

lemma cover_absorb (c : Span) (l : List Span) (x : ℕ) :
    cover (absorb c l) x = c.covers x + cover l x := by
  cases l with
  | nil => simp [absorb]
  | cons d rest =>
    rw [absorb]
    split_ifs with h
    · simp only [cover_cons, covers_join h x]
      omega
    · simp only [cover_cons]

lemma cover_release (b : Span) (l : List Span) (x : ℕ) :
    cover (release b l) x = b.covers x + cover l x := by
  induction l with
  | nil => simp [release]
  | cons c rest ih =>
    rw [release]
    split_ifs with h1 h2
    · simp only [cover_absorb, cover_cons, covers_join h1 x]
      omega
    · exact cover_absorb b _ x
    · simp only [cover_cons, ih]
      omega

lemma total_absorb (c : Span) (l : List Span) : total (absorb c l) = c.size + total l := by
  cases l with
  | nil => simp [absorb]
  | cons d rest =>
    rw [absorb]
    split_ifs
    · simp only [total_cons]
      omega
    · simp only [total_cons]

lemma total_release (b : Span) (l : List Span) : total (release b l) = b.size + total l := by
  induction l with
  | nil => simp [release]
  | cons c rest ih =>
    rw [release]
    split_ifs with h1 h2
    · simp only [total_absorb, total_cons]
      omega
    · exact total_absorb b _
    · simp only [total_cons, ih]
      omega

lemma mem_absorb (h : d ∈ absorb c l) : d ∈ l ∨ (d.start = c.start ∧ c.size ≤ d.size) := by
  cases l with
  | nil =>
    simp only [absorb, mem_singleton] at h
    subst h
    exact .inr ⟨rfl, le_rfl⟩
  | cons e rest =>
    rw [absorb] at h
    split_ifs at h
    · rcases mem_cons.mp h with rfl | h
      · exact .inr ⟨rfl, Nat.le_add_right _ _⟩
      · exact .inl (by simp [h])
    · rcases mem_cons.mp h with rfl | h
      · exact .inr ⟨rfl, le_rfl⟩
      · exact .inl h

lemma mem_release (h : d ∈ release b l) : ∃ e ∈ b :: l, d.start = e.start ∧ e.size ≤ d.size := by
  induction l with
  | nil =>
    simp only [release, mem_singleton] at h
    exact ⟨b, by simp, by rw [h], by rw [h]⟩
  | cons c rest ih =>
    rw [release] at h
    split_ifs at h with h1 h2
    · rcases mem_absorb h with h | ⟨h, hs⟩
      · exact ⟨d, by simp [h], rfl, le_rfl⟩
      · exact ⟨c, by simp, h, (Nat.le_add_right _ _).trans hs⟩
    · rcases mem_absorb h with h | h
      · exact ⟨d, by simp only [mem_cons] at h ⊢; tauto, rfl, le_rfl⟩
      · exact ⟨b, by simp, h⟩
    · rcases mem_cons.mp h with rfl | h
      · exact ⟨d, by simp, rfl, le_rfl⟩
      · obtain ⟨e, he, h4⟩ := ih h
        refine ⟨e, ?_, h4⟩
        simp only [mem_cons] at he ⊢
        tauto

lemma release_forall {P : Span → Prop}
    (hjoin : ∀ a b : Span, a.stop = b.start → P a → P b → P ⟨a.start, a.size + b.size⟩) (hb : P b)
    (hl : ∀ c ∈ l, P c) : ∀ d ∈ release b l, P d := by
  have habsorb : ∀ (c : Span) (l : List Span), P c → (∀ d ∈ l, P d) → ∀ d ∈ absorb c l, P d := by
    intro c l hc hl
    cases l with
    | nil => simpa [absorb] using hc
    | cons d rest =>
      rw [absorb]
      split_ifs with h
      · exact forall_mem_cons.mpr
          ⟨hjoin c d h hc (hl d (by simp)), fun e he => hl e (by simp [he])⟩
      · exact forall_mem_cons.mpr ⟨hc, hl⟩
  induction l with
  | nil => simpa [release] using hb
  | cons c rest ih =>
    have hrest : ∀ d ∈ rest, P d := fun d hd => hl d (by simp [hd])
    rw [release]
    split_ifs with h1 h2
    · exact habsorb _ _ (hjoin c b h1 (hl c (by simp)) hb) hrest
    · exact habsorb _ _ hb hl
    · exact forall_mem_cons.mpr ⟨hl c (by simp), ih hrest⟩

lemma Separated.tail (h : Separated (c :: l)) : Separated l :=
  (pairwise_cons.mp h).2

lemma Separated.head_lt (h : Separated (c :: l)) (hd : d ∈ l) :
    c.stop < d.start := (pairwise_cons.mp h).1 d hd

lemma absorb_separated (hl : Separated l) (h : ∀ d ∈ l, c.stop ≤ d.start)
    (hpos : ∀ d ∈ l, 0 < d.size) : Separated (absorb c l) := by
  cases l with
  | nil => simp [absorb, Separated]
  | cons d rest =>
    have hd := h d (by simp)
    have hdpos := hpos d (by simp)
    rw [absorb]
    split_ifs with h1
    · refine List.Pairwise.cons ?_ hl.tail
      intro e he
      have h2 := hl.head_lt he
      simp only [Span.stop] at h1 h2 ⊢
      omega
    · refine List.Pairwise.cons ?_ hl
      intro e he
      rcases mem_cons.mp he with rfl | he
      · omega
      · have h2 := hl.head_lt he
        simp only [Span.stop] at hd h2 ⊢
        omega

lemma release_separated (hl : Separated l) (hb : 0 < b.size) (hpos : ∀ c ∈ l, 0 < c.size)
    (hap : ∀ c ∈ l, b.Apart c) : Separated (release b l) := by
  induction l with
  | nil => simp [release, Separated]
  | cons c rest ih =>
    have hc := hpos c (by simp)
    have hcap := hap c (by simp)
    rw [release]
    split_ifs with h1 h2
    · apply absorb_separated hl.tail
      · intro d hd
        have h5 := hl.head_lt hd
        have h6 := hap d (by simp [hd])
        simp only [Span.Apart, Span.stop] at h1 h5 h6 ⊢
        omega
      · exact fun d hd => hpos d (by simp [hd])
    · apply absorb_separated hl _ hpos
      intro d hd
      have hbc : b.stop ≤ c.start := by
        simp only [Span.Apart, Span.stop] at hcap ⊢
        omega
      rcases mem_cons.mp hd with rfl | hd
      · exact hbc
      · have h5 := hl.head_lt hd
        simp only [Span.stop] at hbc h5 ⊢
        omega
    · have hcb : c.stop < b.start := by
        simp only [Span.Apart, Span.stop] at h1 hcap ⊢
        omega
      refine List.Pairwise.cons ?_
        (ih hl.tail (fun d hd => hpos d (by simp [hd])) (fun d hd => hap d (by simp [hd])))
      intro e he
      obtain ⟨d, hd, hds, _⟩ := mem_release he
      rcases mem_cons.mp hd with rfl | hd
      · omega
      · have h5 := hl.head_lt hd
        omega

section
variable {n slack : ℕ} {p : Span × List Span} (h : takeFit n slack l = some p)
include h

lemma takeFit_split : ∃ l₁ c l₂, l = l₁ ++ c :: l₂ ∧ n ≤ c.size ∧
    (n + slack ≤ c.size ∧ p = (⟨c.start, n⟩, l₁ ++ ⟨c.start + n, c.size - n⟩ :: l₂) ∨
      p = (c, l₁ ++ l₂)) := by
  induction l generalizing p with
  | nil => simp [takeFit] at h
  | cons c rest ih =>
    rw [takeFit] at h
    split_ifs at h with h1 h2
    · exact ⟨[], c, rest, rfl, h1, .inl ⟨h2, (some.inj h).symm⟩⟩
    · exact ⟨[], c, rest, rfl, h1, .inr (some.inj h).symm⟩
    · obtain ⟨q, hq, rfl⟩ := map_eq_some_iff.mp h
      obtain ⟨l₁, d, l₂, rfl, hfit, ⟨hslack, rfl⟩ | rfl⟩ := ih hq
      · exact ⟨c :: l₁, d, l₂, rfl, hfit, .inl ⟨hslack, rfl⟩⟩
      · exact ⟨c :: l₁, d, l₂, rfl, hfit, .inr rfl⟩

lemma cover_takeFit (x : ℕ) : p.1.covers x + cover p.2 x = cover l x := by
  obtain ⟨l₁, c, l₂, rfl, hfit, ⟨-, rfl⟩ | rfl⟩ := takeFit_split h
  · have hs := covers_split c.start n (c.size - n) x
    rw [Nat.add_sub_cancel' hfit] at hs
    have hc : c.covers x = (⟨c.start, c.size⟩ : Span).covers x := rfl
    simp only [cover_append, cover_cons, hc, hs]
    omega
  · simp only [cover_append, cover_cons]
    omega

lemma total_takeFit : p.1.size + total p.2 = total l := by
  obtain ⟨l₁, c, l₂, rfl, hfit, ⟨-, rfl⟩ | rfl⟩ := takeFit_split h
  · simp only [total_append, total_cons]
    omega
  · simp only [total_append, total_cons]
    omega

lemma mem_takeFit (hd : d ∈ p.2) :
    d ∈ l ∨ ∃ e ∈ l, d.start = e.start + n ∧ d.size = e.size - n ∧ n + slack ≤ e.size := by
  obtain ⟨l₁, c, l₂, rfl, -, ⟨hslack, rfl⟩ | rfl⟩ := takeFit_split h
  · rcases mem_append.mp hd with hd | hd
    · exact .inl (by simp [hd])
    · rcases mem_cons.mp hd with rfl | hd
      · exact .inr ⟨c, by simp, rfl, rfl, hslack⟩
      · exact .inl (by simp [hd])
  · exact .inl (by rcases mem_append.mp hd with hd | hd <;> simp [hd])

lemma takeFit_span :
    n ≤ p.1.size ∧ ∃ e ∈ l, p.1.start = e.start ∧ (p.1.size = n ∨ p.1.size = e.size) ∧
      p.1.size ≤ e.size := by
  obtain ⟨l₁, c, l₂, rfl, hfit, ⟨-, rfl⟩ | rfl⟩ := takeFit_split h
  · exact ⟨le_rfl, c, by simp, rfl, .inl rfl, hfit⟩
  · exact ⟨hfit, c, by simp, rfl, .inr rfl, le_rfl⟩

lemma takeFit_separated (hl : Separated l) : Separated p.2 := by
  obtain ⟨l₁, c, l₂, rfl, hfit, ⟨-, rfl⟩ | rfl⟩ := takeFit_split h
  · obtain ⟨h₁, h₂, hbetween⟩ := pairwise_append.mp hl
    refine pairwise_append.mpr ⟨h₁, .cons (fun e he => ?_) h₂.tail, fun a ha e he => ?_⟩
    · have hlt := Separated.head_lt h₂ he
      simp only [Span.stop] at hlt ⊢
      omega
    · rcases mem_cons.mp he with rfl | he
      · exact (hbetween a ha c mem_cons_self).trans_le (Nat.le_add_right ..)
      · exact hbetween a ha e (mem_cons_of_mem _ he)
  · exact hl.sublist ((sublist_cons_self c l₂).append_left l₁)
end
end Gloworm.CoalescedList
