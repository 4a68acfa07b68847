import Gloworm.QueueModel

/-! Queues whose ends may be wrong. The links run both ways between nodes of the right kind, and
this survives operations that name the wrong queue. -/
namespace Gloworm.Queue
open Option Function
variable {κ α : Type*} [DecidableEq κ] [DecidableEq α]

structure Tidy (q : Pool κ α) (kind : κ → α → Prop) : Prop where
  both : ∀ x y, q.next x = some y ↔ q.prev y = some x
  link : ∀ x y, q.next x = some y → ∃ k, kind k x ∧ kind k y
  head : ∀ k x, q.head k = some x → kind k x ∧ q.prev x = none
  tail : ∀ k x, q.tail k = some x → kind k x ∧ q.next x = none
  one : ∀ k k' x, kind k x → kind k' x → k = k'

lemma queueRemove_links (q : Pool κ α) (k : κ) (x : α) : (∀ y, (queueRemove q k x).next y =
      if y = x then none else if q.prev x = some y then q.next x else q.next y) ∧
    (∀ y, (queueRemove q k x).prev y =
      if y = x then none else if q.next x = some y then q.prev x else q.prev y) ∧
    (queueRemove q k x).head =
      (if q.prev x = none then update q.head k (q.next x) else q.head) ∧ (queueRemove q k x).tail =
      (if q.next x = none then update q.tail k (q.prev x) else q.tail) := by
  have hself : ∀ n, update q.prev n (q.prev x) x = q.prev x := by
    intro n
    by_cases hn : x = n
    · rw [← hn, update_self]
    · rw [update_of_ne hn]
  cases hn : q.next x with
  | none =>
    cases hp : q.prev x with
    | none => simp [queueRemove, hn, hp, update_apply]
    | some m => simp [queueRemove, hn, hp, update_apply, eq_comm]
  | some n =>
    rw [hn.symm]
    cases hp : q.prev x with
    | none =>
      rw [hp] at hself
      simp [queueRemove, hn, hp, hself, update_apply, eq_comm]
    | some m =>
      rw [hp] at hself
      simp [queueRemove, hn, hp, hself, update_apply, eq_comm]

namespace Tidy
variable {q : Pool κ α} {kind kind' : κ → α → Prop} {k : κ} {x a : α} (h : Tidy q kind)
include h

omit [DecidableEq κ] [DecidableEq α] in
lemma congr (hk : ∀ k x, kind' k x ↔ kind k x) : Tidy q kind' := by
  obtain rfl : kind' = kind := by
    funext k x
    exact propext (hk k x)
  exact h

omit [DecidableEq κ] [DecidableEq α] in
lemma alone (hx : ∀ k, ¬ kind k x) :
    q.next x = none ∧ q.prev x = none ∧ (∀ k, q.head k ≠ some x) ∧ ∀ k, q.tail k ≠ some x := by
  refine ⟨?_, ?_, fun k hk => hx k (h.head k x hk).1, fun k hk => hx k (h.tail k x hk).1⟩
  · cases hn : q.next x with
    | none => rfl
    | some y =>
      obtain ⟨k, hk, -⟩ := h.link x y hn
      exact absurd hk (hx k)
  · cases hp : q.prev x with
    | none => rfl
    | some y =>
      obtain ⟨k, -, hk⟩ := h.link y x ((h.both y x).mpr hp)
      exact absurd hk (hx k)

omit [DecidableEq κ] in
lemma both_remove (x y z : α) :
    (if y = x then none else if q.prev x = some y then q.next x else q.next y) = some z ↔
      (if z = x then none else if q.next x = some z then q.prev x else q.prev z) = some y := by
  have hself : q.next x = some x ↔ q.prev x = some x := h.both x x
  by_cases hyx : y = x
  · subst hyx
    have hyz := h.both y z
    by_cases hzy : z = y
    · simp [hzy]
    · simp only [if_true, hzy, if_false]
      split_ifs with hn
      · simp only [false_iff]
        intro hp
        exact hzy (some.inj (hn.symm.trans (hself.mpr hp)))
      · simp only [false_iff]
        exact fun hp => hn (hyz.mpr hp)
  · by_cases hzx : z = x
    · subst hzx
      have hyz := h.both y z
      simp only [hyx, if_false, if_true, reduceCtorEq, iff_false]
      split_ifs with hp
      · intro hn
        exact hyx (some.inj (hp.symm.trans (hself.mp hn)))
      · exact fun hn => hp (hyz.mp hn)
    · have hyz := h.both y z
      have hyx' := h.both y x
      have hxz := h.both x z
      simp only [hyx, hzx, if_false]
      split_ifs with hp hn hn
      · exact iff_of_true hn hp
      · refine iff_of_false hn fun hpz => hzx ?_
        exact some.inj ((hyz.mpr hpz).symm.trans (hyx'.mpr hp))
      · refine iff_of_false (fun hny => hyx ?_) hp
        exact some.inj ((hyz.mp hny).symm.trans (hxz.mp hn))
      · exact hyz

omit [DecidableEq κ] [DecidableEq α] in
lemma mirror : Tidy ⟨q.prev, q.next, q.tail, q.head⟩ kind := by
  refine ⟨fun x y => (h.both y x).symm, fun x y hxy => ?_, h.tail, h.head, h.one⟩
  obtain ⟨k, hy, hx⟩ := h.link y x ((h.both y x).mpr hxy)
  exact ⟨k, hx, hy⟩

lemma head_remove (hx : ∀ k', kind k' x → k' = k) {k' : κ} {y : α}
    (hy : (if q.prev x = none then update q.head k (q.next x) else q.head) k' = some y) :
    (kind k' y ∧ y ≠ x) ∧
      (if y = x then none else if q.next x = some y then q.prev x else q.prev y) = none := by
  have hold : q.head k' = some y → y ≠ x → (kind k' y ∧ y ≠ x) ∧
      (if y = x then none else if q.next x = some y then q.prev x else q.prev y) = none := by
    intro hy hyx
    obtain ⟨hkind, hfirst⟩ := h.head k' y hy
    have hnot : q.next x ≠ some y := fun hn => by simp [(h.both x y).mp hn] at hfirst
    rw [if_neg hyx, if_neg hnot]
    exact ⟨⟨hkind, hyx⟩, hfirst⟩
  split_ifs at hy with hfirst
  · by_cases hkk : k' = k
    · rw [hkk, update_self] at hy
      obtain ⟨k₁, hk₁, hk₁'⟩ := h.link x y hy
      obtain rfl := hx k₁ hk₁
      have hyx : y ≠ x := by
        rintro rfl
        simp [(h.both y y).mp hy] at hfirst
      rw [if_neg hyx, if_pos hy]
      exact ⟨⟨hkk ▸ hk₁', hyx⟩, hfirst⟩
    · rw [update_of_ne hkk] at hy
      exact hold hy fun hyx => hkk (hx k' (hyx ▸ (h.head k' y hy).1))
  · exact hold hy fun hyx => hfirst (hyx ▸ (h.head k' y hy).2)

lemma remove (hx : ∀ k', kind k' x → k' = k) :
    Tidy (queueRemove q k x) fun k' y => kind k' y ∧ y ≠ x := by
  obtain ⟨hnext, hprev, hhead, htail⟩ := queueRemove_links q k x
  refine ⟨fun y z => ?_, fun y z hyz => ?_, fun k' y hy => ?_, fun k' y hy => ?_,
    fun k₁ k₂ y h₁ h₂ => h.one k₁ k₂ y h₁.1 h₂.1⟩
  · rw [hnext, hprev]
    exact h.both_remove x y z
  · rw [hnext] at hyz
    split_ifs at hyz with hyx hpy
    · obtain ⟨k₁, hk₁, hk₁'⟩ := h.link y x ((h.both y x).mpr hpy)
      obtain ⟨k₂, hk₂, hk₂'⟩ := h.link x z hyz
      obtain rfl := h.one k₁ k₂ x hk₁' hk₂
      refine ⟨k₁, ⟨hk₁, hyx⟩, hk₂', ?_⟩
      rintro rfl
      exact hyx (some.inj (hpy.symm.trans ((h.both z z).mp hyz)))
    · obtain ⟨k₁, hk₁, hk₁'⟩ := h.link y z hyz
      refine ⟨k₁, ⟨hk₁, hyx⟩, hk₁', ?_⟩
      rintro rfl
      exact hpy ((h.both y z).mp hyz)
  · rw [hhead] at hy
    rw [hprev]
    exact h.head_remove hx hy
  · rw [htail] at hy
    rw [hnext]
    exact h.mirror.head_remove hx hy

variable (hx : ∀ k', ¬ kind k' x)
include hx

omit [DecidableEq κ] in
lemma insertBetween {q' : Pool κ α} {before after : Option α}
    (hbefore : ∀ y, before = some y → kind k y ∧ q.next y = after)
    (hafter : ∀ z, after = some z → kind k z ∧ q.prev z = before)
    (hnext : ∀ y, q'.next y = if y = x then after else if before = some y then some x else q.next y)
    (hprev : ∀ z, q'.prev z = if z = x then before else if after = some z then some x else q.prev z)
    (hhead : ∀ k' y, q'.head k' = some y → (kind k' y ∨ (k' = k ∧ y = x)) ∧ q'.prev y = none)
    (htail : ∀ k' y, q'.tail k' = some y → (kind k' y ∨ (k' = k ∧ y = x)) ∧ q'.next y = none) :
    Tidy q' fun k' y => kind k' y ∨ (k' = k ∧ y = x) := by
  obtain ⟨hnx, hpx, -, -⟩ := h.alone hx
  refine ⟨fun y z => ?_, fun y z hyz => ?_, hhead, htail, ?_⟩
  · rw [hnext, hprev]
    have hyz := h.both y z
    by_cases hyx : y = x
    · subst hyx
      rw [if_pos rfl]
      by_cases hzy : z = y
      · subst hzy
        rw [if_pos rfl]
        exact iff_of_false (fun he => hx k (hafter z he).1) fun he => hx k (hbefore z he).1
      · rw [if_neg hzy]
        split_ifs with hn
        · simp [hn]
        · exact iff_of_false hn fun hp => by simp [hyz.mpr hp] at hnx
    · rw [if_neg hyx]
      by_cases hzx : z = x
      · subst hzx
        rw [if_pos rfl]
        split_ifs with hp
        · simp [hp]
        · exact iff_of_false (fun hn => by simp [hyz.mp hn] at hpx) hp
      · rw [if_neg hzx]
        split_ifs with hp hn hn
        · exact iff_of_false (fun he => hzx (some.inj he).symm) fun he => hyx (some.inj he).symm
        · refine iff_of_false (fun he => hzx (some.inj he).symm) fun hpz => hn ?_
          exact (hbefore y hp).2.symm.trans (hyz.mpr hpz)
        · refine iff_of_false (fun hny => hp ?_) fun he => hyx (some.inj he).symm
          exact (hafter z hn).2.symm.trans (hyz.mp hny)
        · exact hyz
  · rw [hnext] at hyz
    split_ifs at hyz with hyx hp
    · exact ⟨k, .inr ⟨rfl, hyx⟩, .inl (hafter z hyz).1⟩
    · exact ⟨k, .inl (hbefore y hp).1, .inr ⟨rfl, (some.inj hyz).symm⟩⟩
    · obtain ⟨k₁, hk₁, hk₁'⟩ := h.link y z hyz
      exact ⟨k₁, .inl hk₁, .inl hk₁'⟩
  · rintro k₁ k₂ y (h₁ | ⟨rfl, rfl⟩) (h₂ | ⟨rfl, h₂⟩)
    · exact h.one k₁ k₂ y h₁ h₂
    · exact absurd (h₂ ▸ h₁) (hx k₁)
    · exact absurd h₂ (hx k₂)
    · rfl

lemma head_insert {before after : Option α}
    (hafter : ∀ z, after = some z → kind k z ∧ q.prev z = before) {k' : κ} {y : α}
    (hy : (if before = none then update q.head k (some x) else q.head) k' = some y) :
    (kind k' y ∨ (k' = k ∧ y = x)) ∧
      (if y = x then before else if after = some y then some x else q.prev y) = none := by
  have hold : q.head k' = some y → after ≠ some y → (kind k' y ∨ (k' = k ∧ y = x)) ∧
      (if y = x then before else if after = some y then some x else q.prev y) = none := by
    intro hy hnot
    have hyx : y ≠ x := fun he => (h.alone hx).2.2.1 k' (he ▸ hy)
    rw [if_neg hyx, if_neg hnot]
    exact ⟨.inl (h.head k' y hy).1, (h.head k' y hy).2⟩
  split_ifs at hy with hnone
  · by_cases hkk : k' = k
    · rw [hkk, update_self, some.injEq] at hy
      rw [if_pos hy.symm]
      exact ⟨.inr ⟨hkk, hy.symm⟩, hnone⟩
    · rw [update_of_ne hkk] at hy
      exact hold hy fun hn => hkk (h.one k' k y (h.head k' y hy).1 (hafter y hn).1)
  · exact hold hy fun hn => hnone ((hafter y hn).2.symm.trans (h.head k' y hy).2)

lemma insertAt {p : Option α} (hp : ∀ a, p = some a → kind k a) :
    Tidy (queueInsertAfter q k x p) fun k' y => kind k' y ∨ (k' = k ∧ y = x) := by
  obtain ⟨n, hn⟩ : ∃ n, p.elim (q.head k) q.next = n := ⟨_, rfl⟩
  obtain ⟨hnext, hprev, hhead, htail⟩ := queueInsertAfter_eq q k hn fun he => hx k (hp x he)
  have hnxt : ∀ y, (queueInsertAfter q k x p).next y =
      if y = x then n else if p = some y then some x else q.next y := by
    intro y
    rw [hnext]
    cases p <;> simp [LinkedSegments.relink, update_apply, eq_comm]
  have hprv : ∀ y, (queueInsertAfter q k x p).prev y =
      if y = x then p else if n = some y then some x else q.prev y := by
    intro y
    rw [hprev]
    cases n <;> simp [LinkedSegments.relink, update_apply, eq_comm]
  have hbefore : ∀ y, p = some y → kind k y ∧ q.next y = n := by
    rintro y rfl
    exact ⟨hp y rfl, hn⟩
  have hafter : ∀ z, n = some z → kind k z ∧ q.prev z = p := by
    intro z hz
    cases p with
    | none => exact h.head k z (hn.trans hz)
    | some a =>
      obtain ⟨k₁, hk₁, hk₁'⟩ := h.link a z (hn.trans hz)
      exact ⟨h.one k₁ k a hk₁ (hp a rfl) ▸ hk₁', (h.both a z).mp (hn.trans hz)⟩
  refine h.insertBetween hx hbefore hafter hnxt hprv (fun k' y hy => ?_) fun k' y hy => ?_
  · rw [hhead] at hy
    rw [hprv]
    exact h.head_insert hx hafter hy
  · rw [htail] at hy
    rw [hnxt]
    exact h.mirror.head_insert hx hbefore hy

lemma insertAfter (ha : kind k a) :
    Tidy (queueInsertAfter q k x (some a)) fun k' y => kind k' y ∨ (k' = k ∧ y = x) :=
  h.insertAt hx (by rintro _ ⟨rfl⟩; exact ha)

lemma insert : Tidy (queueInsert q k x) fun k' y => kind k' y ∨ (k' = k ∧ y = x) := by
  rw [← queueInsertAfter_none]
  exact h.insertAt hx (by simp)
end Tidy
end Gloworm.Queue
