import Gloworm.LinkedSegments

/-! The intrusive queues of `queue.h`. All nodes live in one pool of links; a queue
is a pair of ends. Each operation is related to the list of nodes it leaves. -/
namespace Gloworm.Queue
open List Function LinkedSegments

structure Pool (κ α : Type*) where
  next : α → Option α
  prev : α → Option α
  head : κ → Option α
  tail : κ → Option α

variable {κ α : Type*} [DecidableEq κ] [DecidableEq α]

def queueInit : Pool κ α := ⟨fun _ => none, fun _ => none, fun _ => none, fun _ => none⟩

def queueInsert (q : Pool κ α) (k : κ) (node : α) : Pool κ α :=
  let q := match q.head k with
    | some first => { q with prev := update q.prev first (some node) }
    | none => { q with tail := update q.tail k (some node) }
  { q with
    next := update q.next node (q.head k)
    prev := update q.prev node none
    head := update q.head k (some node) }

def queueInsertAfter (q : Pool κ α) (k : κ) (node : α) (after : Option α) : Pool κ α :=
  let tail := match after with
    | some a => q.next a
    | none => q.head k
  let q := match tail with
    | some t => { q with prev := update q.prev t (some node) }
    | none => { q with tail := update q.tail k (some node) }
  let q := { q with next := update q.next node tail }
  let q := match after with
    | some a => { q with next := update q.next a (some node) }
    | none => { q with head := update q.head k (some node) }
  { q with prev := update q.prev node after }

def queueRemove (q : Pool κ α) (k : κ) (node : α) : Pool κ α :=
  let q := match q.next node with
    | some n => { q with prev := update q.prev n (q.prev node) }
    | none => { q with tail := update q.tail k (q.prev node) }
  let q := match q.prev node with
    | some p => { q with next := update q.next p (q.next node) }
    | none => { q with head := update q.head k (q.next node) }
  { q with
    next := update q.next node none
    prev := update q.prev node none }

lemma queueRemove_eq {q : Pool κ α} (k : κ) {x : α} {p n : Option α} (hp : q.prev x = p)
    (hn : q.next x = n) (hself : n ≠ some x) :
    (queueRemove q k x).next = update (relink q.next p n) x none ∧
    (queueRemove q k x).prev = update (relink q.prev n p) x none ∧
    (queueRemove q k x).head = (if p = none then update q.head k n else q.head) ∧
    (queueRemove q k x).tail = (if n = none then update q.tail k p else q.tail) := by
  cases n with
  | none => cases p <;> simp [queueRemove, hp, hn, relink]
  | some m =>
    have hne : x ≠ m := fun he => hself (by rw [he])
    cases p <;> simp [queueRemove, hp, hn, relink, update_of_ne hne]

lemma queueInsertAfter_eq (q : Pool κ α) (k : κ) {x : α} {p n : Option α}
    (hn : p.elim (q.head k) q.next = n) (hself : p ≠ some x) :
    (queueInsertAfter q k x p).next = update (relink q.next p (some x)) x n ∧
    (queueInsertAfter q k x p).prev = update (relink q.prev n (some x)) x p ∧
    (queueInsertAfter q k x p).head = (if p = none then update q.head k (some x) else q.head) ∧
    (queueInsertAfter q k x p).tail = (if n = none then update q.tail k (some x) else q.tail) := by
  cases p with
  | none =>
    simp only [Option.elim] at hn
    cases n <;> simp [queueInsertAfter, hn, relink]
  | some a =>
    have hne : x ≠ a := fun he => hself (by rw [he])
    simp only [Option.elim] at hn
    cases n <;> simp [queueInsertAfter, hn, relink, update_comm hne]

lemma queueInsertAfter_none (q : Pool κ α) (k : κ) (x : α) :
    queueInsertAfter q k x none = queueInsert q k x := by
  cases hh : q.head k <;> simp [queueInsertAfter, queueInsert, hh]

inductive InQueue (q : Pool κ α) (k : κ) : α → Prop
  | head {x : α} (h : q.head k = some x) : InQueue q k x
  | next {x y : α} (h : InQueue q k x) (hy : q.next x = some y) : InQueue q k y

structure Holds (q : Pool κ α) (xs : κ → List α) : Prop where
  nodup : ∀ k, (xs k).Nodup
  disjoint : ∀ k k' x, x ∈ xs k → x ∈ xs k' → k = k'
  head : ∀ k, q.head k = (xs k).head?
  tail : ∀ k, q.tail k = (xs k).getLast?
  linked : ∀ k, Seg q.next q.prev none (xs k) none
  free : ∀ x, (∀ k, x ∉ xs k) → q.next x = none ∧ q.prev x = none

omit [DecidableEq κ] [DecidableEq α] in
lemma holds_init : Holds (queueInit : Pool κ α) fun _ => [] := by
  constructor <;> simp [queueInit, Seg]

namespace Holds
variable {q : Pool κ α} {xs : κ → List α} {k : κ} {x a : α} {l r : List α}

section
omit [DecidableEq κ] [DecidableEq α]

lemma links_at (h : Holds q xs) (hk : xs k = l ++ x :: r) :
    q.prev x = l.getLast? ∧ q.next x = r.head? ∧ Seg q.next q.prev none l (some x) ∧
      Seg q.next q.prev (some x) r none := by
  have hl := h.linked k
  rw [hk] at hl
  obtain ⟨h1, h2, h3, h4⟩ := seg_append.mp hl
  refine ⟨by simpa using h2, by simpa using h3, by simpa using h1, h4⟩

lemma next_mem (h : Holds q xs) (hx : x ∈ xs k) {y : α} (hy : q.next x = some y) : y ∈ xs k := by
  obtain ⟨l, r, hk⟩ := append_of_mem hx
  have h1 := (h.links_at hk).2.1
  rw [hy] at h1
  have h2 := List.mem_of_mem_head? (Eq.symm h1)
  rw [hk]
  simp [h2]

lemma inQueue_iff (h : Holds q xs) : InQueue q k x ↔ x ∈ xs k := by
  constructor
  · intro hx
    induction hx with
    | head hx => exact List.mem_of_mem_head? ((h.head k).symm.trans hx)
    | next _ hy ih => exact h.next_mem ih hy
  · intro hx
    obtain ⟨l, r, hk⟩ := append_of_mem hx
    clear hx
    induction l using List.reverseRecOn generalizing x r with
    | nil => exact .head (by rw [h.head, hk]; rfl)
    | append_singleton l y ih =>
      rw [append_assoc, singleton_append] at hk
      exact .next (ih _ hk) (h.links_at hk).2.1
end
section
variable (h : Holds q xs)
include h

lemma replace {q' : Pool κ α} {ys : List α} (hnd : ys.Nodup)
    (hnew : ∀ y ∈ ys, y ∈ xs k ∨ ∀ k', y ∉ xs k') (hhead : q'.head = update q.head k ys.head?)
    (htail : q'.tail = update q.tail k ys.getLast?) (hseg : Seg q'.next q'.prev none ys none)
    (hframe : ∀ y, y ∉ xs k → y ∉ ys → q'.next y = q.next y ∧ q'.prev y = q.prev y)
    (hgone : ∀ y ∈ xs k, y ∉ ys → q'.next y = none ∧ q'.prev y = none) :
    Holds q' (update xs k ys) := by
  have hother : ∀ k', k' ≠ k → ∀ y ∈ xs k', y ∉ xs k ∧ y ∉ ys := by
    intro k' hkk y hy
    have hyk : y ∉ xs k := fun hy' => hkk (h.disjoint k' k y hy hy')
    refine ⟨hyk, fun hys => ?_⟩
    rcases hnew y hys with hin | hfresh
    · exact hyk hin
    · exact hfresh k' hy
  constructor
  · intro k'
    by_cases hkk : k' = k
    · subst hkk
      rwa [update_self]
    · rw [update_of_ne hkk]
      exact h.nodup k'
  · intro k1 k2 y h1 h2
    by_cases hk1 : k1 = k <;> by_cases hk2 : k2 = k
    · rw [hk1, hk2]
    · subst hk1
      rw [update_self] at h1
      rw [update_of_ne hk2] at h2
      exact absurd h1 (hother k2 hk2 y h2).2
    · subst hk2
      rw [update_self] at h2
      rw [update_of_ne hk1] at h1
      exact absurd h2 (hother k1 hk1 y h1).2
    · rw [update_of_ne hk1] at h1
      rw [update_of_ne hk2] at h2
      exact h.disjoint k1 k2 y h1 h2
  · intro k'
    rw [hhead]
    by_cases hkk : k' = k
    · subst hkk
      simp
    · simp [update_of_ne hkk, h.head]
  · intro k'
    rw [htail]
    by_cases hkk : k' = k
    · subst hkk
      simp
    · simp [update_of_ne hkk, h.tail]
  · intro k'
    by_cases hkk : k' = k
    · subst hkk
      rwa [update_self]
    · rw [update_of_ne hkk]
      refine seg_congr (h.linked k') ?_ ?_
      · intro y hy
        exact (hframe y (hother k' hkk y hy).1 (hother k' hkk y hy).2).1
      · intro y hy
        exact (hframe y (hother k' hkk y hy).1 (hother k' hkk y hy).2).2
  · intro y hy
    have hys : y ∉ ys := by simpa using hy k
    by_cases hyk : y ∈ xs k
    · exact hgone y hyk hys
    · rw [(hframe y hyk hys).1, (hframe y hyk hys).2]
      apply h.free y
      intro k'
      by_cases hkk : k' = k
      · rwa [hkk]
      · have := hy k'
        rwa [update_of_ne hkk] at this

lemma remove_split (hk : xs k = l ++ x :: r) :
    Holds (queueRemove q k x) (update xs k (l ++ r)) := by
  obtain ⟨hp, hn, hsl, hsr⟩ := h.links_at hk
  have hnd := h.nodup k
  rw [hk] at hnd
  obtain ⟨hndl, hndxr, hlr⟩ := List.nodup_append.mp hnd
  obtain ⟨hxr, hndr⟩ := nodup_cons.mp hndxr
  have hxl : x ∉ l := fun hx => hlr x hx x (by simp) rfl
  have hlast : ∀ y, l.getLast? = some y → y ∈ l := fun y hy => List.mem_of_mem_getLast? hy
  have hfirst : ∀ y, r.head? = some y → y ∈ r := fun y hy => List.mem_of_mem_head? hy
  obtain ⟨hnext, hprev, hhead, htail⟩ := queueRemove_eq k hp hn (fun he => hxr (hfirst x he))
  apply h.replace
  · exact List.nodup_append.mpr
      ⟨hndl, hndr, fun y hy z hz => hlr y hy z (mem_cons_of_mem x hz)⟩
  · intro y hy
    left
    rw [hk]
    simp only [mem_append, mem_cons] at hy ⊢
    tauto
  · have hh := h.head k
    rw [hk] at hh
    rw [hhead]
    cases l with
    | nil => simp
    | cons y l =>
      simp only [cons_append, List.head?_cons] at hh ⊢
      simp [← hh]
  · have ht := h.tail k
    rw [hk] at ht
    rw [htail]
    cases r with
    | nil => simp
    | cons y r =>
      simp only [List.getLast?_append_cons, List.getLast?_cons_cons] at ht ⊢
      simp [← ht]
  · rw [hnext, hprev]
    refine seg_append.mpr ⟨?_, ?_⟩
    · rw [Option.or_none]
      refine seg_congr (seg_back hsl hndl r.head?) ?_ ?_
      · intro y hy
        exact update_of_ne (ne_of_mem_of_not_mem hy hxl) _ _
      · intro y hy
        rw [update_of_ne (ne_of_mem_of_not_mem hy hxl)]
        exact relink_of_ne fun he => hlr y hy y (mem_cons_of_mem x (hfirst y he)) rfl
    · rw [Option.or_none]
      refine seg_congr (seg_front hsr hndr l.getLast?) ?_ ?_
      · intro y hy
        rw [update_of_ne (ne_of_mem_of_not_mem hy hxr)]
        exact relink_of_ne fun he => hlr y (hlast y he) y (mem_cons_of_mem x hy) rfl
      · intro y hy
        exact update_of_ne (ne_of_mem_of_not_mem hy hxr) _ _
  · intro y hyk _
    rw [hk] at hyk
    simp only [mem_append, mem_cons, not_or] at hyk
    rw [hnext, hprev, update_of_ne hyk.2.1, update_of_ne hyk.2.1]
    exact ⟨relink_of_ne fun he => hyk.1 (hlast y he), relink_of_ne fun he => hyk.2.2 (hfirst y he)⟩
  · intro y hyk hys
    have hyx : y = x := by
      rw [hk] at hyk
      simp only [mem_append, mem_cons] at hyk hys
      tauto
    rw [hyx, hnext, hprev]
    simp

lemma remove (hx : x ∈ xs k) : Holds (queueRemove q k x) (update xs k ((xs k).erase x)) := by
  obtain ⟨l, r, hk⟩ := append_of_mem hx
  have hnd := h.nodup k
  rw [hk] at hnd
  have hxl : x ∉ l := fun hxl => (List.nodup_append.mp hnd).2.2 x hxl x (by simp) rfl
  have herase : (xs k).erase x = l ++ r := by
    rw [hk, erase_append_right _ hxl, erase_cons_head]
  rw [herase]
  exact h.remove_split hk

lemma remove_free (hx : ∀ k', x ∉ xs k') (hk : xs k = []) : queueRemove q k x = q := by
  obtain ⟨hn, hp⟩ := h.free x hx
  have hh := h.head k
  have ht := h.tail k
  rw [hk] at hh ht
  obtain ⟨h1, h2, h3, h4⟩ := queueRemove_eq k hp hn (by simp)
  simp only [List.head?_nil, List.getLast?_nil] at hh ht
  simp only [relink_none, ↓reduceIte] at h1 h2 h3 h4
  rw [← hn, update_eq_self] at h1
  rw [← hp, update_eq_self] at h2
  rw [← hh, update_eq_self] at h3
  rw [← ht, update_eq_self] at h4
  cases hq : queueRemove q k x
  simp only [hq] at h1 h2 h3 h4
  rw [h1, h2, h3, h4]

lemma insertBetween (hk : xs k = l ++ r) (hx : ∀ k', x ∉ xs k') :
    Holds (queueInsertAfter q k x l.getLast?) (update xs k (l ++ x :: r)) := by
  have hl := h.linked k
  have hnd := h.nodup k
  have hxk := hx k
  have ht := h.tail k
  have hh := h.head k
  rw [hk] at hl hnd hxk ht hh
  obtain ⟨hsl, hsr⟩ := seg_append.mp hl
  rw [Option.or_none] at hsl hsr
  obtain ⟨hndl, hndr, hlr⟩ := List.nodup_append.mp hnd
  obtain ⟨hxl, hxr⟩ := not_or.mp (mem_append.not.mp hxk)
  have hfirst : ∀ y, r.head? = some y → y ∈ r := fun y hy => List.mem_of_mem_head? hy
  have hlast : ∀ y, l.getLast? = some y → y ∈ l := fun y hy => List.mem_of_mem_getLast? hy
  have hbetween : l.getLast?.elim (q.head k) q.next = r.head? := by
    induction l using List.reverseRecOn with
    | nil => exact hh
    | append_singleton l a _ =>
      obtain ⟨-, -, hnext, -⟩ := seg_append.mp hsl
      simpa using hnext
  obtain ⟨hnext, hprev, hhead, htail⟩ :=
    queueInsertAfter_eq q k hbetween fun he => hxl (hlast x he)
  apply h.replace
  · exact nodup_middle.mpr (nodup_cons.mpr ⟨hxk, hnd⟩)
  · intro y hy
    by_cases hyx : y = x
    · exact .inr (hyx ▸ hx)
    · left
      rw [hk]
      simpa [hyx] using hy
  · rw [hhead]
    cases l with
    | nil => simp
    | cons y l =>
      simp only [cons_append, List.head?_cons] at hh ⊢
      simp [← hh]
  · rw [htail]
    cases r with
    | nil => simp
    | cons y r =>
      simp only [List.getLast?_append_cons, List.getLast?_cons_cons] at ht ⊢
      simp [← ht]
  · rw [hnext, hprev]
    refine seg_append.mpr ⟨?_, by simp, by simp, ?_⟩
    · refine seg_congr (seg_back hsl hndl (some x)) ?_ ?_
      · intro y hy
        exact update_of_ne (ne_of_mem_of_not_mem hy hxl) _ _
      · intro y hy
        rw [update_of_ne (ne_of_mem_of_not_mem hy hxl)]
        exact relink_of_ne fun he => hlr y hy y (hfirst y he) rfl
    · refine seg_congr (seg_front hsr hndr (some x)) ?_ ?_
      · intro y hy
        rw [update_of_ne (ne_of_mem_of_not_mem hy hxr)]
        exact relink_of_ne fun he => hlr y (hlast y he) y hy rfl
      · intro y hy
        exact update_of_ne (ne_of_mem_of_not_mem hy hxr) _ _
  · intro y hyk hys
    rw [hk] at hyk
    simp only [mem_append, mem_cons, not_or] at hyk hys
    rw [hnext, hprev, update_of_ne hys.2.1, update_of_ne hys.2.1]
    exact ⟨relink_of_ne fun he => hyk.1 (hlast y he), relink_of_ne fun he => hyk.2 (hfirst y he)⟩
  · intro y hyk hys
    rw [hk] at hyk
    simp only [mem_append, mem_cons] at hyk hys
    tauto

lemma insert (hx : ∀ k', x ∉ xs k') : Holds (queueInsert q k x) (update xs k (x :: xs k)) := by
  rw [← queueInsertAfter_none]
  exact h.insertBetween (nil_append _).symm hx

lemma insertAfter (hk : xs k = l ++ a :: r) (hx : ∀ k', x ∉ xs k') :
    Holds (queueInsertAfter q k x (some a)) (update xs k (l ++ a :: x :: r)) := by
  have hins := h.insertBetween (l := l ++ [a]) (r := r) (by simpa using hk) hx
  rwa [List.getLast?_concat, append_assoc, singleton_append] at hins
end
end Holds

lemma update_unit {α : Type} (x y : α) : update (fun _ : Unit => x) () y = fun _ => y :=
  funext fun _ => update_self _ _ _

end Gloworm.Queue
