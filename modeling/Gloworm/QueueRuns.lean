import Gloworm.QueueModel
import Gloworm.TransitionRuns

/-! Whole histories of the intrusive queues. Every operation is paired with the list
operation it stands for, and the links are compared with the lists that result. -/
namespace Gloworm.QueueRuns
open Function LinkedSegments Queue Transition
variable {κ α : Type*} [DecidableEq κ] [DecidableEq α]

inductive Op (κ α : Type*)
  | insert (k : κ) (node : α)
  | insertAfter (k : κ) (node : α) (after : Option α)
  | remove (k : κ) (node : α)

def Op.perform (q : Pool κ α) : Op κ α → Pool κ α
  | .insert k node => queueInsert q k node
  | .insertAfter k node after => queueInsertAfter q k node after
  | .remove k node => queueRemove q k node

def putAfter (node : α) : Option α → List α → List α
  | none, xs => node :: xs
  | some _, [] => []
  | some a, y :: ys => if y = a then y :: node :: ys else y :: putAfter node (some a) ys

def Op.onLists (xs : κ → List α) : Op κ α → κ → List α
  | .insert k node => update xs k (node :: xs k)
  | .insertAfter k node after => update xs k (putAfter node after (xs k))
  | .remove k node => update xs k ((xs k).erase node)

/-- Only nodes outside all queues are inserted, behind a member if behind any node, and
only members are removed. -/
def Op.Permitted (xs : κ → List α) : Op κ α → Prop
  | .insert _ node => ∀ k, node ∉ xs k
  | .insertAfter k node after => (∀ k, node ∉ xs k) ∧ ∀ a ∈ after, a ∈ xs k
  | .remove k node => node ∈ xs k

def Step (s : Pool κ α × (κ → List α)) (op : Op κ α) (t : Pool κ α × (κ → List α)) : Prop :=
  op.Permitted s.2 ∧ t = (op.perform s.1, op.onLists s.2)

omit [DecidableEq κ] in
lemma putAfter_split {node a : α} {l r : List α} (hal : a ∉ l) :
    putAfter node (some a) (l ++ a :: r) = l ++ a :: node :: r := by
  induction l with
  | nil => simp [putAfter]
  | cons y l ih =>
    obtain ⟨hya, hal⟩ := List.ne_and_not_mem_of_not_mem_cons hal
    rw [List.cons_append, putAfter, if_neg (Ne.symm hya), ih hal, List.cons_append]

lemma holds_step {s t : Pool κ α × (κ → List α)} {op : Op κ α} (h : Holds s.1 s.2)
    (hs : Step s op t) : Holds t.1 t.2 := by
  obtain ⟨hp, rfl⟩ := hs
  cases op with
  | insert k node => exact h.insert hp
  | remove k node => exact h.remove hp
  | insertAfter k node after =>
    cases after with
    | none =>
      have hins := h.insert (k := k) hp.1
      rw [← queueInsertAfter_none] at hins
      simpa only [Op.perform, Op.onLists, putAfter] using hins
    | some a =>
      -- the first split at `a`, so that `putAfter` stops there
      obtain ⟨l, r, hk, hal⟩ := List.eq_append_cons_of_mem (hp.2 a rfl)
      have hins := h.insertAfter hk hp.1
      rwa [← putAfter_split hal, ← hk] at hins

lemma holds_run {q : Pool κ α} {xs : κ → List α} {ops : List (Op κ α)}
    (hrun : Run Step (queueInit, fun _ => []) ops (q, xs)) : Holds q xs :=
  hrun.preserves (I := fun s => Holds s.1 s.2) holds_init fun _ _ _ h hs => holds_step h hs

/-- The links always spell the sequence that the calls describe. -/
theorem queue_is_sequence {q : Pool κ α} {xs : κ → List α} {ops : List (Op κ α)}
    (hrun : Run Step (queueInit, fun _ => []) ops (q, xs)) :
    (∀ k, ∀ fuel ≥ (xs k).length, follow q.next fuel (q.head k) = xs k ∧
      follow q.prev fuel (q.tail k) = (xs k).reverse) ∧
    (∀ k, (q.head k = none ↔ xs k = []) ∧ (q.tail k = none ↔ xs k = [])) ∧
    ∀ x, (∀ k, x ∉ xs k) → q.next x = none ∧ q.prev x = none := by
  have h := holds_run hrun
  refine ⟨fun k fuel hfuel => ⟨?_, ?_⟩, fun k => ⟨?_, ?_⟩, h.free⟩
  · rw [h.head]
    exact (path_next (h.linked k)).follow hfuel
  · rw [h.tail, ← List.head?_reverse]
    exact (path_prev (h.linked k)).follow (by simpa using hfuel)
  · rw [h.head, List.head?_eq_none_iff]
  · rw [h.tail, List.getLast?_eq_none_iff]

theorem queue_is_sequence_three : ∃ q : Pool Unit ℕ,
    follow q.next 2 (q.head ()) = [3, 2] ∧ follow q.prev 2 (q.tail ()) = [2, 3] ∧
    q.next 1 = none ∧ q.prev 1 = none := by
  have hrun : Run Step (queueInit, fun _ : Unit => [])
      [.insert () 1, .insertAfter () 2 (some 1), .insertAfter () 3 none, .remove () 1]
      (_, fun _ => [3, 2]) :=
    .snoc (.snoc (.snoc (.one ⟨by simp [Op.Permitted], rfl⟩) ⟨by simp [Op.Permitted, Op.onLists], rfl⟩)
      ⟨by simp [Op.Permitted, Op.onLists, putAfter], rfl⟩)
      ⟨by simp [Op.Permitted, Op.onLists, putAfter], rfl⟩
  obtain ⟨hlist, -, hfree⟩ := queue_is_sequence hrun
  exact ⟨_, (hlist () 2 le_rfl).1, (hlist () 2 le_rfl).2, hfree 1 (by simp)⟩

end Gloworm.QueueRuns
