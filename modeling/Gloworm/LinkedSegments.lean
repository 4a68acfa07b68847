import Mathlib

/-! Doubly linked segments: two link functions, the nodes in order, and what the ends are connected
to. -/
namespace Gloworm.LinkedSegments
variable {α : Type*}

def Seg (next prev : α → Option α) : Option α → List α → Option α → Prop
  | _, [], _ => True
  | p, x :: xs, n => prev x = p ∧ next x = xs.head?.or n ∧ Seg next prev (some x) xs n

lemma getLast?_or_cons (x : α) (xs : List α) (p : Option α) :
    (x :: xs).getLast?.or p = xs.getLast?.or (some x) := by
  cases h : xs.getLast? with
  | none => simp [List.getLast?_eq_none_iff.mp h]
  | some y => simp [List.getLast?_cons, h]

lemma seg_append {next prev : α → Option α} {p n : Option α} {xs ys : List α} :
    Seg next prev p (xs ++ ys) n ↔
      Seg next prev p xs (ys.head?.or n) ∧ Seg next prev (xs.getLast?.or p) ys n := by
  induction xs generalizing p with
  | nil => simp [Seg]
  | cons x xs ih =>
    rw [List.cons_append, Seg, ih, Seg, getLast?_or_cons]
    cases xs with
    | nil => simp [Seg, and_assoc]
    | cons y xs => simp [and_assoc]

lemma seg_congr {next prev next' prev' : α → Option α} {p n : Option α} {xs : List α}
    (h : Seg next prev p xs n) (hn : ∀ x ∈ xs, next' x = next x)
    (hp : ∀ x ∈ xs, prev' x = prev x) : Seg next' prev' p xs n := by
  induction xs generalizing p with
  | nil => trivial
  | cons x xs ih =>
    obtain ⟨h1, h2, h3⟩ := h
    refine ⟨(hp x (by simp)).trans h1, (hn x (by simp)).trans h2, ?_⟩
    exact ih h3 (fun y hy => hn y (by simp [hy])) (fun y hy => hp y (by simp [hy]))

def walk (link : α → Option α) (wanted : α → Bool) : ℕ → Option α → Option (Option α)
  | 0, _ => none
  | _ + 1, none => some none
  | fuel + 1, some x => if wanted x then some (some x) else walk link wanted fuel (link x)

def follow (link : α → Option α) : ℕ → Option α → List α
  | 0, _ => []
  | _ + 1, none => []
  | fuel + 1, some x => x :: follow link fuel (link x)

def Path (link : α → Option α) : List α → Prop
  | [] => True
  | x :: xs => link x = xs.head? ∧ Path link xs

section
variable {link next prev : α → Option α} {p n : Option α} {xs : List α} {wanted : α → Bool}
  {fuel : ℕ}

lemma path_next (h : Seg next prev p xs none) : Path next xs := by
  induction xs generalizing p with
  | nil => trivial
  | cons x xs ih => exact ⟨h.2.1.trans (Option.or_none ..), ih h.2.2⟩

lemma path_prev (h : Seg next prev none xs n) : Path prev xs.reverse := by
  induction xs using List.reverseRecOn generalizing n with
  | nil => trivial
  | append_singleton xs x ih =>
    obtain ⟨h1, h2, _⟩ := seg_append.mp h
    rw [List.reverse_concat]
    exact ⟨h2.trans (by simp), ih h1⟩

lemma Path.follow (h : Path link xs) (hfuel : xs.length ≤ fuel) :
    follow link fuel xs.head? = xs := by
  induction xs generalizing fuel with
  | nil => cases fuel <;> rfl
  | cons x xs ih =>
    obtain ⟨fuel, rfl⟩ := Nat.exists_eq_add_of_le' (Nat.one_le_of_lt hfuel)
    rw [List.head?_cons, LinkedSegments.follow, h.1, ih h.2 (by simpa using hfuel)]

lemma Path.walk (h : Path link xs) (hfuel : xs.length < fuel) :
    walk link wanted fuel xs.head? = some (xs.find? wanted) := by
  induction xs generalizing fuel with
  | nil =>
    obtain _ | fuel := fuel
    · omega
    rfl
  | cons x xs ih =>
    obtain _ | fuel := fuel
    · omega
    rw [List.head?_cons, LinkedSegments.walk, List.find?_cons]
    cases hw : wanted x with
    | true => rfl
    | false =>
      rw [if_neg (by simp), h.1]
      exact ih h.2 (by simpa using hfuel)

lemma walk_next (h : Seg next prev p xs none) (hfuel : xs.length < fuel) :
    walk next wanted fuel xs.head? = some (xs.find? wanted) := (path_next h).walk hfuel

lemma walk_prev (h : Seg next prev none xs n) (hfuel : xs.length < fuel) :
    walk prev wanted fuel xs.getLast? = some (xs.reverse.find? wanted) := by
  rw [← List.head?_reverse]
  exact (path_prev h).walk (by simpa using hfuel)
end

variable [DecidableEq α]

def relink (f : α → Option α) (node v : Option α) : α → Option α :=
  match node with
  | none => f
  | some x => Function.update f x v

@[simp] lemma relink_none (f : α → Option α) (v : Option α) : relink f none v = f := rfl

lemma relink_of_ne {f : α → Option α} {node v : Option α} {x : α} (h : node ≠ some x) :
    relink f node v x = f x := by
  cases node with
  | none => rfl
  | some y =>
    apply Function.update_of_ne
    rintro rfl
    exact h rfl

section
variable {next prev : α → Option α} {p n : Option α} {xs : List α} (h : Seg next prev p xs n)
  (hnd : xs.Nodup) (q : Option α)
include h hnd

lemma seg_front : Seg next (relink prev xs.head? q) q xs n := by
  cases xs with
  | nil => trivial
  | cons x xs =>
    obtain ⟨_, h2, h3⟩ := h
    refine ⟨by simp [relink], h2, seg_congr h3 (fun _ _ => rfl) ?_⟩
    intro y hy
    apply relink_of_ne
    simp only [List.head?_cons, ne_eq, Option.some.injEq]
    rintro rfl
    exact (List.nodup_cons.mp hnd).1 hy

lemma seg_back : Seg (relink next xs.getLast? q) prev p xs q := by
  induction xs generalizing p with
  | nil => trivial
  | cons x xs ih =>
    obtain ⟨h1, h2, h3⟩ := h
    obtain ⟨hx, hxs⟩ := List.nodup_cons.mp hnd
    cases xs with
    | nil => exact ⟨h1, by simp [relink], trivial⟩
    | cons y ys =>
      rw [List.getLast?_cons_cons]
      refine ⟨h1, ?_, ih h3 hxs⟩
      rw [relink_of_ne, h2]
      · simp
      · intro hlast
        exact hx (List.mem_of_mem_getLast? hlast)
end
end Gloworm.LinkedSegments
