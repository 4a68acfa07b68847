import Mathlib

/-! Labelled transition systems and their finite runs, which grow at the right end. -/
namespace Gloworm.Transition
variable {σ ε : Type*}

inductive Run (step : σ → ε → σ → Prop) : σ → List ε → σ → Prop
  | nil (s : σ) : Run step s [] s
  | snoc {s t u : σ} {es : List ε} {e : ε} (prior : Run step s es t) (next : step t e u) :
      Run step s (es ++ [e]) u

def Guarded (guard : σ → ε → Prop) (step : σ → ε → σ → Prop) (s : σ) (e : ε) (t : σ) : Prop :=
  guard s e ∧ step s e t

section
variable {step : σ → ε → σ → Prop} {s t : σ} {es : List ε} (hrun : Run step s es t)
include hrun

lemma Run.invariant {I : List ε → σ → Prop} (hinit : I [] s)
    (hstep : ∀ es t e u, I es t → step t e u → I (es ++ [e]) u) : I es t := by
  induction hrun with
  | nil => exact hinit
  | snoc _ hnext ih => exact hstep _ _ _ _ ih hnext

lemma Run.preserves {I : σ → Prop} (hinit : I s) (hstep : ∀ t e u, I t → step t e u → I u) : I t :=
  hrun.invariant (I := fun _ t => I t) hinit (fun _ t e u ht hs => hstep t e u ht hs)
end

variable {step : σ → ε → σ → Prop}

lemma Run.one {s t : σ} {e : ε} (h : step s e t) : Run step s [e] t := .snoc (.nil s) h

variable {es : List ε}

lemma Run.trans {s t u : σ} {es' : List ε}
    (h : Run step s es t) (h' : Run step t es' u) : Run step s (es ++ es') u := by
  induction h' with
  | nil => simpa using h
  | snoc _ hnext ih =>
    rw [← List.append_assoc]
    exact .snoc ih hnext

def execute (f : σ → ε → Option σ) (s : σ) : List ε → Option σ
  | [] => some s
  | e :: es => (f s e).bind fun t => execute f t es

variable {f : σ → ε → Option σ}

lemma Run.of_execute (hf : ∀ s e t, f s e = some t → step s e t) {s t : σ}
    (h : execute f s es = some t) : Run step s es t := by
  induction es generalizing s with
  | nil =>
    simp only [execute, Option.some.injEq] at h
    subst h
    exact .nil s
  | cons e es ih =>
    obtain ⟨u, hu, hrest⟩ := Option.bind_eq_some_iff.mp h
    exact (Run.one (hf s e u hu)).trans (ih hrest)

lemma exists_run (hf : ∀ s e t, f s e = some t → step s e t) {s : σ} {p : σ → Prop}
    (h : ∃ t ∈ execute f s es, p t) : ∃ t, Run step s es t ∧ p t := by
  obtain ⟨t, ht, hp⟩ := h
  exact ⟨t, .of_execute hf ht, hp⟩

lemma guarded_of_advance {f : (σ → ε → Bool) → σ → ε → Option σ}
    (hf : ∀ guard s e t, f guard s e = some t → guard s e = true ∧ step s e t)
    {guard : σ → ε → Prop} [∀ s e, Decidable (guard s e)] (s : σ) (e : ε) (t : σ)
    (h : f (fun s e => decide (guard s e)) s e = some t) : Guarded guard step s e t :=
  ⟨of_decide_eq_true (hf _ s e t h).1, (hf _ s e t h).2⟩

lemma exists_run_from {κ : Type*}
    (hf : ∀ s e t, f s e = some t → step s e t) {init : Option κ} {start : κ → σ}
    {p : κ → σ → Prop} (h : ∃ k ∈ init, ∃ t ∈ execute f (start k) es, p k t) :
    ∃ k t, init = some k ∧ Run step (start k) es t ∧ p k t := by
  obtain ⟨k, hk, h⟩ := h
  obtain ⟨t, hrun, hp⟩ := exists_run hf h
  exact ⟨k, t, hk, hrun, hp⟩

end Gloworm.Transition
