import Mathlib

/-! Blocks that are allocated and freed, and the lists of their owners. Every use of a block checks
that it is allocated. -/
namespace Gloworm.BlockCustody
open List Function

/-- Why a computation does not return. -/
inductive Stop
  | dead
  | unfinished
  | undefined
  deriving DecidableEq

structure Heap (β : Type) where
  blocks : ℕ → Option β
  freed : List ℕ

variable {β κ : Type}

namespace Heap

def Live (h : Heap β) (p : ℕ) : Prop := (h.blocks p).isSome
deriving Decidable

def touch (h : Heap β) (p : ℕ) : Except Stop β :=
  match h.blocks p with
  | some b => .ok b
  | none => .error .dead

def touchLink (h : Heap β) : Option ℕ → Except Stop Unit
  | some p => (h.touch p).map fun _ => ()
  | none => .ok ()

def store (h : Heap β) (p : ℕ) (b : β) : Heap β :=
  ⟨update h.blocks p (some b), h.freed⟩

def release (h : Heap β) (p : ℕ) : Heap β := ⟨update h.blocks p none, p :: h.freed⟩

def free (h : Heap β) (p : ℕ) : Except Stop (Heap β) := (h.touch p).map fun _ => h.release p

def charge (h : Heap β) (p : ℕ) : ℕ := h.freed.count p + if h.Live p then 1 else 0

variable {h : Heap β} {p x : ℕ}

lemma touch_live (hp : h.Live p) : ∃ b, h.blocks p = some b ∧ h.touch p = .ok b := by
  obtain ⟨b, hb⟩ := Option.isSome_iff_exists.mp hp
  exact ⟨b, hb, by rw [touch, hb]⟩

lemma touchLink_live {link : Option ℕ} (hl : ∀ p, link = some p → h.Live p) :
    h.touchLink link = .ok () := by
  cases link with
  | none => rfl
  | some p =>
    obtain ⟨b, -, hb⟩ := touch_live (hl p rfl)
    rw [touchLink, hb]
    rfl

lemma free_live (hp : h.Live p) : h.free p = .ok (h.release p) := by
  obtain ⟨b, -, hb⟩ := touch_live hp
  rw [free, hb]
  rfl

lemma live_store (b : β) : (h.store p b).Live x ↔ x = p ∨ h.Live x := by
  by_cases hx : x = p
  · subst hx
    simp [Live, store]
  · simp [Live, store, hx]

lemma live_release : (h.release p).Live x ↔ h.Live x ∧ x ≠ p := by
  by_cases hx : x = p
  · subst hx
    simp [Live, release]
  · simp [Live, release, hx]

lemma charge_store (b : β) (hp : ¬ h.Live p) :
    (h.store p b).charge x = h.charge x + if x = p then 1 else 0 := by
  by_cases hx : x = p
  · subst hx
    have hlive : (h.store x b).Live x := (live_store b).mpr (.inl rfl)
    rw [charge, charge, if_pos hlive, if_neg hp, if_pos rfl]
    rfl
  · have hsame : (h.store p b).Live x ↔ h.Live x := by
      rw [live_store]
      tauto
    simp only [charge, hsame, if_neg hx]
    rfl

lemma live_write (b : β) (hp : h.Live p) : (h.store p b).Live x ↔ h.Live x := by
  rw [live_store, or_iff_right_iff_imp]
  rintro rfl
  exact hp
end Heap

def Disposed (h h' : Heap β) (before after : List ℕ) : Prop :=
  ∃ ps : List ℕ, (ps ++ after).Perm before ∧
    (∀ x, h'.freed.count x = h.freed.count x + ps.count x) ∧
    ∀ x, h'.Live x ↔ h.Live x ∧ x ∉ ps

namespace Disposed
variable {h h' : Heap β} {before after : List ℕ} {p : ℕ}

lemma refl (h : Heap β) (before : List ℕ) : Disposed h h before before :=
  ⟨[], .refl _, by simp, by simp⟩

lemma release (hd : Disposed (h.release p) h' before after) :
    Disposed h h' (p :: before) after := by
  obtain ⟨ps, hperm, hfreed, hlive⟩ := hd
  refine ⟨p :: ps, hperm.cons p, fun x => ?_, fun x => ?_⟩
  · rw [hfreed, Heap.release, count_cons, count_cons]
    ring
  · rw [hlive, Heap.live_release, mem_cons]
    tauto

lemma write {b : β} (hd : Disposed (h.store p b) h' before after) (hp : h.Live p) :
    Disposed h h' before after := by
  obtain ⟨ps, hperm, hfreed, hlive⟩ := hd
  refine ⟨ps, hperm, hfreed, fun x => ?_⟩
  rw [hlive, Heap.live_write b hp]

variable (hd : Disposed h h' before after)
include hd

lemma perm {before' : List ℕ} (hp : before.Perm before') : Disposed h h' before' after := by
  obtain ⟨ps, hperm, hheap⟩ := hd
  exact ⟨ps, hperm.trans hp, hheap⟩

lemma freed_or_kept (hnd : before.Nodup) (hlive : ∀ p ∈ before, h.Live p) (hp : p ∈ before) :
    (p ∉ after ∧ ¬ h'.Live p ∧ h'.freed.count p = h.freed.count p + 1) ∨
      (p ∈ after ∧ h'.Live p ∧ h'.freed.count p = h.freed.count p) := by
  obtain ⟨ps, hperm, hfreed, hlive'⟩ := hd
  obtain ⟨hps, -, hdis⟩ := List.nodup_append.mp (hperm.nodup_iff.mpr hnd)
  rw [hfreed, hlive']
  rcases mem_append.mp (hperm.mem_iff.mpr hp) with hin | hin
  · refine .inl ⟨fun ha => hdis p hin p ha rfl, fun hl => hl.2 hin, ?_⟩
    rw [count_eq_one_of_mem hps hin]
  · have hout : p ∉ ps := fun hps => hdis p hps p hin rfl
    refine .inr ⟨hin, ⟨hlive p hp, hout⟩, ?_⟩
    rw [count_eq_zero_of_not_mem hout, Nat.add_zero]

lemma unchanged (hp : p ∉ before) :
    (h'.Live p ↔ h.Live p) ∧ h'.freed.count p = h.freed.count p := by
  obtain ⟨ps, hperm, hfreed, hlive⟩ := hd
  have hout : p ∉ ps := fun hps => hp (hperm.mem_iff.mp (mem_append_left _ hps))
  refine ⟨by rw [hlive, and_iff_left hout], ?_⟩
  rw [hfreed, count_eq_zero_of_not_mem hout, Nat.add_zero]

lemma charge (hnd : before.Nodup)
    (hlive : ∀ p ∈ before, h.Live p) (x : ℕ) : h'.charge x = h.charge x := by
  rw [Heap.charge, Heap.charge]
  by_cases hx : x ∈ before
  · rw [if_pos (hlive x hx)]
    rcases hd.freed_or_kept hnd hlive hx with ⟨-, hdead, hcount⟩ | ⟨-, hkept, hcount⟩
    · rw [if_neg hdead, hcount]
    · rw [if_pos hkept, hcount]
  · obtain ⟨hsame, hcount⟩ := hd.unchanged hx
    simp only [hsame, hcount]
end Disposed

structure Custody (h : Heap β) (q : κ → List ℕ) : Prop where
  nodup : ∀ o, (q o).Nodup
  disjoint : ∀ o o' p, p ∈ q o → p ∈ q o' → o = o'
  live : ∀ o, ∀ p ∈ q o, h.Live p

namespace Custody
variable {h h' : Heap β} {q : κ → List ℕ} {o : κ} {fresh ys : List ℕ}

structure Fresh (h : Heap β) (q : κ → List ℕ) (fresh : List ℕ) : Prop where
  nodup : fresh.Nodup
  live : ∀ p ∈ fresh, h.Live p
  unheld : ∀ p ∈ fresh, ∀ o, p ∉ q o

lemma fresh_nil (h : Heap β) (q : κ → List ℕ) : Fresh h q [] := ⟨by simp, by simp, by simp⟩

lemma nodup_append (hc : Custody h q) (hf : Fresh h q fresh) (o : κ) : (fresh ++ q o).Nodup :=
  List.nodup_append.mpr ⟨hf.nodup, hc.nodup o, fun p hp _ hp' he => hf.unheld p hp o (he ▸ hp')⟩

lemma live_append (hc : Custody h q) (hf : Fresh h q fresh) (o : κ) :
    ∀ p ∈ fresh ++ q o, h.Live p := by
  intro p hp
  rcases mem_append.mp hp with hp | hp
  · exact hf.live p hp
  · exact hc.live o p hp

lemma disposed [DecidableEq κ] (hc : Custody h q) (hf : Fresh h q fresh)
    (hd : Disposed h h' (fresh ++ q o) ys) : Custody h' (update q o ys) := by
  have hnd := hc.nodup_append hf o
  have hlive := hc.live_append hf o
  have hin : ∀ p ∈ ys, p ∈ fresh ++ q o := by
    obtain ⟨ps, hperm, -⟩ := hd
    exact fun p hp => hperm.mem_iff.mp (mem_append_right ps hp)
  have hother : ∀ o', o' ≠ o → ∀ p ∈ q o', p ∉ fresh ++ q o := by
    intro o' ho p hp hmem
    rcases mem_append.mp hmem with hmem | hmem
    · exact hf.unheld p hmem o' hp
    · exact ho (hc.disjoint o' o p hp hmem)
  refine ⟨fun o' => ?_, fun o₁ o₂ p h₁ h₂ => ?_, fun o' p hp => ?_⟩
  · by_cases ho : o' = o
    · obtain ⟨ps, hperm, -⟩ := hd
      rw [ho, update_self]
      exact (List.nodup_append.mp (hperm.nodup_iff.mpr hnd)).2.1
    · rw [update_of_ne ho]
      exact hc.nodup o'
  · by_cases ho₁ : o₁ = o <;> by_cases ho₂ : o₂ = o
    · rw [ho₁, ho₂]
    · rw [ho₁, update_self] at h₁
      rw [update_of_ne ho₂] at h₂
      exact absurd (hin p h₁) (hother o₂ ho₂ p h₂)
    · rw [update_of_ne ho₁] at h₁
      rw [ho₂, update_self] at h₂
      exact absurd (hin p h₂) (hother o₁ ho₁ p h₁)
    · rw [update_of_ne ho₁] at h₁
      rw [update_of_ne ho₂] at h₂
      exact hc.disjoint o₁ o₂ p h₁ h₂
  · by_cases ho : o' = o
    · rw [ho, update_self] at hp
      rcases hd.freed_or_kept hnd hlive (hin p hp) with ⟨hno, -⟩ | ⟨-, hl, -⟩
      · exact absurd hp hno
      · exact hl
    · rw [update_of_ne ho] at hp
      exact (hd.unchanged (hother o' ho p hp)).1.mpr (hc.live o' p hp)

lemma store (hc : Custody h q) (p : ℕ) (b : β) : Custody (h.store p b) q :=
  ⟨hc.nodup, hc.disjoint, fun o x hx => (Heap.live_store b).mpr (.inr (hc.live o x hx))⟩
end Custody
end Gloworm.BlockCustody
