import Gloworm.SignalRuns

/-! Caught signals between `dispatch_signal` and the call of their handler. -/
namespace Gloworm.Signal
open List Option Transition Scheduler
variable {p : Proc} {s t u : System} {n : ℕ} {es : List Event}

def Caught (p : Proc) (s : System) : Event → Prop
  | .setAction _ _ => False
  | .dispatch signum => 1 ≤ signum ∧ signum ≤ 31 ∧
      (sigActionOf s.kernel p signum).handler ≠ sigDfl ∧
      (sigActionOf s.kernel p signum).handler ≠ sigIgn
  | .doSignal signum _ _ => s.signalPending p = signum ∧ signum ≠ 0
  | .handlerReturn => True

instance (p : Proc) (s : System) (e : Event) : Decidable (Caught p s e) :=
  match e with
  | .setAction .. | .dispatch _ | .doSignal .. | .handlerReturn => by
    dsimp only [Caught]; infer_instance

def CaughtStep (p : Proc) (s : System) (e : Event) (t : System) : Prop :=
  Caught p s e ∧ perform p s e = some t

def Owed (es : List Event) (n : ℕ) : Prop :=
  ∃ before after, es = before ++ .dispatch n :: after ∧
    ∀ userMode loaded, Event.doSignal n userMode loaded ∉ after

lemma not_owed_nil : ¬ Owed [] n := by
  rintro ⟨before, after, he, -⟩
  simp at he

variable {e : Event}

lemma owed_snoc (h : Owed (es ++ [e]) n) :
    e = .dispatch n ∨ (Owed es n ∧ ∀ userMode loaded, e ≠ .doSignal n userMode loaded) := by
  obtain ⟨before, after, he, hnone⟩ := h
  rcases eq_nil_or_concat after with rfl | ⟨after, last, rfl⟩
  · have := append_inj' he rfl
    exact .inl (singleton_inj.mp this.2)
  · rw [concat_eq_append, ← cons_append, ← append_assoc] at he
    obtain ⟨hes, hlast⟩ := append_inj' he rfl
    obtain rfl := singleton_inj.mp hlast
    refine .inr ⟨⟨before, after, hes, fun userMode loaded hin => ?_⟩, ?_⟩
    · exact hnone userMode loaded (by simp [hin])
    · rintro userMode loaded rfl
      exact hnone userMode loaded (by simp)

def Drained (p : Proc) (u t : System) : Prop :=
  ∃ n, 1 ≤ n ∧ n ≤ 31 ∧ Member (u.signals p).pending n ∧ ¬ Member (u.signals p).blocked n ∧
    dispatch (u.setPending p (clearBits (u.signals p).pending (signalToMap n))) p n = some t

/-- Unblocked signals are dispatched one at a time, and when a handler returns to a mask that lets a
pending signal through, the lowest pending one is such, and not the last of the table. -/
def Careful (p : Proc) (s : System) : Event → Prop
  | .dispatch signum => Member (s.signals p).blocked signum ∨ s.signalPending p = 0 ∨
      s.signalPending p = signum
  | .handlerReturn => ∀ context ∈ (s.contexts p).head?,
      (∃ n, 1 ≤ n ∧ n ≤ 31 ∧ Member (s.signals p).pending n ∧ ¬ Member context.prevMask n) →
      ∃ n, 1 ≤ n ∧ n ≤ 30 ∧ Member (s.signals p).pending n ∧ ¬ Member context.prevMask n ∧
        (∀ m, 1 ≤ m → m < n → ¬ Member (s.signals p).pending m) ∧
        (s.signalPending p = 0 ∨ s.signalPending p = n)
  | _ => True

lemma caughtStep_keeps (hign : (s.signals p).ignored = 0) (hs : CaughtStep p s e t) :
    (t.signals p).ignored = 0 ∧ (t.signals p).actions = (s.signals p).actions := by
  obtain ⟨hcaught, hs⟩ := hs
  cases e with
  | setAction signum act => exact absurd hcaught id
  | dispatch signum =>
    obtain ⟨-, -, hign', -, hact, -⟩ := dispatch_cases hcaught.1 hcaught.2.1 hign hs
    exact ⟨hign', hact⟩
  | doSignal signum userMode loaded =>
    obtain ⟨-, -, entered, -, hsig, -⟩ := doSignal_cases s p userMode loaded
    obtain rfl := some.inj hs
    rw [hsig]
    cases entered <;> exact ⟨hign, rfl⟩
  | handlerReturn =>
    obtain ⟨u, hu, hcheck⟩ := bind_eq_some_iff.mp hs
    obtain ⟨context, rest, -, -, -, hsig, -⟩ := leaveHandler_cases hu
    have hign' : (u.signals p).ignored = 0 := by rw [hsig]; exact hign
    have hact : (u.signals p).actions = (s.signals p).actions := by rw [hsig]
    rcases checkPendingSignals_cases hcheck with rfl | ⟨k, hk, hk', -, -, hd⟩
    · exact ⟨hign', hact⟩
    · obtain ⟨-, -, hign'', -, hact', -⟩ := dispatch_cases hk (by omega)
        (by rw [System.setPending, signals_modify_self]; exact hign') hd
      rw [System.setPending, signals_modify_self] at hact'
      exact ⟨hign'', hact'.trans hact⟩

structure Kept (p : Proc) (es : List Event) (s : System) : Prop where
  ignored : (s.signals p).ignored = 0
  owed : ∀ n, Owed es n → 1 ≤ n ∧ n ≤ 31 ∧ ((s.signals p).actions (n - 1)).handler ≠ 0
  recorded : ∀ n, Owed es n → Recorded s p n

namespace Kept
section
variable {m : ℕ} (h : Kept p es s)
include h

lemma dispatch (hcaught : Caught p s (.dispatch n)) (hcareful : Careful p s (.dispatch n))
    (hd : Signal.dispatch s p n = some t) (hm : Owed (es ++ [.dispatch n]) m) : Recorded t p m := by
  obtain ⟨hn, hn', hdfl, -⟩ := hcaught
  obtain ⟨-, -, -, -, -, hcases⟩ := dispatch_cases hn hn' h.ignored hd
  rcases owed_snoc hm with he | ⟨hm, -⟩
  · cases he
    rcases hcases with ⟨-, hpend, -⟩ | ⟨-, -, ⟨-, hdue⟩ | ⟨hbad, -⟩⟩
    · exact .inl (by rw [hpend]; exact member_or.mpr (.inr ((member_map hn hn).mpr rfl)))
    · exact .inr hdue
    · exact absurd hbad hdfl
  · obtain ⟨hm1, -, -⟩ := h.owed m hm
    rcases hcases with ⟨-, hpend, hdue⟩ | ⟨hfree, hpend, ⟨-, hdue⟩ | ⟨hbad, -⟩⟩
    · rcases h.recorded m hm with hin | heq
      · exact .inl (by rw [hpend]; exact member_or.mpr (.inl hin))
      · exact .inr (hdue.trans heq)
    · rcases h.recorded m hm with hin | heq
      · exact .inl (hpend ▸ hin)
      · rcases hcareful with hbad | hzero | hsame
        · exact absurd hbad hfree
        · omega
        · exact .inr (hdue.trans (hsame.symm.trans heq))
    · exact absurd hbad hdfl

lemma doSignal (userMode loaded : Bool) (hdue : s.signalPending p = n)
    (hm : Owed (es ++ [.doSignal n userMode loaded]) m) :
    Recorded (doSignal s p userMode loaded) p m := by
  obtain ⟨-, -, entered, -, hsig, -⟩ := doSignal_cases s p userMode loaded
  rcases owed_snoc hm with he | ⟨hm, hother⟩
  · cases he
  · rcases h.recorded m hm with hin | heq
    · refine .inl ?_
      rw [hsig]
      cases entered <;> exact hin
    · exact absurd (by rw [← heq, hdue]) (hother userMode loaded)

lemma handlerReturn (hcareful : Careful p s .handlerReturn) (hc : cleanupSignalHandler s p = some t)
    (hm : Owed es m) : Recorded t p m := by
  obtain ⟨u, hu, hcheck⟩ := bind_eq_some_iff.mp hc
  obtain ⟨context, rest, hcontext, -, -, hsig, hpend⟩ := leaveHandler_cases hu
  have hrec : Recorded u p m := by
    rcases h.recorded m hm with hin | heq
    · exact .inl (by rw [hsig]; exact hin)
    · exact .inr (hpend.trans heq)
  rcases checkPendingSignals_cases hcheck with rfl | ⟨k, hk, hk', hin, hnext, hd⟩
  · exact hrec
  · have hign : (u.signals p).ignored = 0 := by rw [hsig]; exact h.ignored
    obtain ⟨-, -, -, -, -, hcases⟩ := dispatch_cases hk (by omega)
      (by rw [System.setPending, signals_modify_self]; exact hign) hd
    simp only [System.setPending, signals_modify_self, signalPending_modify_self] at hcases
    obtain ⟨hm1, hm31, hhandler⟩ := h.owed m hm
    have hcleared : Member (u.signals p).pending m → m ≠ k →
        Member (clearBits (u.signals p).pending (signalToMap k)) m := by
      intro hin hne
      exact (member_clearBits (by omega)).mpr
        ⟨hin, fun hbad => hne ((member_map hk hm1).mp hbad).symm⟩
    rcases hcases with ⟨-, hpend', hdue⟩ | ⟨hfree, hpend', hdue⟩
    · rcases hrec with hin | heq
      · by_cases hmk : m = k
        · exact .inl (by
            rw [hpend', hmk]
            exact member_or.mpr (.inr ((member_map hk hk).mpr rfl)))
        · exact .inl (by rw [hpend']; exact member_or.mpr (.inl (hcleared hin hmk)))
      · exact .inr (hdue.trans heq)
    · -- the signal that was taken is the lowest one, and no other is due
      rw [show (u.kernel.procs p).signals = u.signals p from rfl, hsig] at hfree
      rw [hsig] at hin hnext
      obtain ⟨n, hn, hn', hmem, -, hlow, hslot⟩ := hcareful context (by simp [hcontext])
        ⟨k, hk, by omega, hin, hfree⟩
      have hkn : k = n :=
        some.inj (hnext.symm.trans (getNextSignum_lowest hn hn' hmem hlow))
      subst hkn
      rcases hdue with ⟨-, hdue⟩ | ⟨hdfl, hdue⟩
      · by_cases hmk : m = k
        · exact .inr (hdue.trans hmk.symm)
        · rcases hrec with hin | heq
          · exact .inl (by rw [hpend']; exact hcleared hin hmk)
          · rw [hpend] at heq
            omega
      · have hmk : m ≠ k := by
          rintro rfl
          rw [show (u.kernel.procs p).signals = u.signals p from rfl, hsig] at hdfl
          exact hhandler hdfl
        rcases hrec with hin | heq
        · exact .inl (by rw [hpend']; exact hcleared hin hmk)
        · exact .inr (hdue.trans heq)

lemma step (hs : Guarded (Careful p) (CaughtStep p) s e t) : Kept p (es ++ [e]) t := by
  obtain ⟨hcareful, hstep⟩ := hs
  obtain ⟨hign, hact⟩ := caughtStep_keeps h.ignored hstep
  obtain ⟨hcaught, hs⟩ := hstep
  refine ⟨hign, fun m hm => ?_, fun m hm => ?_⟩
  · rw [hact]
    rcases owed_snoc hm with rfl | ⟨hm, -⟩
    · exact ⟨hcaught.1, hcaught.2.1, hcaught.2.2.1⟩
    · exact h.owed m hm
  · cases e with
    | setAction signum act => exact absurd hcaught id
    | dispatch signum => exact h.dispatch hcaught hcareful hs hm
    | doSignal signum userMode loaded =>
      exact some.inj hs ▸ h.doSignal userMode loaded hcaught.1 hm
    | handlerReturn =>
      rcases owed_snoc hm with he | ⟨hm, -⟩
      · cases he
      · exact h.handlerReturn hcareful hs hm
end
end Kept

lemma drained_of_careful (hcareful : Careful p s .handlerReturn)
    (hu : leaveHandler s p = some u) (hcheck : checkPendingSignals u p = some t)
    (hn : 1 ≤ n) (hn' : n ≤ 31) (hmem : Member (u.signals p).pending n)
    (hfree : ¬ Member (u.signals p).blocked n) : Drained p u t := by
  obtain ⟨context, rest, hcontext, -, -, hsig, -⟩ := leaveHandler_cases hu
  have hpend : (u.signals p).pending = (s.signals p).pending := by rw [hsig]
  have hblk : (u.signals p).blocked = context.prevMask := by rw [hsig]
  obtain ⟨k, hk, hk', hmem', hfree', hlow, -⟩ := hcareful context (by simp [hcontext])
    ⟨n, hn, hn', hpend ▸ hmem, hblk ▸ hfree⟩
  rw [← hpend] at hmem' hlow
  rw [← hblk] at hfree'
  rw [checkPendingSignals, if_pos (clearBits_ne_zero (by omega) hmem' hfree'),
    getNextSignum_lowest hk hk' hmem' hlow] at hcheck
  exact ⟨k, hk, by omega, hmem', hfree', hcheck⟩

/-- Along every careful history each caught signal that is owed is on record, and a handler's return
dispatches a pending signal when one is not blocked. -/
theorem caught_signals_kept {s₀ : System} (hign : (s₀.signals p).ignored = 0)
    (hrun : Run (Guarded (Careful p) (CaughtStep p)) s₀ es s) : (∀ n, Owed es n → Recorded s p n) ∧
      ∀ u t, Careful p s .handlerReturn → leaveHandler s p = some u →
        checkPendingSignals u p = some t →
        (∃ n, 1 ≤ n ∧ n ≤ 31 ∧ Member (u.signals p).pending n ∧
          ¬ Member (u.signals p).blocked n) → Drained p u t := by
  constructor
  · have hstart : Kept p [] s₀ :=
      ⟨hign, fun n hn => absurd hn not_owed_nil, fun n hn => absurd hn not_owed_nil⟩
    exact (hrun.invariant (I := Kept p) hstart fun _ _ _ _ h hs => h.step hs).recorded
  · rintro u t hcareful hu hcheck ⟨n, hn, hn', hmem, hfree⟩
    exact drained_of_careful hcareful hu hcheck hn hn' hmem hfree

def catching : System where
  kernel := lone.kernel.modify 100 fun x =>
    { x with signals := ⟨0, 0, 0, fun _ => ⟨4096, saRestorer⟩⟩ }
  masks := fun _ i => signalToMap (i + 1) &&& sigMaskMaskable
  contexts := fun _ => []

def advanceCaught (p : Proc) (s : System) (e : Event) : Option System :=
  if Caught p s e then perform p s e else none

lemma advanceCaught_step (p : Proc) (s : System) (e : Event) (t : System)
    (h : advanceCaught p s e = some t) : CaughtStep p s e t := by
  unfold advanceCaught at h
  split_ifs at h with hc
  exact ⟨hc, h⟩

lemma not_drained (hign : (u.signals p).ignored = 0)
    (hall : ∀ i, ((u.signals p).actions i).handler ≠ 0) (hnone : t.signalPending p = 0) :
    ¬ Drained p u t := by
  rintro ⟨n, hn, hn', -, hfree, hd⟩
  obtain ⟨-, -, -, -, -, hcases⟩ := dispatch_cases hn hn'
    (by rw [System.setPending, signals_modify_self]; exact hign) hd
  simp only [System.setPending, signals_modify_self, signalPending_modify_self] at hcases
  rcases hcases with ⟨hbad, -⟩ | ⟨-, -, ⟨-, hdue⟩ | ⟨hbad, -⟩⟩
  · exact hfree hbad
  · omega
  · exact hall (n - 1) hbad

def passedOver (p : Proc) (n : ℕ) (s : System) : Bool :=
  (leaveHandler s p).any fun u => (checkPendingSignals u p).any fun t =>
    decide (Member (u.signals p).pending n ∧ ¬ Member (u.signals p).blocked n ∧
      t.signalPending p = 0)

lemma passedOver_spec (h : passedOver p n s = true) (hign : (s.signals p).ignored = 0)
    (hall : ∀ i, ((s.signals p).actions i).handler ≠ 0) :
    ∃ u t, leaveHandler s p = some u ∧ checkPendingSignals u p = some t ∧
      Member (u.signals p).pending n ∧ ¬ Member (u.signals p).blocked n ∧ ¬ Drained p u t := by
  obtain ⟨u, hu, h⟩ := (Option.any_eq_true _ _).mp h
  obtain ⟨t, ht, h⟩ := (Option.any_eq_true _ _).mp h
  obtain ⟨hmem, hfree, hnone⟩ := of_decide_eq_true h
  obtain ⟨context, rest, -, -, -, hsig, -⟩ := leaveHandler_cases hu
  refine ⟨u, t, hu, ht, hmem, hfree, not_drained ?_ ?_ hnone⟩
  · rw [hsig]
    exact hign
  · rw [hsig]
    exact hall

lemma catching_kept (hrun : Run (CaughtStep 100) catching es s) :
    (s.signals 100).ignored = 0 ∧ ∀ i, ((s.signals 100).actions i).handler ≠ 0 := by
  refine hrun.preserves (I := fun s => (s.signals 100).ignored = 0 ∧
    ∀ i, ((s.signals 100).actions i).handler ≠ 0) ⟨rfl, fun i => ?_⟩ ?_
  · simp [catching, System.signals, Kernel.modify]
  · rintro t e u ⟨hign, hall⟩ hs
    obtain ⟨hign', hact⟩ := caughtStep_keeps hign hs
    exact ⟨hign', hact ▸ hall⟩

theorem caught_signals_lost :
    (∃ es s, Run (CaughtStep 100) catching es s ∧ Owed es 10 ∧ ¬ Recorded s 100 10) ∧
    (∃ es s u t, Run (CaughtStep 100) catching es s ∧ leaveHandler s 100 = some u ∧
      checkPendingSignals u 100 = some t ∧ Member (u.signals 100).pending 12 ∧
      ¬ Member (u.signals 100).blocked 12 ∧ ¬ Drained 100 u t) ∧
    ∃ es s u t, Run (CaughtStep 100) catching es s ∧ leaveHandler s 100 = some u ∧
      checkPendingSignals u 100 = some t ∧ Member (u.signals 100).pending 31 ∧
      ¬ Member (u.signals 100).blocked 31 ∧ ¬ Drained 100 u t := by
  refine ⟨?_, ?_, ?_⟩
  · obtain ⟨s, hrun, hlost⟩ : ∃ s, Run (CaughtStep 100) catching [.dispatch 10, .dispatch 12] s ∧
        ¬ (Member (s.signals 100).pending 10 ∨ s.signalPending 100 = 10) :=
      exists_run (advanceCaught_step 100) (by decide +kernel)
    exact ⟨_, s, hrun, ⟨[], [.dispatch 12], rfl, by simp⟩, hlost⟩
  · obtain ⟨s, hrun, hs⟩ : ∃ s, Run (CaughtStep 100) catching [.dispatch 10, .doSignal 10 true true,
        .dispatch 12, .doSignal 12 true true, .dispatch 10, .dispatch 12] s ∧ _ :=
      exists_run (advanceCaught_step 100) (p := fun s => passedOver 100 12 s) (by decide +kernel)
    obtain ⟨hign, hall⟩ := catching_kept hrun
    obtain ⟨u, t, h⟩ := passedOver_spec hs hign hall
    exact ⟨_, s, u, t, hrun, h⟩
  · obtain ⟨s, hrun, hs⟩ : ∃ s, Run (CaughtStep 100) catching
        [.dispatch 31, .doSignal 31 true true, .dispatch 31] s ∧ _ :=
      exists_run (advanceCaught_step 100) (p := fun s => passedOver 100 31 s) (by decide +kernel)
    obtain ⟨hign, hall⟩ := catching_kept hrun
    obtain ⟨u, t, h⟩ := passedOver_spec hs hign hall
    exact ⟨_, s, u, t, hrun, h⟩

theorem caught_signals_kept_again : ∃ s, Run (Guarded (Careful 100) (CaughtStep 100)) catching
      ([.dispatch 10] ++ [.doSignal 10 true true] ++ [.dispatch 10]) s ∧ Recorded s 100 10 ∧
    ∃ u t, leaveHandler s 100 = some u ∧ checkPendingSignals u 100 = some t ∧
      Member (u.signals 100).pending 10 ∧ Drained 100 u t := by
  have hrun : ∃ s, Run (Guarded (Careful 100) (CaughtStep 100)) catching
      ([.dispatch 10] ++ [.doSignal 10 true true] ++ [.dispatch 10]) s ∧
      (s.contexts 100).map SigContext.prevMask = [0] ∧
      (s.signals 100).pending = signalToMap 10 ∧ s.signalPending 100 = 0 ∧
      ∃ u t, leaveHandler s 100 = some u ∧ checkPendingSignals u 100 = some t ∧
        Member (u.signals 100).pending 10 ∧ ¬ Member (u.signals 100).blocked 10 :=
    ⟨_, .snoc (.snoc (.one ⟨.inr (.inl rfl), by decide, rfl⟩) ⟨trivial, by decide +kernel, rfl⟩)
      ⟨.inl (by decide +kernel), by decide +kernel, rfl⟩, by decide +kernel, by decide +kernel,
      by decide +kernel, _, _, rfl, rfl, by decide +kernel, by decide +kernel⟩
  obtain ⟨s, hrun, hmask, hpend, hslot, u, t, hu, ht, hmem, hfree⟩ := hrun
  have hcareful : Careful 100 s .handlerReturn := by
    intro context hc _
    have hprev : context.prevMask ∈ (s.contexts 100).map SigContext.prevMask :=
      List.mem_map_of_mem (List.mem_of_mem_head? hc)
    rw [hmask, mem_singleton] at hprev
    refine ⟨10, by decide, by decide, by rw [hpend]; decide, by rw [hprev]; decide, ?_,
      .inl hslot⟩
    intro m hm hlt hbad
    rw [hpend, member_map (by decide) hm] at hbad
    omega
  have hkept := caught_signals_kept rfl hrun
  exact ⟨s, hrun, hkept.1 10 ⟨[.dispatch 10, .doSignal 10 true true], [], rfl, by simp⟩, u, t, hu,
    ht, hmem, hkept.2 u t hcareful hu ht ⟨10, by decide, by decide, hmem, hfree⟩⟩

end Gloworm.Signal
