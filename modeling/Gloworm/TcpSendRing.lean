import Gloworm.RingBufferFifo
import Gloworm.TcpSession

/-! What acknowledgements can do to the ring of the sender, when the difference of two sequence
numbers is narrowed to a signed 16-bit size. -/
namespace Gloworm.Tcp
open Option Word RingBuffer Queue Transition

def Unsent (txLastSeq acknum : ℕ) : Prop :=
  0 < sub32 acknum txLastSeq ∧ sub32 acknum txLastSeq < 2 ^ 31
deriving Decidable

def dropSize (tep : Endpoint) (acknum : ℕ) : ℤ :=
  toShort ((sub32 acknum (lastAcked tep) : ℕ) : ℤ)

/-- The size of an acknowledgement is not negative, and nothing beyond what was sent is dropped. -/
def AckSafe (tep : Endpoint) (pack : Packet) : Prop :=
  ¬ Closes tep pack → pack.has flagAck → lastAcked tep < pack.acknum →
    0 ≤ dropSize tep pack.acknum ∧
    (Unsent tep.txLastSeq pack.acknum → bufIsEmpty tep.tx ∨ dropSize tep pack.acknum = 0)
deriving Decidable

structure Guards (tep : Endpoint) : Prop where
  txOk : tep.tx.Ok
  txMax : tep.tx.max ≤ 16384
  queued : ∃ xs, Queued tep xs

def DropsPrefix (before after : RingBuffer.Ring Byte) (kept : Prop) : Prop :=
  after.Ok ∧ after.max = before.max ∧ (∃ n, after.contents = before.contents.drop n) ∧
    (kept → after.contents = before.contents)

variable {r : RingBuffer.Ring Byte}

lemma DropsPrefix.refl (h : r.Ok) (kept : Prop) : DropsPrefix r r kept :=
  ⟨h, rfl, ⟨0, rfl⟩, fun _ => rfl⟩

lemma dropsPrefix_bufDrop (h : r.Ok) (hmax : r.max ≤ 16384) {size : ℤ}
    (hsize : 0 ≤ size) {kept : Prop} (hkept : kept → bufIsEmpty r ∨ size = 0) :
    DropsPrefix r (bufDrop r size) kept := by
  have hnn := h.used_nonneg
  have hlt := h.used_lt
  have hout := h.out_lt
  obtain ⟨n, rfl⟩ := Int.eq_ofNat_of_zero_le hsize
  obtain ⟨m, hm⟩ : ∃ m : ℕ, m = (min (n : ℤ) r.used).toNat := ⟨_, rfl⟩
  have hle : (m : ℤ) ≤ r.used := by omega
  obtain ⟨hok, hmax', hcont, -, -⟩ := h.bufDrop_spec hle (by omega)
  rw [h.bufDrop_eq, ← hm]
  refine ⟨hok, hmax', ⟨m, hcont⟩, fun hk => ?_⟩
  have hzero : m = 0 := by
    rcases hkept hk with hempty | hn
    · have hused := h.used_eq_zero.mpr hempty
      omega
    · omega
  rw [hcont, hzero, List.drop_zero]

variable {pack : Packet} {p : ℕ}

lemma dropsPrefix_discardAcked {tep : Endpoint} (h : tep.tx.Ok) (hmax : tep.tx.max ≤ 16384)
    (hg : lastAcked tep < pack.acknum → 0 ≤ dropSize tep pack.acknum ∧
      (Unsent tep.txLastSeq pack.acknum → bufIsEmpty tep.tx ∨ dropSize tep pack.acknum = 0)) :
    DropsPrefix tep.tx (discardAcked tep pack.acknum).tx (Unsent tep.txLastSeq pack.acknum) := by
  by_cases hnew : lastAcked tep < pack.acknum
  · rw [discardAcked, if_pos hnew]
    obtain ⟨hsize, hkept⟩ := hg hnew
    exact dropsPrefix_bufDrop h hmax hsize hkept
  · rw [discardAcked, if_neg hnew]
    exact .refl h _

lemma repeatedAck_spec (o : Outcome) (h : o.1.tx.Ok) :
    ∃ o', repeatedAck o = some o' ∧ o'.1.tx = o.1.tx ∧ o'.1.recvQueue = o.1.recvQueue ∧
      o'.1.packets = o.1.packets ∧ o'.1.waiting = o.1.waiting := by
  obtain ⟨o', ho⟩ := repeatedAck_some h
  refine ⟨o', ho, ?_⟩
  by_cases hthird : 3 ≤ toShort (o.1.txAcksRepeated + 1)
  · simp only [repeatedAck, if_pos hthird] at ho
    obtain ⟨r, hr, rfl⟩ := map_eq_some_iff.mp ho
    have hpsh : (flagPsh ||| flagAck) &&& flagPsh ≠ 0 := by decide
    have hack : (flagPsh ||| flagAck) &&& flagAck ≠ 0 := by decide
    simp only [tcpSendPacket, if_pos hpsh, if_pos hack] at hr
    split_ifs at hr <;> cases hr <;> exact ⟨rfl, rfl, rfl, rfl⟩
  · simp only [repeatedAck, if_neg hthird, some.injEq] at ho
    rw [← ho]
    exact ⟨rfl, rfl, rfl, rfl⟩

lemma acknowledge_spec (o : Outcome) {xs : List ℕ} (hq : Queued o.1 xs) (h : o.1.tx.Ok)
    (hmax : o.1.tx.max ≤ 16384) (hg : lastAcked o.1 < pack.acknum → 0 ≤ dropSize o.1 pack.acknum ∧
      (Unsent o.1.txLastSeq pack.acknum → bufIsEmpty o.1.tx ∨ dropSize o.1 pack.acknum = 0)) :
    ∃ o', acknowledge o pack = some o' ∧ Queued o'.1 xs ∧ o'.1.waiting = o.1.waiting ∧
      DropsPrefix o.1.tx o'.1.tx (Unsent o.1.txLastSeq pack.acknum) := by
  have hdrop := dropsPrefix_discardAcked h hmax hg
  obtain ⟨n, tx, hframe⟩ := discardAcked_frame o.1 pack.acknum
  have hqueued : Queued (discardAcked o.1 pack.acknum) xs := by
    rw [hframe]
    exact ⟨hq.holds, hq.waiting⟩
  have hwait : (discardAcked o.1 pack.acknum).waiting = o.1.waiting := by rw [hframe]
  by_cases hmissing : (if lastAcked o.1 < pack.acknum then pack.acknum else lastAcked o.1) <
      o.1.txLastSeq
  · simp only [acknowledge, if_pos hmissing]
    obtain ⟨o', ho, htx, hrq, hpk, hw⟩ :=
      repeatedAck_spec (discardAcked o.1 pack.acknum, o.2) hdrop.1
    refine ⟨o', ho, ⟨hrq ▸ hqueued.holds, hw ▸ hqueued.waiting⟩, hw.trans hwait, ?_⟩
    rw [htx]
    exact hdrop
  · simp only [acknowledge, if_neg hmissing]
    exact ⟨_, rfl, hqueued, hwait, hdrop⟩

lemma receive_spec (o : Outcome) {xs : List ℕ} (hq : Queued o.1 xs) (hp : p ∉ o.1.waiting) :
    ∃ o' ys, receive o p pack = some o' ∧ Queued o'.1 ys ∧ o'.1.tx = o.1.tx := by
  obtain ⟨o', ys, ho, hq', hsame⟩ : ∃ o' ys, receive o p pack = some o' ∧ Queued o'.1 ys ∧
      SameSender o.1 o'.1 := receive_preserves (fun _ _ hi => hi)
    (fun _ _ _ hi _ => ⟨hi.deliver _, fun _ => (hi.deliver _).removePacket⟩)
    (fun _ _ hi => ⟨hi.holds, hi.waiting⟩) hq hp fun _ _ _ _ hholds hperm => ⟨hholds, hperm⟩
  exact ⟨o', ys, ho, hq', hsame.tx⟩

lemma tcpForwardEstablished_ring {tep : Endpoint} (h : Guards tep) (hp : p ∉ tep.waiting)
    (hg : AckSafe tep pack) : ∃ o, tcpForwardEstablished tep p pack = some o ∧ Guards o.1 ∧
      DropsPrefix tep.tx o.1.tx (Unsent tep.txLastSeq pack.acknum) := by
  obtain ⟨htx, hmax, xs, hq⟩ := h
  obtain ⟨o, ho, hsame, hdone, -, -, -⟩ := tcpCheckClose_spec tep pack
  have hq1 : Queued o.1 xs := ⟨hsame.recvQueue ▸ hq.holds, hsame.waiting ▸ hq.waiting⟩
  rw [tcpForwardEstablished, ho, bind_some]
  by_cases hcloses : Closes tep pack
  · rw [if_pos (hdone.mpr hcloses)]
    refine ⟨o, rfl, ⟨hsame.tx ▸ htx, hsame.tx ▸ hmax, xs, hq1⟩, ?_⟩
    rw [hsame.tx]
    exact .refl htx _
  · rw [if_neg fun hd => hcloses (hdone.mp hd)]
    have hlast : lastAcked o.1 = lastAcked tep := by
      rw [lastAcked, hsame.txLastSeq, hsame.tx, lastAcked]
    obtain ⟨o1, ho1, hq2, hw, hdrop⟩ : ∃ o1,
        (if pack.has flagAck then acknowledge o pack else some o) = some o1 ∧ Queued o1.1 xs ∧
        o1.1.waiting = tep.waiting ∧
        DropsPrefix tep.tx o1.1.tx (Unsent tep.txLastSeq pack.acknum) := by
      by_cases hack : pack.has flagAck
      · rw [if_pos hack]
        have hsafe := hg hcloses hack
        rw [← hlast, dropSize, ← hlast, ← hsame.txLastSeq, ← hsame.tx] at hsafe
        obtain ⟨o1, ho1, hq2, hw, hdrop⟩ :=
          acknowledge_spec o hq1 (hsame.tx ▸ htx) (hsame.tx ▸ hmax) hsafe
        rw [hsame.tx, hsame.txLastSeq] at hdrop
        exact ⟨o1, ho1, hq2, hw.trans hsame.waiting, hdrop⟩
      · rw [if_neg hack]
        refine ⟨o, rfl, hq1, hsame.waiting, ?_⟩
        rw [hsame.tx]
        exact .refl htx _
    rw [ho1, bind_some]
    by_cases hdata : 0 < pack.data.length
    · rw [if_pos hdata]
      obtain ⟨o2, ys, ho2, hq3, htx2⟩ := receive_spec o1 hq2 (hw ▸ hp)
      refine ⟨o2, ho2, ⟨htx2 ▸ hdrop.1, ?_, ys, hq3⟩, htx2 ▸ hdrop⟩
      rw [htx2, hdrop.2.1]
      exact hmax
    · rw [if_neg hdata]
      exact ⟨_, rfl, ⟨hdrop.1, hdrop.2.1 ▸ hmax, xs, hq2⟩, hdrop⟩

def Session.SafeCall (s : Session) : Call → Prop
  | .segment _ pack => s.tep.state = .established → AckSafe s.tep pack
  | _ => True

namespace Guards
variable {tep tep' : Endpoint} {s t : Session}

lemma congr (h : Guards tep) (htx : tep'.tx = tep.tx) (hq : tep'.recvQueue = tep.recvQueue)
    (hw : tep'.waiting = tep.waiting) : Guards tep' := by
  obtain ⟨hok, hmax, xs, hqueued⟩ := h
  exact ⟨htx ▸ hok, htx ▸ hmax, xs, hq ▸ hqueued.holds, hw ▸ hqueued.waiting⟩

lemma sameQueues (h : Guards tep) (hsame : SameQueues tep tep') : Guards tep' :=
  h.congr hsame.tx hsame.recvQueue hsame.waiting

lemma listen (h : Guards s.tep) (hp : p ∉ s.tep.waiting) (pack : Packet) :
    Guards (tcpForwardListen s p pack).1.tep := by
  unfold tcpForwardListen
  split_ifs
  · exact h
  · exact h
  · obtain ⟨hok, hmax, xs, hq⟩ := h
    have hpx : p ∉ xs := fun hin => hp (hq.waiting.mem_iff.mpr hin)
    have hholds := hq.holds.insertBetween (k := ()) (x := p) (List.append_nil xs).symm fun _ => hpx
    have hlist : Function.update (fun _ : Unit => xs) () (xs ++ [p]) = fun _ => xs ++ [p] := by
      funext k
      simp
    rw [hlist, ← hq.holds.tail ()] at hholds
    exact ⟨hok, hmax, xs ++ [p], hholds,
      (hq.waiting.cons p).trans (List.perm_append_singleton p xs).symm⟩

lemma accept (h : Guards s.tep) {r : Session × ℕ} (hr : tcpEndpointAccept s = .ok r) :
    Guards r.1.tep := by
  obtain ⟨hok, hmax, xs, hq⟩ := h
  unfold tcpEndpointAccept at hr
  split_ifs at hr
  rw [hq.holds.head ()] at hr
  cases xs with
  | nil => cases hr
  | cons p xs =>
    cases hr
    exact ⟨hok, hmax, xs, hq.removePacket⟩

lemma send (h : Guards tep) {data : List Byte}
    (hroom : data.length ≤ toUnsigned (bufFreeSpace tep.tx)) (rx seq : ℕ) : Guards { tep with
      tx := (bufPutIter tep.tx data).1, rxLastSeq := rx, txLastSeq := seq } := by
  have hnn := h.txOk.used_nonneg
  have hlt := h.txOk.used_lt
  have hmax := h.txMax
  rw [h.txOk.bufFreeSpace_eq, toUnsigned_of_mem (by omega) (by omega)] at hroom
  obtain ⟨pok, pmax, -, -, -⟩ := h.txOk.bufPutIter_spec data (by omega)
  obtain ⟨xs, hq⟩ := h.queued
  exact ⟨pok, pmax.symm ▸ h.txMax, xs, hq.holds, hq.waiting⟩

section
variable {o : Outcome} (h : Guards tep)
include h

lemma synSent {r : Outcome × Bool} (hr : tcpForwardSynSent tep pack = some r) : Guards r.1.1 := by
  obtain ⟨o, ho, hsame, -, -, -, -⟩ := tcpCheckClose_spec tep pack
  rw [tcpForwardSynSent, ho, bind_some] at hr
  have hg := h.sameQueues hsame
  split_ifs at hr
  case neg =>
    rw [reply_ack _ (.inl rfl)] at hr
    cases hr
    exact hg.congr rfl rfl rfl
  all_goals
    cases hr
    exact hg

lemma synRecv (hr : tcpForwardSynRecv tep pack = some o) : Guards o.1 := by
  obtain ⟨o', ho, hsame, -, -, -, -⟩ := tcpCheckClose_spec tep pack
  rw [tcpForwardSynRecv, ho, map_some] at hr
  have hg := h.sameQueues hsame
  split_ifs at hr
  all_goals
    cases hr
    exact hg.congr rfl rfl rfl

lemma closing (hr : tcpForwardClosing tep pack = some o) : Guards o.1 := by
  obtain ⟨o', ho, hsame, -, -, -, -⟩ := tcpCheckClose_spec tep pack
  obtain rfl := some.inj (ho.symm.trans hr)
  exact h.sameQueues hsame
end

lemma segment (h : Guards s.tep) (hp : p ∉ s.tep.waiting)
    (hg : s.tep.state = .established → AckSafe s.tep pack) {r : Handled}
    (hr : tcpForwardPacket s p pack = some r) : Guards r.1.tep := by
  unfold tcpForwardPacket at hr
  cases hstate : s.tep.state with
  | closed =>
    rw [hstate] at hr
    cases hr
    exact h
  | listen =>
    rw [hstate] at hr
    cases hr
    exact h.listen hp pack
  | synSent =>
    rw [hstate] at hr
    obtain ⟨r', hr', rfl⟩ := map_eq_some_iff.mp hr
    have hg' := h.synSent hr'
    split_ifs <;> exact hg'
  | synRecv =>
    rw [hstate] at hr
    obtain ⟨o, ho, rfl⟩ := map_eq_some_iff.mp hr
    exact h.synRecv ho
  | established =>
    rw [hstate] at hr
    obtain ⟨o, ho, rfl⟩ := map_eq_some_iff.mp hr
    obtain ⟨o', ho', hguards, -⟩ := tcpForwardEstablished_ring h hp (hg hstate)
    obtain rfl := some.inj (ho'.symm.trans ho)
    exact hguards
  | _ =>
    rw [hstate] at hr
    obtain ⟨o, ho, rfl⟩ := map_eq_some_iff.mp hr
    exact h.closing ho

lemma step (h : Guards s.tep) {c : Call} (hstep : Guarded Session.SafeCall Session.Step s c t) :
    Guards t.tep := by
  obtain ⟨hg, hperm, hdo⟩ := hstep
  cases c with
  | segment p pack =>
    obtain ⟨r, hr, rfl⟩ := map_eq_some_iff.mp hdo
    exact h.segment hperm.1 hg hr
  | listen queue =>
    obtain rfl | ⟨-, m, rfl⟩ := Session.listen_cases hdo
    · exact h
    · exact h.congr rfl rfl rfl
  | connect addr port isn =>
    obtain rfl | ⟨-, rx, seq, rfl⟩ := Session.connect_cases hdo
    · exact h
    · exact h.congr rfl rfl rfl
  | accept =>
    rw [Session.perform] at hdo
    cases hr : tcpEndpointAccept s with
    | error e =>
      rw [hr] at hdo
      cases hdo
      exact h
    | ok r =>
      rw [hr] at hdo
      cases hdo
      exact h.accept hr
  | shutdown =>
    obtain rfl | ⟨-, rx, seq, rfl⟩ := Session.shutdown_cases hdo
    · exact h
    · exact h.congr rfl rfl rfl
  | send data =>
    obtain rfl | ⟨-, hroom, rx, seq, rfl⟩ := Session.send_cases hdo
    · exact h
    · exact h.send hroom rx seq
  | recv size =>
    obtain rfl | ⟨rx, rfl⟩ := Session.recv_cases hdo
    · exact h
    · exact h.congr rfl rfl rfl

lemma alloc (localPort remoteAddr remotePort : ℕ) (packets : ℕ → Packet) (rxMem txMem : ℤ → Byte) :
    Guards (tcpAllocEndpoint localPort remoteAddr remotePort packets rxMem txMem).tep := by
  obtain ⟨hok, -⟩ := bufInit_ok (by decide : 6 < tcpTxBuffer) (by decide) txMem
  refine ⟨hok, ?_, [], holds_init, .refl _⟩
  have hmax : (bufInit tcpTxBuffer txMem).max = toShort (tcpTxBuffer - 6) := rfl
  change (bufInit tcpTxBuffer txMem).max ≤ 16384
  rw [hmax, toShort_of_mem (by decide) (by decide)]
  decide

lemma fresh (h : Session.Fresh s) : Guards s.tep := by
  cases h with
  | opened localPort packets rxMem txMem => exact alloc _ _ _ _ _ _
  | @accepted l _ _ _ remoteAddr remotePort _ packets rxMem txMem hisn hcreate =>
    rw [tcpCreateClientEndpoint] at hcreate
    obtain ⟨r, hr, he⟩ := map_eq_some_iff.mp hcreate
    cases he
    obtain ⟨rx, tx, hr1⟩ := tcpSendPacket_frame hr
    rw [hr1]
    exact (alloc l.localPort remoteAddr remotePort packets rxMem txMem).congr rfl rfl rfl
end Guards

/-- In every life of an endpoint whose acknowledgements are safe, the sender's ring stays in range
and loses only a beginning of its contents. -/
theorem send_ring_withstands_acks {start s : Session} {cs : List Call}
    (hfresh : Session.Fresh start) (hrun : Run (Guarded Session.SafeCall Session.Step) start cs s)
    (hstate : s.tep.state = .established) {p : ℕ} {pack : Packet}
    (hperm : s.Permitted (.segment p pack)) (hsafe : AckSafe s.tep pack) :
    ∃ o, tcpForwardEstablished s.tep p pack = some o ∧
      tcpForwardPacket s p pack = some (s.after o) ∧
      (0 ≤ o.1.tx.inPos ∧ o.1.tx.inPos < o.1.tx.max) ∧
      (0 ≤ o.1.tx.outPos ∧ o.1.tx.outPos < o.1.tx.max) ∧
      (∃ discarded, s.tep.tx.contents = discarded ++ o.1.tx.contents) ∧
      (Unsent s.tep.txLastSeq pack.acknum → o.1.tx.contents = s.tep.tx.contents) := by
  have h : Guards s.tep := hrun.preserves (I := fun s => Guards s.tep) (Guards.fresh hfresh)
    (fun _ _ _ h hstep => h.step hstep)
  obtain ⟨o, ho, -, hok, -, ⟨n, hdrop⟩, hkept⟩ := tcpForwardEstablished_ring h hperm.1 hsafe
  have hforward : tcpForwardPacket s p pack = some (s.after o) := by
    rw [tcpForwardPacket, hstate]
    dsimp only
    rw [ho, map_some]
  refine ⟨o, ho, hforward, ⟨hok.in_nonneg, hok.in_lt⟩, ⟨hok.out_nonneg, hok.out_lt⟩, ?_, hkept⟩
  exact ⟨s.tep.tx.contents.take n, by rw [hdrop, List.take_append_drop]⟩

instance (s : Session) (c : Call) : Decidable (s.SafeCall c) :=
  match c with
  | .segment .. | .listen _ | .connect .. | .accept | .shutdown | .send _ | .recv _ => by
    dsimp only [Session.SafeCall]; infer_instance

def threeBytesSent : List Call :=
  [.connect 1 80 0, .segment 1 ⟨flagSyn ||| flagAck, 100, 1, []⟩, .send [1, 2, 3]]

theorem far_ack_corrupts : ∃ s,
    Run Session.Step (tcpAllocEndpoint 9 0 0 (fun _ => ⟨0, 0, 0, []⟩) (fun _ => 0) fun _ => 0)
      threeBytesSent s ∧ s.tep.state = .established ∧
    ∃ o, tcpForwardEstablished s.tep 2 ⟨flagAck, 101, 40001, []⟩ = some o ∧ o.1.tx.outPos < 0 := by
  exact exists_run (f := Session.advance fun _ _ => true)
    (fun s c t h => (Session.advance_step h).2) (by decide +kernel)

theorem send_ring_withstands_ack_of_two : ∃ s o, Run (Guarded Session.SafeCall Session.Step)
      (tcpAllocEndpoint 9 0 0 (fun _ => ⟨0, 0, 0, []⟩) (fun _ => 0) fun _ => 0) threeBytesSent s ∧
    tcpForwardEstablished s.tep 2 ⟨flagAck, 101, 3, []⟩ = some o ∧
    ∃ discarded, s.tep.tx.contents = discarded ++ o.1.tx.contents := by
  obtain ⟨s, hrun, hstate, hperm, hsafe⟩ : ∃ s, Run (Guarded Session.SafeCall Session.Step)
        (tcpAllocEndpoint 9 0 0 (fun _ => ⟨0, 0, 0, []⟩) (fun _ => 0) fun _ => 0) threeBytesSent s ∧
      s.tep.state = .established ∧ s.Permitted (.segment 2 ⟨flagAck, 101, 3, []⟩) ∧
      AckSafe s.tep ⟨flagAck, 101, 3, []⟩ :=
    exists_run (guarded_of_advance fun _ _ _ _ => Session.advance_step) (by decide +kernel)
  obtain ⟨o, ho, -, -, -, hprefix, -⟩ :=
    send_ring_withstands_acks (.opened 9 _ _ _) hrun hstate hperm hsafe
  exact ⟨s, o, hrun, ho, hprefix⟩

end Gloworm.Tcp
