import Gloworm.TcpReceive

/-! Transmission: the ring of the sender holds the part of the stream that the peer has not
acknowledged, and segments carry the stream. -/
namespace Gloworm.Tcp
open List Option Word RingBuffer Transition

structure Sending (first : ℕ) (s : Connection) : Prop where
  finSent : s.tep.finSent = false
  state : s.tep.state = .established
  rxWord : s.tep.rxLastSeq < 2 ^ 32
  txOk : s.tep.tx.Ok
  txMax : s.tep.tx.max ≤ 16384
  seq : s.tep.txLastSeq = first + s.accepted.length
  word : s.tep.txLastSeq < 2 ^ 32
  ackedLow : first ≤ s.acked
  ackedHigh : s.acked ≤ s.tep.txLastSeq
  unacked : s.tep.tx.contents = s.accepted.drop (s.acked - first)
  carried : ∀ pack ∈ s.sent, pack.has flagPsh → Carries s.accepted first pack

lemma Carries.append {stream : List Byte} {first : ℕ} {pack : Packet}
    (h : Carries stream first pack) (more : List Byte) : Carries (stream ++ more) first pack := by
  obtain ⟨k, hseq, hlen, hdata⟩ := h
  refine ⟨k, hseq, by rw [length_append]; omega, ?_⟩
  rw [drop_append_of_le_length (by omega), take_append_of_le_length]
  · exact hdata
  · rw [length_drop]
    omega

variable {data : List Byte}

lemma payload_of_length {n : ℕ} (h : data.length = n) : payload data n = data := by
  subst h
  apply ext_getElem (by simp [payload])
  intro i h1 h2
  simp [payload, h2]

lemma tcpSendPacket_push (tep : Endpoint) (hok : tep.tx.Ok) (hmax : tep.tx.max ≤ 16384)
    (hrx : tep.rxLastSeq < 2 ^ 32) {n : ℕ} (hn : (n : ℤ) ≤ tep.tx.used)
    (hj : n = 0 ∨ tep.tx.outPos + (tep.tx.used - n) ≠ tep.tx.max) :
    tcpSendPacket tep (flagPsh ||| flagAck) n 0 =
      some (tep, ⟨flagPsh ||| flagAck, sub32 tep.txLastSeq n, tep.rxLastSeq,
        tep.tx.contents.drop (tep.tx.used - n).toNat⟩) := by
  have hlt := hok.used_lt
  have hout := hok.out_lt
  have hlen := hok.length_contents
  have hpsh : (flagPsh ||| flagAck) &&& flagPsh ≠ 0 := by decide
  have hack : (flagPsh ||| flagAck) &&& flagAck ≠ 0 := by decide
  have hminus : ¬ ((flagPsh ||| flagAck) &&& flagPsh ≠ 0 ∧ (n : ℤ) = -1) := by omega
  have hadd : add32 tep.rxLastSeq 0 = tep.rxLastSeq := add32_of_lt (by omega)
  have hdata : payload (bufPeek tep.tx (toShort (bufUsedSpace tep.tx - n)) (toShort n)) n =
      tep.tx.contents.drop (tep.tx.used - n).toNat := by
    rw [hok.bufUsedSpace_eq, toShort_of_mem (by omega) (by omega),
      toShort_of_mem (by omega) (by omega)]
    rcases hj with rfl | hj
    · rw [drop_of_length_le (by omega)]
      rfl
    · obtain ⟨k, hk⟩ : ∃ k : ℕ, (k : ℤ) = tep.tx.used - n := ⟨(tep.tx.used - n).toNat, by omega⟩
      rw [← hk] at hj ⊢
      rw [hok.bufPeek_spec (by omega) (by omega) hj, Int.toNat_natCast, take_of_length_le]
      · exact payload_of_length (by rw [length_drop]; omega)
      · rw [length_drop]
        omega
  have hnn : ¬ (n : ℤ) < 0 := by omega
  have hword : toUnsigned (n : ℤ) = n := by
    rw [toUnsigned_of_mem (by omega) (by omega), Int.toNat_natCast]
  simp only [tcpSendPacket, if_neg hminus, if_neg hnn, if_pos hack, if_pos hpsh, hadd, hdata, hword]

def Exchange (s : Connection) : Event → Prop
  | .send data => s.tep.txLastSeq + data.length < 2 ^ 32
  | .segment _ pack => pack.data = [] ∧ pack.has flagAck ∧ ¬ pack.has flagRst ∧
    ¬ pack.has flagFin ∧ lastAcked s.tep ≤ pack.acknum ∧ pack.acknum ≤ s.tep.txLastSeq
  | .recv _ => False

def Accepts (tep : Endpoint) (data : List Byte) : Prop :=
  tep.remotePort ≠ 0 ∧ tep.state = .established ∧ data.length ≤ toUnsigned (bufFreeSpace tep.tx)
deriving Decidable

def SparesBound (s : Connection) : Event → Prop
  | .send data => Accepts s.tep data → data ≠ [] → s.tep.tx.inPos = 0 → s.tep.tx.outPos = 0
  | _ => True

namespace Sending
variable {first : ℕ} {s : Connection}

lemma used_eq (h : Sending first s) : s.tep.tx.used = s.tep.txLastSeq - s.acked := by
  have hlen := h.txOk.length_contents
  rw [h.unacked, length_drop] at hlen
  have h1 := h.seq
  have h2 := h.ackedLow
  have h3 := h.ackedHigh
  omega

lemma lastAcked_eq (h : Sending first s) : lastAcked s.tep = s.acked := by
  have hnn := h.txOk.used_nonneg
  have hlt := h.txOk.used_lt
  have hmax := h.txMax
  have hused := h.used_eq
  have hword := h.word
  rw [lastAcked, h.txOk.bufUsedSpace_eq, toUnsigned_of_mem hnn (by omega),
    sub32_of_le (by omega) hword]
  omega

lemma send (h : Sending first s) (hacc : Accepts s.tep data) (hex : Exchange s (.send data))
    (hspare : SparesBound s (.send data)) :
    ∃ t, perform s (.send data) = some t ∧ Sending first t := by
  have hnn := h.txOk.used_nonneg
  have hlt := h.txOk.used_lt
  have hmax := h.txMax
  have hlen := hacc.2.2
  have hex' : s.tep.txLastSeq + data.length < 2 ^ 32 := hex
  rw [h.txOk.bufFreeSpace_eq, toUnsigned_of_mem (by omega) (by omega)] at hlen
  obtain ⟨pok, pmax, pcont, pcount, pout⟩ := h.txOk.bufPutIter_spec data (by omega)
  have hsize : toUnsigned (data.length : ℤ) = data.length := by
    rw [toUnsigned_of_mem (by omega) (by omega), Int.toNat_natCast]
  have hadd : add32 s.tep.txLastSeq data.length = s.tep.txLastSeq + data.length := add32_of_lt hex'
  have pused : (bufPutIter s.tep.tx data).1.used = s.tep.tx.used + data.length := by
    rw [← pok.length_contents, pcont, length_append, Nat.cast_add, h.txOk.length_contents]
  obtain ⟨tep', htep⟩ : ∃ tep' : Endpoint, tep' = { s.tep with
      tx := (bufPutIter s.tep.tx data).1, txLastSeq := s.tep.txLastSeq + data.length } := ⟨_, rfl⟩
  have hbound : data.length = 0 ∨ tep'.tx.outPos + (tep'.tx.used - data.length) ≠ tep'.tx.max := by
    by_cases hnil : data = []
    · exact .inl (by simp [hnil])
    · right
      have hsp := hspare hacc hnil
      obtain ⟨h1, h2, h3, h4, h5⟩ := h.txOk
      simp only [htep, pout, pused, pmax]
      unfold Ring.used
      split_ifs <;> omega
  have hpush := tcpSendPacket_push tep' (by rw [htep]; exact pok)
    (by rw [htep]; exact pmax.trans_le hmax) (by rw [htep]; exact h.rxWord)
    (n := data.length) (by simp only [htep, pused]; omega) hbound
  have hdrop : tep'.tx.contents.drop (tep'.tx.used - data.length).toNat = data := by
    have hl := h.txOk.length_contents
    simp only [htep, pcont, pused]
    rw [drop_append_of_le_length (by omega), drop_of_length_le (by omega), nil_append]
  have hseq : sub32 tep'.txLastSeq data.length = s.tep.txLastSeq := by
    simp only [htep]
    rw [sub32_of_le (by omega) hex']
    omega
  rw [hdrop, hseq] at hpush
  have hstate : ¬ (s.tep.state ≠ .established ∨
      toUnsigned (bufFreeSpace s.tep.tx) < data.length) := by
    rintro (hne | hlt')
    · exact hne hacc.2.1
    · exact absurd hacc.2.2 (not_le.mpr hlt')
  refine ⟨{ s with
    tep := tep'
    sent := s.sent ++ [⟨flagPsh ||| flagAck, s.tep.txLastSeq, tep'.rxLastSeq, data⟩]
    accepted := s.accepted ++ data }, by simp only [perform, tcpEndpointSend, if_neg hacc.1,
      if_neg hstate, pcount, hsize, hadd, ← htep, hpush, map_some], ?_⟩
  have hs := h.seq
  have hlow := h.ackedLow
  have hhigh := h.ackedHigh
  rw [htep]
  refine ⟨h.finSent, h.state, h.rxWord, pok, pmax.trans_le hmax, ?_, hex', hlow, ?_, ?_, ?_⟩
  · simp only [length_append]
    omega
  · simp only
    omega
  · simp only [pcont, h.unacked]
    rw [drop_append_of_le_length (by omega)]
  · intro pack hpack hpsh
    rcases mem_append.mp hpack with hold | hnew
    · exact (h.carried pack hold hpsh).append data
    · obtain rfl := mem_singleton.mp hnew
      refine ⟨s.accepted.length, hs, by simp, ?_⟩
      simp

lemma send_refused (hacc : ¬ Accepts s.tep data) : perform s (.send data) = some s := by
  by_cases hport : s.tep.remotePort = 0
  · simp only [perform, tcpEndpointSend, if_pos hport]
  · have hstate : s.tep.state ≠ .established ∨
        toUnsigned (bufFreeSpace s.tep.tx) < data.length := by
      by_contra hno
      rw [not_or, not_not, not_lt] at hno
      exact hacc ⟨hport, hno.1, hno.2⟩
    simp only [perform, tcpEndpointSend, if_neg hport, if_pos hstate]

section
variable (h : Sending first s)
include h

lemma discard {acknum : ℕ} (hlow : s.acked ≤ acknum) (hhigh : acknum ≤ s.tep.txLastSeq) :
    Sending first { s with tep := discardAcked s.tep acknum, acked := acknum } := by
  have hlast := h.lastAcked_eq
  have hused := h.used_eq
  have hlt := h.txOk.used_lt
  have hmax := h.txMax
  have hword := h.word
  have hfirst := h.ackedLow
  by_cases hnew : lastAcked s.tep < acknum
  · rw [discardAcked, if_pos hnew, hlast, sub32_of_le hlow (by omega),
      toShort_of_mem (by omega) (by omega)]
    obtain ⟨dok, dmax, dcont, _⟩ := h.txOk.bufDrop_spec
      (n := acknum - s.acked) (by omega) (by have := h.txOk.out_lt; omega)
    refine ⟨h.finSent, h.state, h.rxWord, dok, dmax.trans_le hmax, h.seq, hword, hfirst.trans hlow, hhigh, ?_,
      h.carried⟩
    simp only [dcont, h.unacked, drop_drop]
    congr 1
    omega
  · have heq : acknum = s.acked := by omega
    rw [discardAcked, if_neg hnew, heq]
    exact h

lemma resend (sent : List Packet) (done : Bool) :
    ∃ o, reply (s.tep, sent, done) (flagPsh ||| flagAck) (-1) 0 done = some o ∧ o.1 = s.tep ∧
      ∃ pack, o.2.1 = sent ++ [pack] ∧ Carries s.accepted first pack := by
  have hnn := h.txOk.used_nonneg
  have hlt := h.txOk.used_lt
  have hused := h.used_eq
  have hs := h.seq
  have hlow := h.ackedLow
  have hhigh := h.ackedHigh
  have hcast : ((s.tep.txLastSeq - s.acked : ℕ) : ℤ) = s.tep.tx.used := by omega
  have hpush := tcpSendPacket_push s.tep h.txOk h.txMax h.rxWord (n := s.tep.txLastSeq - s.acked) (by omega)
    (by
      right
      rw [hcast, sub_self, add_zero]
      exact h.txOk.out_lt.ne)
  have hminus : tcpSendPacket s.tep (flagPsh ||| flagAck) (-1) 0 =
      tcpSendPacket s.tep (flagPsh ||| flagAck) (s.tep.txLastSeq - s.acked : ℕ) 0 := by
    have hpsh : ((flagPsh ||| flagAck) &&& flagPsh ≠ 0) = True := eq_true (by decide)
    have hnat : (s.tep.tx.used = -1) = False := eq_false (by omega)
    simp only [tcpSendPacket, hpsh, hcast, hnat, h.txOk.bufUsedSpace_eq, and_true, and_false,
      if_true, if_false]
  rw [reply, hminus, hpush]
  refine ⟨_, rfl, rfl, _, rfl, s.acked - first, ?_, ?_, ?_⟩
  · simp only
    rw [sub32_of_le (by omega) h.word]
    omega
  · simp only [hcast, sub_self, Int.toNat_zero, drop_zero, h.unacked, length_drop]
    omega
  · simp only [hcast, sub_self, Int.toNat_zero, drop_zero, h.unacked]
    rw [take_of_length_le le_rfl]

lemma setRepeated (n : ℤ) : Sending first { s with tep := { s.tep with txAcksRepeated := n } } :=
  ⟨h.finSent, h.state, h.rxWord, h.txOk, h.txMax, h.seq, h.word, h.ackedLow, h.ackedHigh, h.unacked,
    h.carried⟩

lemma repeatedAck : ∃ o, repeatedAck (s.tep, [], false) = some o ∧
      Sending first { s with tep := o.1, sent := s.sent ++ o.2.1 } ∧ o.2.2 = false := by
  by_cases hthird : 3 ≤ toShort (s.tep.txAcksRepeated + 1)
  · obtain ⟨o, hreply, htep, pack, hsent, hpack⟩ := (h.setRepeated 0).resend [] false
    have hdone := (reply_same hreply h.rxWord (.inr rfl)).2
    refine ⟨o, by simp only [Tcp.repeatedAck, if_pos hthird]; exact hreply, ?_, hdone⟩
    rw [htep, hsent]
    refine { h.setRepeated 0 with carried := ?_ }
    intro p hp hpsh
    rcases mem_append.mp hp with hold | hnew
    · exact h.carried p hold hpsh
    · obtain rfl := mem_singleton.mp hnew
      exact hpack
  · refine ⟨({ s.tep with txAcksRepeated := toShort (s.tep.txAcksRepeated + 1) }, [], false),
      by simp only [Tcp.repeatedAck, if_neg hthird], ?_, rfl⟩
    rw [append_nil]
    exact h.setRepeated _

lemma ack {p : ℕ} {pack : Packet} (hex : Exchange s (.segment p pack)) :
    ∃ t, perform s (.segment p pack) = some t ∧ Sending first t := by
  obtain ⟨hdata, hack, hrst, hfin, hlow, hhigh⟩ := hex
  rw [h.lastAcked_eq] at hlow
  have hd := h.discard hlow hhigh
  have hclose := tcpCheckClose_open h.finSent hrst hfin
  have hnodata : ¬ 0 < pack.data.length := by simp [hdata]
  have hmax : max s.acked pack.acknum = pack.acknum := max_eq_right hlow
  obtain ⟨o, hrun, hs, hdone⟩ : ∃ o, acknowledge (s.tep, [], false) pack = some o ∧
      Sending first { s with tep := o.1, sent := s.sent ++ o.2.1, acked := pack.acknum } ∧
      o.2.2 = false := by
    by_cases hmissing : (if lastAcked s.tep < pack.acknum then pack.acknum else lastAcked s.tep) <
        s.tep.txLastSeq
    · obtain ⟨o, hrep, hs, hdone⟩ := hd.repeatedAck
      exact ⟨o, by simp only [acknowledge, if_pos hmissing]; exact hrep, hs, hdone⟩
    · refine ⟨(discardAcked s.tep pack.acknum, [], false),
        by simp only [acknowledge, if_neg hmissing], ?_, rfl⟩
      rw [append_nil]
      exact hd
  have hforward : tcpForwardEstablished s.tep p pack = some (o.1, o.2.1, true) := by
    rw [tcpForwardEstablished, hclose, bind_some, if_neg (by simp), if_pos hack, hrun,
      bind_some, if_neg hnodata]
  refine ⟨{ s with tep := o.1, sent := s.sent ++ o.2.1, acked := pack.acknum }, ?_, hs⟩
  rw [perform, hforward, map_some, if_pos hack, hmax]

lemma step {e : Event} (hex : Exchange s e) (hspare : SparesBound s e) :
    ∃ t, perform s e = some t ∧ Sending first t := by
  cases e with
  | segment p pack => exact h.ack hex
  | send data =>
    by_cases hacc : Accepts s.tep data
    · exact h.send hacc hex hspare
    · exact ⟨s, send_refused hacc, h⟩
  | recv size => exact absurd hex id
end
end Sending

lemma sending_established {first rxLastSeq : ℕ} (hword : first < 2 ^ 32)
    (hrx : rxLastSeq < 2 ^ 32) (remotePort : ℕ) (packets : ℕ → Packet) (rxMem txMem : ℤ → Byte) :
    Sending first (connect (established remotePort first rxLastSeq packets rxMem txMem)) := by
  obtain ⟨hok, hcont⟩ := bufInit_ok (by decide : 6 < tcpTxBuffer) (by decide) txMem
  refine ⟨rfl, rfl, hrx, hok, ?_, rfl, hword, le_rfl, le_rfl, ?_, by simp [connect]⟩
  · have hmax : (bufInit tcpTxBuffer txMem).max = 1018 := by
      rw [bufInit, tcpTxBuffer]
      exact toShort_of_mem (by decide) (by decide)
    exact hmax.trans_le (by decide)
  · rw [connect, drop_nil]
    exact hcont

/-- While no data is sent with the ring's `in` at zero and its `out` elsewhere, each segment carries
the stream at its sequence number and the ring holds the unacknowledged rest. -/
theorem transmitted_in_order {first rxLastSeq : ℕ} (hword : first < 2 ^ 32)
    (hrx : rxLastSeq < 2 ^ 32) {remotePort : ℕ} {packets : ℕ → Packet} {rxMem txMem : ℤ → Byte}
    {es : List Event} {s : Connection}
    (hrun : Run (Guarded (fun s e => Exchange s e ∧ SparesBound s e) Step)
      (connect (established remotePort first rxLastSeq packets rxMem txMem)) es s) :
    (∀ pack ∈ s.sent, pack.has flagPsh → Carries s.accepted first pack) ∧
    s.tep.txLastSeq = first + s.accepted.length ∧
    s.tep.tx.contents = s.accepted.drop (s.acked - first) ∧
    ∀ e, Permitted s e → Exchange s e → SparesBound s e → ∃ t, Step s e t := by
  have h : Sending first s := hrun.preserves
    (sending_established hword hrx remotePort packets rxMem txMem) (by
      rintro s e t h ⟨⟨hex, hspare⟩, _, hdo⟩
      obtain ⟨t', ht', hs'⟩ := h.step hex hspare
      obtain rfl : t' = t := some.inj (ht'.symm.trans hdo)
      exact hs')
  refine ⟨h.carried, h.seq, h.unacked, ?_⟩
  intro e hp hex hspare
  obtain ⟨t, ht, _⟩ := h.step hex hspare
  exact ⟨t, hp, ht⟩

instance (s : Connection) (e : Event) : Decidable (Exchange s e) :=
  match e with
  | .segment .. | .recv _ | .send _ => by dsimp only [Exchange]; infer_instance

instance (s : Connection) (e : Event) : Decidable (SparesBound s e) :=
  match e with
  | .segment .. | .recv _ | .send _ => by dsimp only [SparesBound]; infer_instance

def sendAroundTheRing : List Event :=
  [.send (List.replicate 1000 1), .segment 1 ⟨flagAck, 100, 1000, []⟩,
    .send (List.replicate 18 2), .send [7]]

/-- A send peeks at the end of the ring. -/
theorem send_at_bound_corrupts : ∃ s, Run (Guarded Exchange Step)
      (connect (established 80 0 100 (fun _ => ⟨0, 0, 0, []⟩) (fun _ => 0) (fun _ => 9)))
      sendAroundTheRing s ∧ s.accepted.drop 1018 = [7] ∧
    ∃ pack ∈ s.sent, pack.has flagPsh ∧ pack.seqnum = 1018 ∧ pack.data = [9] := by
  exact exists_run (guarded_of_advance fun _ _ _ _ => advance_step) (by decide +kernel)

theorem transmitted_in_order_twice : ∃ s,
    Run (Guarded (fun s e => Exchange s e ∧ SparesBound s e) Step)
      (connect (established 80 50 100 (fun _ => ⟨0, 0, 0, []⟩) (fun _ => 0) (fun _ => 0)))
      [.send [1, 2], .segment 1 ⟨flagAck, 100, 51, []⟩, .send [3]] s ∧
    s.tep.tx.contents = s.accepted.drop (s.acked - 50) ∧
    ∀ pack ∈ s.sent, pack.has flagPsh → Carries s.accepted 50 pack := by
  refine (exists_run (p := fun _ => True) (guarded_of_advance fun _ _ _ _ => advance_step)
    (by decide +kernel)).imp fun s ⟨hrun, _⟩ => ⟨hrun, ?_⟩
  obtain ⟨hcarried, _, hring, _⟩ := transmitted_in_order (by decide) (by decide) hrun
  exact ⟨hring, hcarried⟩

/-- The network hands over sent data segments, in any order and any number of times. -/
def FromNetwork (sent : List Packet) (s : Connection) : Event → Prop
  | .segment _ pack => pack ∈ sent ∧ pack.flags = flagPsh ||| flagAck
  | .recv size => ¬ bufIsEmpty s.tep.rx ∧ size < 2 ^ 32
  | .send _ => False

/-- What one end has received is a beginning of what the other accepted, and unless more was
acknowledged than received, the rest is in the ring. -/
theorem transfer_in_order {first second port port' : ℕ} {packets packets' : ℕ → Packet}
    {rxMem txMem rxMem' txMem' : ℤ → Byte} {es es' : List Event} {s t : Connection}
    (hfirst : first < 2 ^ 32) (hsecond : second < 2 ^ 32)
    (hsender : Run (Guarded (fun s e => Exchange s e ∧ SparesBound s e) Step)
      (connect (established port first second packets rxMem txMem)) es s)
    (hreceiver : Run (Guarded (FromNetwork s.sent) Step)
      (connect (established port' second first packets' rxMem' txMem')) es' t) :
    t.delivered ++ t.tep.rx.contents <+: s.accepted ∧ (s.acked ≤ t.tep.rxLastSeq →
      (t.delivered ++ t.tep.rx.contents).take (s.acked - first) ++ s.tep.tx.contents = s.accepted) := by
  have hs : Sending first s := hsender.preserves
    (sending_established hfirst hsecond port packets rxMem txMem) (by
      rintro s e t h ⟨⟨hex, hspare⟩, -, hdo⟩
      obtain ⟨t', ht', hs'⟩ := h.step hex hspare
      obtain rfl : t' = t := some.inj (ht'.symm.trans hdo)
      exact hs')
  have hfit : first + s.accepted.length ≤ 2 ^ 32 := hs.seq ▸ hs.word.le
  have hr : Receiving s.accepted first t := hreceiver.preserves
    (receiving_established hfirst port' second packets' rxMem' txMem') (by
      rintro t e u h ⟨hg, hstep⟩
      refine h.step hfit ⟨?_, hstep⟩
      cases e with
      | segment p pack =>
        obtain ⟨hsent, hflags⟩ := hg
        refine ⟨hs.carried pack hsent ?_, ?_, ?_⟩ <;> simp [Packet.has, hflags] <;> decide
      | recv size => exact hg
      | send data => exact hg)
  obtain ⟨xs, hrec⟩ := hr.received
  rw [hrec.inOrder]
  refine ⟨ take_prefix _ _, fun hacked => ?_⟩
  rw [take_take, min_eq_left (by omega), hs.unacked, take_append_drop]

instance (sent : List Packet) (s : Connection) (e : Event) : Decidable (FromNetwork sent s e) :=
  match e with
  | .segment .. | .recv _ | .send _ => by dsimp only [FromNetwork]; infer_instance

/-- The later segment arrives first. -/
theorem transfer_in_order_swapped : ∃ s,
    Run (Guarded (fun s e => Exchange s e ∧ SparesBound s e) Step)
      (connect (established 80 100 7 (fun _ => ⟨0, 0, 0, []⟩) (fun _ => 0) fun _ => 0))
      [.send [1, 2], .send [3]] s ∧ ∃ t, Run (Guarded (FromNetwork s.sent) Step)
      (connect (established 9 7 100 (fun _ => ⟨0, 0, 0, []⟩) (fun _ => 0) fun _ => 0))
      [.segment 1 ⟨24, 102, 7, [3]⟩, .segment 2 ⟨24, 100, 7, [1, 2]⟩] t ∧
    t.delivered ++ t.tep.rx.contents <+: s.accepted := by
  refine (exists_run (p := fun s => s.sent = [⟨24, 100, 7, [1, 2]⟩, ⟨24, 102, 7, [3]⟩])
    (guarded_of_advance fun _ _ _ _ => advance_step) (by decide +kernel)).imp
    fun s ⟨hs, hsent⟩ => ⟨hs, ?_⟩
  exact (exists_run (p := fun _ => True) (guarded_of_advance fun _ _ _ _ => advance_step)
    (by rw [hsent]; decide +kernel)).imp fun t ⟨ht, _⟩ =>
      ⟨ht, (transfer_in_order (by decide) (by decide) hs ht).1⟩

end Gloworm.Tcp
