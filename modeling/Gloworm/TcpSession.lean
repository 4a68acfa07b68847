import Gloworm.TcpReceive

/-! The whole life of an endpoint of `tcp.c`: the dispatch of an incoming packet over the states,
the calls of its owner, and the endpoints that listening ones create. -/
namespace Gloworm.Tcp
open Option Word RingBuffer Queue Transition

/-- An endpoint with its addresses and its queue of connections. -/
structure Session where
  tep : Endpoint
  localPort : ℕ
  remoteAddr : ℕ
  queueSize : ℤ
  listenQueueMax : ℤ
  connectReturn : ℤ

inductive CallError
  | einval
  | eisconn
  | ewouldblock
  | failed (code : ℤ)
  deriving DecidableEq, Repr

abbrev Handled := Session × List Packet × Bool

def Session.after (s : Session) (o : Outcome) : Handled :=
  (⟨o.1, s.localPort, s.remoteAddr, s.queueSize, s.listenQueueMax, s.connectReturn⟩, o.2)

def toChar (z : ℤ) : ℤ := (z + 128) % 256 - 128

/-- Queue a connection that asks to be accepted. -/
def tcpForwardListen (s : Session) (p : ℕ) (pack : Packet) : Handled :=
  if pack.flags ≠ flagSyn then (s, [], false)
  else if s.listenQueueMax ≤ s.queueSize then (s, [], false)
  else
    ({ s with
      tep := { s.tep with
        recvQueue := queueInsertAfter s.tep.recvQueue () p (s.tep.recvQueue.tail ())
        packets := Function.update s.tep.packets p pack
        waiting := p :: s.tep.waiting }
      queueSize := s.queueSize + 1 }, [], true)

/-- The acknowledgement that completes an accepted connection. -/
def tcpForwardSynRecv (tep : Endpoint) (pack : Packet) : Option Outcome :=
  (tcpCheckClose tep pack).map fun o =>
    if o.2.2 then o
    else if pack.flags ≠ flagAck then o
    else if pack.seqnum ≠ o.1.rxLastSeq then o
    else ({ o.1 with txLastSeq := pack.acknum, txAcksRepeated := 0, state := .established },
      o.2.1, true)

/-- The answer to a connection that was asked for. -/
def tcpForwardSynSent (tep : Endpoint) (pack : Packet) : Option (Outcome × Bool) :=
  (tcpCheckClose tep pack).bind fun o =>
    if o.2.2 then some (o, false)
    else if pack.flags ≠ flagSyn ||| flagAck then some (o, false)
    else if pack.acknum ≠ o.1.txLastSeq then some (o, false)
    else
      (reply ({ o.1 with rxLastSeq := pack.seqnum, state := .established }, o.2) flagAck 0 1
        true).map fun o => (o, true)

def tcpForwardClosing (tep : Endpoint) (pack : Packet) : Option Outcome := tcpCheckClose tep pack

/-- The state of the endpoint says who handles the segment. -/
def tcpForwardPacket (s : Session) (p : ℕ) (pack : Packet) : Option Handled :=
  match s.tep.state with
  | .closed => some (s, [], false)
  | .listen => some (tcpForwardListen s p pack)
  | .synSent => (tcpForwardSynSent s.tep pack).map fun r =>
    if r.2 then { s with connectReturn := 1 }.after r.1 else s.after r.1
  | .synRecv => (tcpForwardSynRecv s.tep pack).map s.after
  | .established => (tcpForwardEstablished s.tep p pack).map s.after
  | _ => (tcpForwardClosing s.tep pack).map s.after

def tcpAllocEndpoint (localPort remoteAddr remotePort : ℕ) (packets : ℕ → Packet)
    (rxMem txMem : ℤ → Byte) : Session :=
  ⟨⟨remotePort, queueInit, packets, [], .closed, false, false, 0, 0, 0,
    bufInit tcpRxBuffer rxMem, bufInit tcpTxBuffer txMem⟩, localPort, remoteAddr, 0, 0, 0⟩

def tcpEndpointListen (s : Session) (queue : ℤ) : Session × Except CallError Unit :=
  if s.tep.state ≠ .closed then (s, .error .eisconn)
  else ({ s with
    tep := { s.tep with state := .listen }
    listenQueueMax := toChar (if queue < 10 then queue else 10) }, .ok ())

def tcpEndpointConnect (s : Session) (addr port isn : ℕ) :
    Option (Session × List Packet × Except CallError Unit) :=
  if s.tep.state = .established ∧ s.connectReturn ≠ 0 then
    some (s, [], if s.connectReturn < 0 then .error (.failed s.connectReturn) else .ok ())
  else if s.tep.state ≠ .closed then some (s, [], .error .eisconn)
  else
    (tcpSendPacket { s.tep with remotePort := port, txLastSeq := isn, txAcksRepeated := 0 }
      flagSyn 0 1).map fun r =>
        ({ s with tep := { r.1 with state := .synSent }, remoteAddr := addr }, [r.2],
          .error .ewouldblock)

/-- Send a FIN and wait for its acknowledgement. -/
def tcpEndpointShutdown (s : Session) : Option (Session × List Packet) :=
  if s.tep.state ≠ .synRecv ∧ s.tep.state ≠ .established ∧ s.tep.state ≠ .closeWait then
    some (s, [])
  else
    (tcpSendPacket { s.tep with finSent := true } (flagFin ||| flagAck) 0 0).map fun r =>
      ({ s with tep := { r.1 with
        state := if r.1.state = .closeWait then .lastAck else .finWait1 } }, [r.2])

def tcpCreateClientEndpoint (s : Session) (pack : Packet) (remoteAddr remotePort isn : ℕ)
    (packets : ℕ → Packet) (rxMem txMem : ℤ → Byte) : Option (Session × Packet) :=
  let client := tcpAllocEndpoint s.localPort remoteAddr remotePort packets rxMem txMem
  (tcpSendPacket { client.tep with
    state := .synRecv, rxLastSeq := pack.seqnum, txLastSeq := isn } (flagSyn ||| flagAck) 0 1).map
      fun r => ({ client with tep := r.1 }, r.2)

/-- Take the first connection that waits. -/
def tcpEndpointAccept (s : Session) : Except CallError (Session × ℕ) :=
  if s.tep.state ≠ .listen then .error .einval
  else match s.tep.recvQueue.head () with
    | none => .error .ewouldblock
    | some p => .ok ({ s with tep := removePacket s.tep p, queueSize := s.queueSize - 1 }, p)

inductive Call
  | segment (p : ℕ) (pack : Packet)
  | listen (queue : ℤ)
  | connect (addr port isn : ℕ)
  | accept
  | shutdown
  | send (data : List Byte)
  | recv (size : ℕ)
  deriving DecidableEq

namespace Session

def perform (s : Session) : Call → Option Session
  | .segment p pack => (tcpForwardPacket s p pack).map Prod.fst
  | .listen queue => some (tcpEndpointListen s queue).1
  | .connect addr port isn => (tcpEndpointConnect s addr port isn).map Prod.fst
  | .accept => match tcpEndpointAccept s with
    | .error _ => some s
    | .ok r => some r.1
  | .shutdown => (tcpEndpointShutdown s).map Prod.fst
  | .send data => match tcpEndpointSend s.tep data with
    | .error _ => some s
    | .ok r => r.map fun r => { s with tep := r.1 }
  | .recv size => match tcpEndpointRecv s.tep size with
    | .error _ => some s
    | .ok r => some { s with tep := r.1 }

def Permitted (s : Session) : Call → Prop
  | .segment p pack => p ∉ s.tep.waiting ∧ pack.seqnum < 2 ^ 32 ∧ pack.acknum < 2 ^ 32
  | .connect _ _ isn => isn < 2 ^ 32
  | _ => True

def Step (s : Session) (c : Call) (t : Session) : Prop := Permitted s c ∧ s.perform c = some t

inductive Fresh : Session → Prop
  | opened (localPort : ℕ) (packets : ℕ → Packet) (rxMem txMem : ℤ → Byte) :
      Fresh (tcpAllocEndpoint localPort 0 0 packets rxMem txMem)
  | accepted {s t : Session} {pack syn : Packet} {remoteAddr remotePort isn : ℕ}
      {packets : ℕ → Packet} {rxMem txMem : ℤ → Byte} (hisn : isn < 2 ^ 32)
      (hcreate : tcpCreateClientEndpoint s syn remoteAddr remotePort isn packets rxMem txMem =
        some (t, pack)) : Fresh t
end Session

instance (s : Session) (c : Call) : Decidable (s.Permitted c) := by
  cases c <;> unfold Session.Permitted <;> infer_instance

def Session.advance (guard : Session → Call → Bool) (s : Session) (c : Call) : Option Session :=
  if guard s c ∧ s.Permitted c then s.perform c else none

lemma Session.advance_step {guard : Session → Call → Bool} {s t : Session} {c : Call}
    (h : s.advance guard c = some t) : guard s c = true ∧ s.Step c t := by
  unfold Session.advance at h
  split_ifs at h with hc
  exact ⟨hc.1, hc.2, h⟩

namespace Session
variable {s t : Session}

lemma listen_cases {queue : ℤ} (h : s.perform (.listen queue) = some t) : t = s ∨
    s.tep.state = .closed ∧
      ∃ m, t = { s with tep := { s.tep with state := .listen }, listenQueueMax := m } := by
  obtain rfl := some.inj h
  by_cases hclosed : s.tep.state = .closed
  · rw [tcpEndpointListen, if_neg (not_not.mpr hclosed)]
    exact .inr ⟨hclosed, _, rfl⟩
  · rw [tcpEndpointListen, if_pos hclosed]
    exact .inl rfl

lemma connect_cases {addr port isn : ℕ} (h : s.perform (.connect addr port isn) = some t) :
    t = s ∨ s.tep.state = .closed ∧ ∃ rx seq, t = { s with
      tep := { s.tep with
        remotePort := port, rxLastSeq := rx, txLastSeq := seq, txAcksRepeated := 0,
        state := .synSent }
      remoteAddr := addr } := by
  obtain ⟨r, hr, rfl⟩ := map_eq_some_iff.mp h
  rw [tcpEndpointConnect] at hr
  by_cases hdone : s.tep.state = .established ∧ s.connectReturn ≠ 0
  · rw [if_pos hdone] at hr
    exact .inl (some.inj hr ▸ rfl)
  · rw [if_neg hdone] at hr
    by_cases hclosed : s.tep.state = .closed
    · rw [if_neg (not_not.mpr hclosed)] at hr
      obtain ⟨r', hr', rfl⟩ := map_eq_some_iff.mp hr
      obtain ⟨rx, seq, hframe⟩ := tcpSendPacket_frame hr'
      exact .inr ⟨hclosed, rx, seq, by rw [hframe]⟩
    · rw [if_pos hclosed] at hr
      exact .inl (some.inj hr ▸ rfl)

lemma shutdown_cases (h : s.perform .shutdown = some t) : t = s ∨
    (s.tep.state ≠ .closed ∧ s.tep.state ≠ .listen) ∧ ∃ rx seq, t = { s with
      tep := { s.tep with
        finSent := true, rxLastSeq := rx, txLastSeq := seq,
        state := if s.tep.state = .closeWait then .lastAck else .finWait1 } } := by
  obtain ⟨r, hr, rfl⟩ := map_eq_some_iff.mp h
  rw [tcpEndpointShutdown] at hr
  split_ifs at hr with hidle
  · exact .inl (some.inj hr ▸ rfl)
  · obtain ⟨r', hr', rfl⟩ := map_eq_some_iff.mp hr
    obtain ⟨rx, seq, hframe⟩ := tcpSendPacket_frame hr'
    refine .inr ⟨⟨fun he => ?_, fun he => ?_⟩, rx, seq, by rw [hframe]⟩
    · simp [he] at hidle
    · simp [he] at hidle

lemma send_cases {data : List Byte} (h : s.perform (.send data) = some t) : t = s ∨
    s.tep.state = .established ∧ data.length ≤ toUnsigned (bufFreeSpace s.tep.tx) ∧
      ∃ rx seq, t = { s with tep := { s.tep with
        tx := (bufPutIter s.tep.tx data).1, rxLastSeq := rx, txLastSeq := seq } } := by
  rw [perform, tcpEndpointSend] at h
  split_ifs at h with hport hfull
  · exact .inl (some.inj h).symm
  · exact .inl (some.inj h).symm
  · obtain ⟨hstate, hroom⟩ := not_or.mp hfull
    obtain ⟨r, hr, rfl⟩ := map_eq_some_iff.mp h
    obtain ⟨r', hr', rfl⟩ := map_eq_some_iff.mp hr
    obtain ⟨rx, seq, hframe⟩ := tcpSendPacket_frame hr'
    exact .inr ⟨not_not.mp hstate, not_lt.mp hroom, rx, seq, by rw [hframe]⟩

lemma recv_cases {size : ℕ} (h : s.perform (.recv size) = some t) :
    t = s ∨ ∃ rx, t = { s with tep := { s.tep with rx := rx } } := by
  rw [perform] at h
  cases hr : tcpEndpointRecv s.tep size with
  | error e =>
    rw [hr] at h
    exact .inl (some.inj h).symm
  | ok r =>
    rw [hr] at h
    obtain rfl := some.inj h
    unfold tcpEndpointRecv at hr
    split at hr
    · cases hr
      exact .inl rfl
    · cases hr
    · cases hr
    · cases hr
    · dsimp only at hr
      split_ifs at hr
      cases hr
      exact .inr ⟨_, rfl⟩
end Session

/-- The close check finishes with the segment. A FIN is looked at after an RST has been counted. -/
def Closes (tep : Endpoint) (pack : Packet) : Prop :=
  if pack.has flagFin then
    pack.seqnum = if pack.has flagRst then add32 tep.rxLastSeq 1 else tep.rxLastSeq
  else pack.has flagRst ∨ (tep.finSent = true ∧ pack.has flagAck ∧ pack.acknum = tep.txLastSeq)
deriving Decidable

structure SameQueues (tep tep' : Endpoint) : Prop where
  tx : tep'.tx = tep.tx
  rx : tep'.rx = tep.rx
  recvQueue : tep'.recvQueue = tep.recvQueue
  packets : tep'.packets = tep.packets
  waiting : tep'.waiting = tep.waiting
  txLastSeq : tep'.txLastSeq = tep.txLastSeq
  txAcksRepeated : tep'.txAcksRepeated = tep.txAcksRepeated
  finSent : tep'.finSent = tep.finSent
  remotePort : tep'.remotePort = tep.remotePort

lemma closeOnRst_spec (tep : Endpoint) (pack : Packet) :
    ∃ o, closeOnRst tep pack = some o ∧ SameQueues tep o.1 ∧
      (pack.has flagRst → o.1.state = .closing ∧ o.1.rxLastSeq = add32 tep.rxLastSeq 1 ∧
        o.2.2 = true) ∧
      (¬ pack.has flagRst → o = (tep, [], false)) := by
  by_cases hrst : pack.has flagRst
  · rw [closeOnRst, if_pos hrst, reply_ack _ (Or.inr rfl)]
    exact ⟨_, rfl, ⟨rfl, rfl, rfl, rfl, rfl, rfl, rfl, rfl, rfl⟩, fun _ => ⟨rfl, rfl, rfl⟩,
      fun hno => absurd hrst hno⟩
  · rw [closeOnRst, if_neg hrst]
    exact ⟨_, rfl, ⟨rfl, rfl, rfl, rfl, rfl, rfl, rfl, rfl, rfl⟩, fun hyes => absurd hyes hrst,
      fun _ => rfl⟩

lemma closeOnFin_match (o : Outcome) {pack : Packet} (hfin : pack.has flagFin)
    (hmatch : pack.seqnum = o.1.rxLastSeq) : closeOnFin o pack = some (({ o.1 with
      finRecv := true
      state := if o.1.state = .established then .closeWait else .closing
      rxLastSeq := add32 o.1.rxLastSeq 1 },
      o.2.1 ++ [⟨flagAck, o.1.txLastSeq, add32 o.1.rxLastSeq 1, []⟩], true), false) := by
  have hne : ¬ pack.seqnum ≠ o.1.rxLastSeq := not_not.mpr hmatch
  simp only [closeOnFin, if_pos hfin, if_neg hne, reply_ack _ (Or.inl rfl), map_some]

lemma tcpCheckClose_spec (tep : Endpoint) (pack : Packet) :
    ∃ o, tcpCheckClose tep pack = some o ∧ SameQueues tep o.1 ∧ (o.2.2 = true ↔ Closes tep pack) ∧
      (Closes tep pack → o.1.state = .closed ∨ o.1.state = .closing ∨ o.1.state = .closeWait) ∧
      (¬ Closes tep pack → pack.has flagRst → o.1.state = .closing) ∧
      (¬ Closes tep pack → ¬ pack.has flagRst →
        o.1 = { tep with finRecv := tep.finRecv || decide (pack.has flagFin) }) := by
  obtain ⟨o, ho, hq, hrst, hno⟩ := closeOnRst_spec tep pack
  have hseq : o.1.rxLastSeq = if pack.has flagRst then add32 tep.rxLastSeq 1 else tep.rxLastSeq := by
    by_cases hr : pack.has flagRst
    · rw [if_pos hr, (hrst hr).2.1]
    · rw [if_neg hr, hno hr]
  rw [tcpCheckClose, ho, bind_some]
  by_cases hfin : pack.has flagFin
  · have hcloses : Closes tep pack ↔ pack.seqnum = o.1.rxLastSeq := by
      rw [Closes, if_pos hfin, hseq]
    by_cases hmatch : pack.seqnum = o.1.rxLastSeq
    · rw [closeOnFin_match o hfin hmatch, map_some, if_neg (by simp)]
      dsimp only
      have hc := hcloses.mpr hmatch
      refine ⟨_, rfl, ?_, ?_, ?_, fun hn => absurd hc hn, fun hn => absurd hc hn⟩
      · split
        all_goals exact ⟨hq.1, hq.2, hq.3, hq.4, hq.5, hq.6, hq.7, hq.8, hq.9⟩
      · split
        all_goals simp [hc]
      · split_ifs
        all_goals simp
    · rw [closeOnFin, if_pos hfin, if_pos hmatch]
      refine ⟨_, rfl, ⟨hq.1, hq.2, hq.3, hq.4, hq.5, hq.6, hq.7, hq.8, hq.9⟩, ?_, ?_, ?_, ?_⟩
      · simp [hcloses, hmatch]
      · exact fun hc => absurd (hcloses.mp hc) hmatch
      · exact fun _ hr => (hrst hr).1
      · intro _ hr
        simp [hno hr, hfin]
  · have hcloses : Closes tep pack ↔ pack.has flagRst ∨
        (tep.finSent = true ∧ pack.has flagAck ∧ pack.acknum = tep.txLastSeq) := by
      rw [Closes, if_neg hfin]
    have hsame : (o.1.finSent = true ∧ pack.has flagAck ∧ pack.acknum = o.1.txLastSeq) ↔
        (tep.finSent = true ∧ pack.has flagAck ∧ pack.acknum = tep.txLastSeq) := by
      rw [hq.finSent, hq.txLastSeq]
    rw [closeOnFin, if_neg hfin, map_some, if_neg (by simp)]
    dsimp only
    by_cases hlast : tep.finSent = true ∧ pack.has flagAck ∧ pack.acknum = tep.txLastSeq
    · rw [if_pos (hsame.mpr hlast)]
      exact ⟨_, rfl, ⟨hq.1, hq.2, hq.3, hq.4, hq.5, hq.6, hq.7, hq.8, hq.9⟩,
        by simp [hcloses, hlast], fun _ => Or.inl rfl,
        fun hc => absurd (hcloses.mpr (Or.inr hlast)) hc,
        fun hc => absurd (hcloses.mpr (Or.inr hlast)) hc⟩
    · rw [if_neg (fun hl => hlast (hsame.mp hl))]
      refine ⟨_, rfl, hq, ?_, ?_, ?_, ?_⟩
      · by_cases hr : pack.has flagRst
        · simp [hcloses, hr, (hrst hr).2.2]
        · simp [hcloses, hr, hno hr, hlast]
      · intro hc
        rcases hcloses.mp hc with hr | hl
        · exact Or.inr (Or.inl (hrst hr).1)
        · exact absurd hl hlast
      · exact fun _ hr => (hrst hr).1
      · intro _ hr
        simp [hno hr, hfin]

end Gloworm.Tcp
