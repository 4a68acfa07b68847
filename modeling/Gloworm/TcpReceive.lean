import Gloworm.QueueModel
import Gloworm.TransitionRuns
import Gloworm.RingBufferContents

/-! An endpoint of `tcp.c` in and after the established state: sending, acknowledging and the
reassembly of incoming segments. -/
namespace Gloworm.Tcp
open List Option Word RingBuffer Queue Transition Function LinkedSegments

abbrev Byte := UInt8

def flagAck : ℕ := 0x010
def flagPsh : ℕ := 0x008
def flagRst : ℕ := 0x004
def flagSyn : ℕ := 0x002
def flagFin : ℕ := 0x001

def tcpRxBuffer : ℤ := 1024
def tcpTxBuffer : ℤ := 1024

inductive Errno
  | einval
  | enotconn
  | ewouldblock
  deriving DecidableEq, Repr

inductive State
  | closed
  | listen
  | synSent
  | synRecv
  | established
  | finWait1
  | finWait2
  | closeWait
  | closing
  | lastAck
  | timeWait
  deriving DecidableEq, Repr

/-- The fields of a segment that the endpoint looks at, and its data. -/
structure Packet where
  flags : ℕ
  seqnum : ℕ
  acknum : ℕ
  data : List Byte
  deriving DecidableEq, Repr

def Packet.has (pack : Packet) (flag : ℕ) : Prop := pack.flags &&& flag ≠ 0
deriving Decidable

/-- A TCP endpoint with its rings and the queue of packets that wait for earlier ones. -/
structure Endpoint where
  remotePort : ℕ
  recvQueue : Pool Unit ℕ
  packets : ℕ → Packet
  waiting : List ℕ
  state : State
  finSent : Bool
  finRecv : Bool
  txLastSeq : ℕ
  rxLastSeq : ℕ
  txAcksRepeated : ℤ
  rx : RingBuffer.Ring Byte
  tx : RingBuffer.Ring Byte

/-- The bytes of a new packet, which stay 0 where the ring had none. -/
def payload (peeked : List Byte) (nbytes : ℤ) : List Byte :=
  (List.range nbytes.toNat).map fun i => peeked.getD i 0

/-- A negative length asks `packet_alloc` for a block of nonsensical size: no defined result. -/
def tcpSendPacket (tep : Endpoint) (flags : ℕ) (nbytes : ℤ) (ackbytes : ℕ) :
    Option (Endpoint × Packet) :=
  let nbytes := if flags &&& flagPsh ≠ 0 ∧ nbytes = -1 then bufUsedSpace tep.tx else nbytes
  if nbytes < 0 then none
  else
    let tep := if flags &&& flagAck ≠ 0
      then { tep with rxLastSeq := add32 tep.rxLastSeq ackbytes } else tep
    let acknum := if flags &&& flagAck ≠ 0 then tep.rxLastSeq else 0
    if flags &&& flagPsh ≠ 0 then
      some (tep, ⟨flags, sub32 tep.txLastSeq (toUnsigned nbytes), acknum,
        payload (bufPeek tep.tx (toShort (bufUsedSpace tep.tx - nbytes)) (toShort nbytes)) nbytes⟩)
    else
      some (if flags = flagSyn ∨ flags &&& flagFin ≠ 0
        then { tep with txLastSeq := add32 tep.txLastSeq 1 } else tep,
        ⟨flags, tep.txLastSeq, acknum, []⟩)

def queuePosition (tep : Endpoint) (seq : ℕ) : ℕ → Option ℕ → Option ℕ → Option (Option ℕ)
  | 0, _, _ => none
  | _ + 1, none, prev => some prev
  | fuel + 1, some cur, prev =>
    if seq < (tep.packets cur).seqnum then some prev
    else queuePosition tep seq fuel (tep.recvQueue.next cur) (some cur)

def tcpQueuePacket (tep : Endpoint) (p : ℕ) (pack : Packet) : Option Endpoint :=
  (queuePosition tep pack.seqnum (tep.waiting.length + 1) (tep.recvQueue.head ()) none).map
    fun prev => { tep with
      recvQueue := queueInsertAfter tep.recvQueue () p prev
      packets := Function.update tep.packets p pack
      waiting := p :: tep.waiting }

/-- Copying what is new of a packet into the ring. The answer says that the packet is used
up. -/
def deliver (tep : Endpoint) (pack : Packet) : Endpoint × Bool :=
  let length : ℤ := pack.data.length
  if tep.rxLastSeq < add32 pack.seqnum (toUnsigned length) then
    let index := sub32 tep.rxLastSeq pack.seqnum
    let length := length - index
    let res := bufPut tep.rx (pack.data.drop index) (toShort length)
    ({ tep with rx := res.1, rxLastSeq := add32 tep.rxLastSeq res.2 }, ¬ (res.2 : ℤ) < length)
  else (tep, true)

def removePacket (tep : Endpoint) (p : ℕ) : Endpoint :=
  { tep with
    recvQueue := queueRemove tep.recvQueue () p
    waiting := tep.waiting.erase p }

/-- Deliver the packets at the head of the queue that continue what was received. -/
def checkLoop : ℕ → Endpoint → Option ℕ → Option (Endpoint × Bool)
  | 0, _, _ => none
  | _ + 1, tep, none => some (tep, true)
  | fuel + 1, tep, some cur =>
    if tep.rxLastSeq < (tep.packets cur).seqnum then some (tep, true)
    else
      let res := deliver tep (tep.packets cur)
      if res.2 then checkLoop fuel (removePacket res.1 cur) (tep.recvQueue.next cur)
      else some (res.1, false)

def tcpCheckWaitingPacket (tep : Endpoint) : Option (Endpoint × Bool) :=
  checkLoop (tep.waiting.length + 1) tep (tep.recvQueue.head ())

/-- The endpoint, the packets sent, and whether the segment is done with. -/
abbrev Outcome := Endpoint × List Packet × Bool

/-- Send one packet and go on. -/
def reply (o : Outcome) (flags : ℕ) (nbytes : ℤ) (ackbytes : ℕ) (done : Bool) : Option Outcome :=
  (tcpSendPacket o.1 flags nbytes ackbytes).map fun r => (r.1, o.2.1 ++ [r.2], done)

def closeOnRst (tep : Endpoint) (pack : Packet) : Option Outcome :=
  if pack.has flagRst then
    reply ({ tep with finRecv := true, state := .closing }, [], false) (flagRst ||| flagAck) 0 1 true
  else some (tep, [], false)

def closeOnFin (o : Outcome) (pack : Packet) : Option (Outcome × Bool) :=
  if pack.has flagFin then
    let tep := { o.1 with finRecv := true }
    if pack.seqnum ≠ tep.rxLastSeq then some ((tep, o.2.1, false), true)
    else
      let tep := { tep with
        state := if tep.state = .established then .closeWait else .closing }
      (reply (tep, o.2) flagAck 0 1 true).map fun o => (o, false)
  else some (o, false)

def tcpCheckClose (tep : Endpoint) (pack : Packet) : Option Outcome :=
  (closeOnRst tep pack).bind fun o => (closeOnFin o pack).map fun r =>
    if r.2 then r.1
    else if r.1.1.finSent ∧ pack.has flagAck ∧ pack.acknum = r.1.1.txLastSeq then
      ({ r.1.1 with state := .closed }, r.1.2.1, true)
    else r.1

/-- The sequence number that the peer has acknowledged last. -/
def lastAcked (tep : Endpoint) : ℕ := sub32 tep.txLastSeq (toUnsigned (bufUsedSpace tep.tx))

/-- Drop the bytes from the transmit ring that are acknowledged. -/
def discardAcked (tep : Endpoint) (acknum : ℕ) : Endpoint :=
  if lastAcked tep < acknum then
    { tep with
      txAcksRepeated := 0
      tx := bufDrop tep.tx (toShort ((sub32 acknum (lastAcked tep) : ℕ) : ℤ)) }
  else tep

/-- The third acknowledgement of one number sends the ring again. -/
def repeatedAck (o : Outcome) : Option Outcome :=
  let tep := { o.1 with txAcksRepeated := toShort (o.1.txAcksRepeated + 1) }
  if 3 ≤ tep.txAcksRepeated then
    reply ({ tep with txAcksRepeated := 0 }, o.2) (flagPsh ||| flagAck) (-1) 0 o.2.2
  else some (tep, o.2)

def acknowledge (o : Outcome) (pack : Packet) : Option Outcome :=
  let acked := if lastAcked o.1 < pack.acknum then pack.acknum else lastAcked o.1
  if acked < o.1.txLastSeq then repeatedAck (discardAcked o.1 pack.acknum, o.2)
  else some (discardAcked o.1 pack.acknum, o.2)

def receive (o : Outcome) (p : ℕ) (pack : Packet) : Option Outcome :=
  (tcpQueuePacket o.1 p pack).bind fun tep => (tcpCheckWaitingPacket tep).bind fun r =>
    if r.2 then reply (r.1, o.2) flagAck 0 0 true else some (r.1, o.2.1, true)

def tcpForwardEstablished (tep : Endpoint) (p : ℕ) (pack : Packet) : Option Outcome :=
  (tcpCheckClose tep pack).bind fun o =>
    if o.2.2 then some o
    else
      (if pack.has flagAck then acknowledge o pack else some o).bind fun o =>
        if 0 < pack.data.length then receive o p pack else some (o.1, o.2.1, true)

def tcpEndpointSend (tep : Endpoint) (data : List Byte) :
    Except Errno (Option (Endpoint × Packet × ℤ)) :=
  if tep.remotePort = 0 then .error .enotconn
  else if tep.state ≠ .established ∨ toUnsigned (bufFreeSpace tep.tx) < data.length then
    .error .ewouldblock
  else
    let res := bufPutIter tep.tx data
    let tep := { tep with tx := res.1, txLastSeq := add32 tep.txLastSeq (toUnsigned res.2) }
    .ok ((tcpSendPacket tep (flagPsh ||| flagAck) res.2 0).map fun r => (r.1, r.2, res.2))

def tcpEndpointRecv (tep : Endpoint) (size : ℕ) : Except Errno (Endpoint × List Byte) :=
  match tep.state with
  | .closed => .ok (tep, [])
  | .listen => .error .einval
  | .synSent | .synRecv => .error .ewouldblock
  | _ =>
    let res := bufGetIter tep.rx size
    if res.2 = [] ∧ ¬ tep.finRecv then .error .ewouldblock
    else .ok ({ tep with rx := res.1 }, res.2)

def established (remotePort txLastSeq rxLastSeq : ℕ) (packets : ℕ → Packet)
    (rxMem txMem : ℤ → Byte) : Endpoint :=
  ⟨remotePort, queueInit, packets, [], .established, false, false, txLastSeq, rxLastSeq, 0,
    bufInit tcpRxBuffer rxMem, bufInit tcpTxBuffer txMem⟩

/-- An endpoint with what it has sent, been handed and delivered, and its highest
acknowledgement. -/
structure Connection where
  tep : Endpoint
  sent : List Packet
  accepted : List Byte
  delivered : List Byte
  acked : ℕ

def connect (tep : Endpoint) : Connection := ⟨tep, [], [], [], tep.txLastSeq⟩

inductive Event
  | segment (p : ℕ) (pack : Packet)
  | send (data : List Byte)
  | recv (size : ℕ)
  deriving DecidableEq

def perform (s : Connection) : Event → Option Connection
  | .segment p pack => (tcpForwardEstablished s.tep p pack).map fun o =>
    { s with
      tep := o.1
      sent := s.sent ++ o.2.1
      acked := if pack.has flagAck then max s.acked pack.acknum else s.acked }
  | .send data => match tcpEndpointSend s.tep data with
    | .error _ => some s
    | .ok r => r.map fun r =>
      { s with tep := r.1, sent := s.sent ++ [r.2.1], accepted := s.accepted ++ data }
  | .recv size => match tcpEndpointRecv s.tep size with
    | .error _ => some s
    | .ok r => some { s with tep := r.1, delivered := s.delivered ++ r.2 }

def Permitted (s : Connection) : Event → Prop
  | .segment p _ => p ∉ s.tep.waiting
  | _ => True

def Step (s : Connection) (e : Event) (t : Connection) : Prop :=
  Permitted s e ∧ perform s e = some t

/-- The data of the packet are bytes of the stream, at their place. -/
def Carries (stream : List Byte) (first : ℕ) (pack : Packet) : Prop :=
  ∃ k, pack.seqnum = first + k ∧ k + pack.data.length ≤ stream.length ∧
    pack.data = (stream.drop k).take pack.data.length

structure Received (stream : List Byte) (first : ℕ) (delivered : List Byte) (tep : Endpoint)
    (xs : List ℕ) : Prop where
  rxOk : tep.rx.Ok
  low : first ≤ tep.rxLastSeq
  high : tep.rxLastSeq ≤ first + stream.length
  word : tep.rxLastSeq < 2 ^ 32
  inOrder : delivered ++ tep.rx.contents = stream.take (tep.rxLastSeq - first)
  holds : Holds tep.recvQueue fun _ => xs
  waiting : tep.waiting.Perm xs
  carries : ∀ p ∈ xs, Carries stream first (tep.packets p)

variable {stream : List Byte} {p first : ℕ} {tep : Endpoint} {pack : Packet} {o o' : Outcome}

lemma take_append_slice {data : List Byte} {k at_ n m : ℕ}
    (hdata : data = (stream.drop k).take data.length) (hk : k ≤ at_)
    (hn : n ≤ ((data.drop (at_ - k)).take m).length) :
    stream.take at_ ++ ((data.drop (at_ - k)).take m).take n = stream.take (at_ + n) := by
  rw [length_take, length_drop] at hn
  rw [take_add, take_take, min_eq_left (by omega)]
  congr 1
  rw [hdata, drop_take, take_take, drop_drop, min_eq_left (by omega), Nat.add_sub_cancel' hk]

lemma add32_end {seq len : ℕ} (h : seq + len ≤ 2 ^ 32) :
    add32 seq (toUnsigned len) = if seq + len = 2 ^ 32 then 0 else seq + len := by
  unfold add32 toUnsigned
  split_ifs <;> omega

/-- The queue is linked and holds the packets of `xs`. -/
structure Queued (tep : Endpoint) (xs : List ℕ) : Prop where
  holds : Holds tep.recvQueue fun _ => xs
  waiting : tep.waiting.Perm xs

lemma deliver_frame (tep : Endpoint) (pack : Packet) :
    (deliver tep pack).1.recvQueue = tep.recvQueue ∧
    (deliver tep pack).1.packets = tep.packets ∧ (deliver tep pack).1.tx = tep.tx ∧
    (deliver tep pack).1.txLastSeq = tep.txLastSeq ∧
    (deliver tep pack).1.finSent = tep.finSent ∧ (deliver tep pack).1.state = tep.state := by
  by_cases h : tep.rxLastSeq < add32 pack.seqnum (toUnsigned pack.data.length)
  · simp only [deliver, if_pos h, and_self]
  · simp only [deliver, if_neg h, and_self]

lemma deliver_waiting (tep : Endpoint) (pack : Packet) :
    (deliver tep pack).1.waiting = tep.waiting := by
  by_cases h : tep.rxLastSeq < add32 pack.seqnum (toUnsigned pack.data.length)
  · simp only [deliver, if_pos h]
  · simp only [deliver, if_neg h]

/-- Receiving leaves the sending half as it is. -/
structure SameSender (tep tep' : Endpoint) : Prop where
  tx : tep'.tx = tep.tx
  txLastSeq : tep'.txLastSeq = tep.txLastSeq
  finSent : tep'.finSent = tep.finSent
  state : tep'.state = tep.state

lemma SameSender.trans {a b c : Endpoint} (h : SameSender a b) (g : SameSender b c) :
    SameSender a c :=
  ⟨g.tx.trans h.tx, g.txLastSeq.trans h.txLastSeq, g.finSent.trans h.finSent, g.state.trans h.state⟩

namespace Queued
variable {xs : List ℕ}

lemma length_lt (h : Queued tep xs) : xs.length < tep.waiting.length + 1 := by
  rw [h.waiting.length_eq]
  exact Nat.lt_succ_self _

lemma deliver (h : Queued tep xs) (pack : Packet) : Queued (deliver tep pack).1 xs :=
  ⟨(deliver_frame tep pack).1 ▸ h.holds, (deliver_waiting tep pack).symm ▸ h.waiting⟩

lemma removePacket {cur : ℕ} (h : Queued tep (cur :: xs)) : Queued (removePacket tep cur) xs := by
  have hholds := h.holds.remove (k := ()) (x := cur) (by simp)
  have hlist : update (fun _ : Unit => cur :: xs) () ((cur :: xs).erase cur) = fun _ => xs := by
    funext k
    simp
  rw [hlist] at hholds
  have hperm := h.waiting.erase cur
  rw [erase_cons_head] at hperm
  exact ⟨hholds, hperm⟩

lemma queuePosition (seq : ℕ) (front : List ℕ) (h : Queued tep (front ++ xs))
    {fuel : ℕ} (hfuel : xs.length < fuel) : queuePosition tep seq fuel xs.head? front.getLast? =
      some (front ++ xs.takeWhile fun q => ¬ seq < (tep.packets q).seqnum).getLast? := by
  induction xs generalizing front fuel with
  | nil =>
    obtain _ | fuel := fuel
    · omega
    simp [Tcp.queuePosition]
  | cons cur xs ih =>
    obtain _ | fuel := fuel
    · omega
    rw [List.head?_cons, Tcp.queuePosition]
    by_cases hlater : seq < (tep.packets cur).seqnum
    · rw [if_pos hlater, takeWhile_cons_of_neg (by simpa using hlater), append_nil]
    · have hnext : tep.recvQueue.next cur = xs.head? := (h.holds.links_at (k := ()) rfl).2.1
      have happ : front ++ cur :: xs = (front ++ [cur]) ++ xs := by simp
      rw [happ] at h
      have hrun := ih _ h (by simpa using hfuel)
      rw [List.getLast?_concat] at hrun
      rw [if_neg hlater, hnext, hrun, takeWhile_cons_of_pos (by simpa using hlater),
        append_assoc, singleton_append]

lemma tcpQueuePacket_at (h : Queued tep xs) (hp : p ∉ tep.waiting) (pack : Packet) {l r : List ℕ}
    (hl : l = xs.takeWhile fun q => ¬ pack.seqnum < (tep.packets q).seqnum) (hlr : xs = l ++ r) :
    tcpQueuePacket tep p pack = some { tep with
      recvQueue := queueInsertAfter tep.recvQueue () p l.getLast?
      packets := update tep.packets p pack
      waiting := p :: tep.waiting } ∧
      Holds (queueInsertAfter tep.recvQueue () p l.getLast?) (fun _ => l ++ p :: r) ∧
      (p :: tep.waiting).Perm (l ++ p :: r) := by
  have hqueued : Queued tep ([] ++ xs) := h
  have hpos := queuePosition pack.seqnum [] hqueued h.length_lt
  rw [nil_append, ← hl] at hpos
  have hpx : p ∉ xs := fun hin => hp (h.waiting.mem_iff.mpr hin)
  rw [Tcp.tcpQueuePacket, h.holds.head (), ← List.getLast?_nil, hpos]
  have hholds := h.holds.insertBetween (k := ()) (x := p) hlr fun _ => hpx
  have hlist : update (fun _ : Unit => xs) () (l ++ p :: r) = fun _ => l ++ p :: r := by
    funext k
    simp
  rw [hlist] at hholds
  have hperm := h.waiting
  rw [hlr] at hperm
  exact ⟨rfl, hholds, (hperm.cons p).trans perm_middle.symm⟩

lemma tcpQueuePacket (h : Queued tep xs) (hp : p ∉ tep.waiting) (pack : Packet) :
    ∃ q l r, xs = l ++ r ∧ tcpQueuePacket tep p pack = some { tep with
      recvQueue := q
      packets := update tep.packets p pack
      waiting := p :: tep.waiting } ∧
      Holds q (fun _ => l ++ p :: r) ∧ (p :: tep.waiting).Perm (l ++ p :: r) := by
  have hlr := takeWhile_append_dropWhile
    (p := fun q => ¬ pack.seqnum < (tep.packets q).seqnum) (l := xs)
  exact ⟨_, _, _, hlr.symm, h.tcpQueuePacket_at hp pack rfl hlr.symm⟩
end Queued

variable {flags : ℕ}

lemma reply_ack (o : Outcome) (hack : flags = flagAck ∨ flags = flagRst ||| flagAck)
    (ackbytes : ℕ) (done : Bool) :
    reply o flags 0 ackbytes done = some ({ o.1 with rxLastSeq := add32 o.1.rxLastSeq ackbytes },
      o.2.1 ++ [⟨flags, o.1.txLastSeq, add32 o.1.rxLastSeq ackbytes, []⟩], done) := by
  rcases hack with rfl | rfl <;> rfl

section
variable {I : Endpoint → List ℕ → Prop}
  (hqueued : ∀ tep xs, I tep xs → Queued tep xs)
  (hdeliver : ∀ tep cur xs, I tep (cur :: xs) → (tep.packets cur).seqnum ≤ tep.rxLastSeq →
    I (deliver tep (tep.packets cur)).1 (cur :: xs) ∧ ((deliver tep (tep.packets cur)).2 = true →
      I (removePacket (deliver tep (tep.packets cur)).1 cur) xs))
include hqueued hdeliver

lemma checkLoop_preserves {xs : List ℕ} (h : I tep xs) {fuel : ℕ} (hfuel : xs.length < fuel) :
    ∃ r ys, checkLoop fuel tep xs.head? = some r ∧ I r.1 ys ∧ SameSender tep r.1 := by
  induction xs generalizing tep fuel with
  | nil =>
    obtain _ | fuel := fuel
    · omega
    exact ⟨(tep, true), [], rfl, h, rfl, rfl, rfl, rfl⟩
  | cons cur xs ih =>
    obtain _ | fuel := fuel
    · omega
    rw [List.head?_cons, Tcp.checkLoop]
    by_cases hlater : tep.rxLastSeq < (tep.packets cur).seqnum
    · rw [if_pos hlater]
      exact ⟨_, _, rfl, h, rfl, rfl, rfl, rfl⟩
    · obtain ⟨hd, hr⟩ := hdeliver tep cur xs h (not_lt.mp hlater)
      obtain ⟨hq, hp, htx, hseq, hfin, hstate⟩ := deliver_frame tep (tep.packets cur)
      have hsame : SameSender tep (deliver tep (tep.packets cur)).1 := ⟨htx, hseq, hfin, hstate⟩
      rw [if_neg hlater]
      cases hused : (deliver tep (tep.packets cur)).2 with
      | false =>
        refine ⟨((deliver tep (tep.packets cur)).1, false), cur :: xs, ?_, hd, hsame⟩
        simp only [hused, Bool.false_eq_true, if_false]
      | true =>
        have hnext : tep.recvQueue.next cur = xs.head? := by
          have hl := (hqueued tep _ h).holds.linked ()
          simpa using hl.2.1
        obtain ⟨r, ys, hrun, hi, hs⟩ := ih (hr hused) (by simpa using hfuel)
        refine ⟨r, ys, ?_, hi, hsame.trans ⟨hs.tx, hs.txLastSeq, hs.finSent, hs.state⟩⟩
        simp only [hused, if_true, hnext]
        exact hrun

/-- A segment that is queued and checked keeps what every delivery keeps. -/
lemma receive_preserves
    (hack : ∀ tep xs, I tep xs → I { tep with rxLastSeq := add32 tep.rxLastSeq 0 } xs)
    (hq : Queued o.1 xs) (hp : p ∉ o.1.waiting)
    (hinsert : ∀ q l r, xs = l ++ r → Holds q (fun _ => l ++ p :: r) →
      (p :: o.1.waiting).Perm (l ++ p :: r) → I { o.1 with
        recvQueue := q
        packets := update o.1.packets p pack
        waiting := p :: o.1.waiting } (l ++ p :: r)) :
    ∃ o' ys, receive o p pack = some o' ∧ I o'.1 ys ∧ SameSender o.1 o'.1 := by
  obtain ⟨q, l, r, hlr, hqueue, hholds, hperm⟩ := hq.tcpQueuePacket hp pack
  have hi := hinsert q l r hlr hholds hperm
  obtain ⟨res, ys, hcheck, hi', hsame⟩ := checkLoop_preserves hqueued hdeliver hi
    (hqueued _ _ hi).length_lt
  rw [← (hqueued _ _ hi).holds.head (), ← tcpCheckWaitingPacket] at hcheck
  have hsame' : SameSender o.1 res.1 := ⟨hsame.tx, hsame.txLastSeq, hsame.finSent, hsame.state⟩
  rw [receive, hqueue, bind_some, hcheck, bind_some]
  cases hdone : res.2 with
  | true =>
    rw [if_pos rfl, reply_ack _ (.inl rfl)]
    exact ⟨_, ys, rfl, hack _ _ hi', hsame'.tx, hsame'.txLastSeq, hsame'.finSent, hsame'.state⟩
  | false =>
    rw [if_neg (by simp)]
    exact ⟨_, ys, rfl, hi', hsame'⟩
end

lemma mem_inserted {l r : List ℕ} {packets : ℕ → Packet} {P : Packet → Prop}
    (h : ∀ x ∈ l ++ r, P (packets x)) (hpack : P pack) :
    ∀ x ∈ l ++ p :: r, P (update packets p pack x) := by
  intro x hx
  by_cases hxp : x = p
  · simpa [hxp] using hpack
  · rw [update_of_ne hxp]
    exact h x (by simpa [hxp] using hx)

structure InOrder (stream : List Byte) (first : ℕ) (delivered : List Byte) (tep : Endpoint) :
    Prop where
  rxOk : tep.rx.Ok
  low : first ≤ tep.rxLastSeq
  high : tep.rxLastSeq ≤ first + stream.length
  word : tep.rxLastSeq < 2 ^ 32
  inOrder : delivered ++ tep.rx.contents = stream.take (tep.rxLastSeq - first)

lemma InOrder.deliver {delivered : List Byte} (h : InOrder stream first delivered tep)
    (hfit : first + stream.length ≤ 2 ^ 32) (hc : Carries stream first pack)
    (hle : pack.seqnum ≤ tep.rxLastSeq) : InOrder stream first delivered (deliver tep pack).1 := by
  obtain ⟨k, hseq, hlen, hdata⟩ := hc
  have hlow := h.low
  unfold Tcp.deliver
  simp only [add32_end (by omega : pack.seqnum + pack.data.length ≤ 2 ^ 32)]
  by_cases hnew : tep.rxLastSeq <
      if pack.seqnum + pack.data.length = 2 ^ 32 then 0 else pack.seqnum + pack.data.length
  · simp only [if_pos hnew, sub32_of_le hle h.word]
    obtain ⟨rx', n, hput⟩ : ∃ rx' n, bufPut tep.rx (pack.data.drop (tep.rxLastSeq - pack.seqnum))
        (toShort (pack.data.length - (tep.rxLastSeq - pack.seqnum : ℕ))) = (rx', n) := ⟨_, _, rfl⟩
    obtain ⟨rok, _, rcount, rcont⟩ := h.rxOk.putLoop_spec
      ((pack.data.drop (tep.rxLastSeq - pack.seqnum)).take
        (toShort (pack.data.length - (tep.rxLastSeq - pack.seqnum : ℕ))).toNat)
    rw [← bufPut, hput] at rok rcont rcount
    have hn := Nat.cast_le.mp (rcount.trans_le (min_le_left _ _))
    have hbound := hn
    rw [length_take, length_drop] at hbound
    have hindex : tep.rxLastSeq - pack.seqnum = tep.rxLastSeq - first - k := by omega
    have hsum : tep.rxLastSeq + n < 2 ^ 32 ∧ tep.rxLastSeq + n ≤ pack.seqnum + pack.data.length := by
      split_ifs at hnew <;> omega
    simp only [hput, add32_of_lt hsum.1]
    refine ⟨rok, by simp only; omega, by simp only; omega, hsum.1, ?_⟩
    simp only [rcont]
    rw [← append_assoc, h.inOrder, Nat.sub_add_comm hlow]
    rw [hindex] at hn ⊢
    exact take_append_slice hdata (by omega) hn
  · rw [if_neg hnew]
    exact h

namespace Received
variable {delivered : List Byte} {xs : List ℕ}

section
variable (h : Received stream first delivered tep xs)
include h

lemma queued : Queued tep xs :=
  ⟨h.holds, h.waiting⟩

lemma congr {tep' : Endpoint} (hrx : tep'.rx = tep.rx) (hseq : tep'.rxLastSeq = tep.rxLastSeq)
    (hq : tep'.recvQueue = tep.recvQueue) (hp : tep'.packets = tep.packets)
    (hw : tep'.waiting = tep.waiting) : Received stream first delivered tep' xs := by
  obtain ⟨h1, h2, h3, h4, h5, h6, h7, h8⟩ := h
  constructor <;> simp only [hrx, hseq, hq, hp, hw] <;> assumption

lemma deliver (hfit : first + stream.length ≤ 2 ^ 32) (hc : Carries stream first pack)
    (hle : pack.seqnum ≤ tep.rxLastSeq) :
    Received stream first delivered (deliver tep pack).1 xs := by
  have horder : InOrder stream first delivered tep := ⟨h.rxOk, h.low, h.high, h.word, h.inOrder⟩
  obtain ⟨hok, hlow, hhigh, hword, hbytes⟩ := horder.deliver hfit hc hle
  obtain ⟨hholds, hwaiting⟩ := h.queued.deliver pack
  refine ⟨hok, hlow, hhigh, hword, hbytes, hholds, hwaiting, ?_⟩
  rw [(deliver_frame tep pack).2.1]
  exact h.carries
end

lemma removePacket {cur : ℕ} (h : Received stream first delivered tep (cur :: xs)) :
    Received stream first delivered (removePacket tep cur) xs := by
  obtain ⟨hholds, hperm⟩ := h.queued.removePacket
  exact ⟨h.rxOk, h.low, h.high, h.word, h.inOrder, hholds, hperm,
    fun p hp => h.carries p (mem_cons_of_mem _ hp)⟩
end Received

variable {nbytes : ℤ} {r : Endpoint × Packet}

lemma tcpSendPacket_same
    (hword : tep.rxLastSeq < 2 ^ 32) (hflags : flags = flagAck ∨ flags = flagPsh ||| flagAck)
    (h : tcpSendPacket tep flags nbytes 0 = some r) : r.1 = tep := by
  have hadd : add32 tep.rxLastSeq 0 = tep.rxLastSeq := add32_of_lt (by omega)
  have hack : flags &&& flagAck ≠ 0 := by rcases hflags with rfl | rfl <;> decide
  have hplain : ¬ (flags = flagSyn ∨ flags &&& flagFin ≠ 0) := by
    rcases hflags with rfl | rfl <;> decide
  simp only [tcpSendPacket, hadd, if_pos hack, if_neg hplain] at h
  split_ifs at h <;> exact (congrArg Prod.fst (some.inj h)).symm

lemma tcpSendPacket_frame {ackbytes : ℕ} (h : tcpSendPacket tep flags nbytes ackbytes = some r) :
    ∃ rx tx, r.1 = { tep with rxLastSeq := rx, txLastSeq := tx } := by
  unfold tcpSendPacket at h
  dsimp only at h
  split_ifs at h <;> cases h <;> exact ⟨_, _, rfl⟩

lemma reply_same {done : Bool} (h : reply o flags nbytes 0 done = some o')
    (hword : o.1.rxLastSeq < 2 ^ 32) (hflags : flags = flagAck ∨ flags = flagPsh ||| flagAck) :
    o'.1 = o.1 ∧ o'.2.2 = done := by
  obtain ⟨r, hr, rfl⟩ := map_eq_some_iff.mp h
  exact ⟨tcpSendPacket_same hword hflags hr, rfl⟩

lemma tcpCheckClose_open (hfin : tep.finSent = false) (hr : ¬ pack.has flagRst)
    (hf : ¬ pack.has flagFin) : tcpCheckClose tep pack = some (tep, [], false) := by
  simp [tcpCheckClose, closeOnRst, closeOnFin, hr, hf, hfin]

lemma discardAcked_frame (tep : Endpoint) (acknum : ℕ) :
    ∃ n tx, discardAcked tep acknum = { tep with txAcksRepeated := n, tx := tx } := by
  by_cases hnew : lastAcked tep < acknum
  · exact ⟨_, _, by rw [discardAcked, if_pos hnew]⟩
  · exact ⟨_, _, by rw [discardAcked, if_neg hnew]⟩

/-- Either the acknowledgement is only counted, or the third of its kind makes the endpoint send. -/
lemma acknowledge_cases (h : acknowledge o pack = some o') :
    ∃ n tx, o'.1 = { o.1 with txAcksRepeated := n, tx := tx } ∨ ∃ nbytes r,
      tcpSendPacket { o.1 with txAcksRepeated := n, tx := tx } (flagPsh ||| flagAck) nbytes 0 =
        some r ∧ o'.1 = r.1 := by
  obtain ⟨n, tx, hdiscard⟩ := discardAcked_frame o.1 pack.acknum
  by_cases hmissing : (if lastAcked o.1 < pack.acknum then pack.acknum else lastAcked o.1) <
      o.1.txLastSeq
  · simp only [acknowledge, if_pos hmissing, hdiscard] at h
    by_cases hthird : 3 ≤ toShort (n + 1)
    · simp only [repeatedAck, if_pos hthird] at h
      obtain ⟨r, hr, rfl⟩ := map_eq_some_iff.mp h
      exact ⟨0, tx, .inr ⟨_, r, hr, rfl⟩⟩
    · simp only [repeatedAck, if_neg hthird, some.injEq] at h
      exact ⟨_, tx, .inl (congrArg Prod.fst h).symm⟩
  · simp only [acknowledge, if_neg hmissing, hdiscard, some.injEq] at h
    exact ⟨n, tx, .inl (congrArg Prod.fst h).symm⟩

lemma acknowledge_frame (hword : o.1.rxLastSeq < 2 ^ 32) (h : acknowledge o pack = some o') :
    ∃ n tx, o'.1 = { o.1 with txAcksRepeated := n, tx := tx } := by
  obtain ⟨n, tx, hcount | ⟨_, _, hr, hsent⟩⟩ := acknowledge_cases h
  · exact ⟨n, tx, hcount⟩
  · exact ⟨n, tx, hsent.trans (tcpSendPacket_same hword (Or.inr rfl) hr)⟩

lemma acknowledge_changes (h : acknowledge o pack = some o') : ∃ n tx rx seq, o'.1 =
    { o.1 with txAcksRepeated := n, tx := tx, rxLastSeq := rx, txLastSeq := seq } := by
  obtain ⟨n, tx, hcount | ⟨_, _, hr, hsent⟩⟩ := acknowledge_cases h
  · exact ⟨n, tx, _, _, hcount⟩
  · obtain ⟨rx, seq, hframe⟩ := tcpSendPacket_frame hr
    exact ⟨n, tx, rx, seq, hsent.trans hframe⟩

/-- The peer sends slices of its stream and does not close. -/
def PeerSegment (stream : List Byte) (first : ℕ) (s : Connection) : Event → Prop
  | .segment _ pack => Carries stream first pack ∧ ¬ pack.has flagRst ∧ ¬ pack.has flagFin
  | .recv size => ¬ bufIsEmpty s.tep.rx ∧ size < 2 ^ 32
  | .send _ => False

/-- The acknowledgement is one of bytes in the transmit ring. -/
def AckInWindow (tep : Endpoint) (acknum : ℕ) : Prop :=
  tep.tx.Ok ∧ tep.tx.max ≤ 16384 ∧ tep.txLastSeq < 2 ^ 32 ∧ lastAcked tep ≤ acknum ∧ acknum ≤ tep.txLastSeq

structure Receiving (stream : List Byte) (first : ℕ) (s : Connection) : Prop where
  finSent : s.tep.finSent = false
  state : s.tep.state = .established
  received : ∃ xs, Received stream first s.delivered s.tep xs

lemma receiving_established (hword : first < 2 ^ 32) (remotePort txLastSeq : ℕ)
    (packets : ℕ → Packet) (rxMem txMem : ℤ → Byte) : Receiving stream first
      (connect (established remotePort txLastSeq first packets rxMem txMem)) := by
  obtain ⟨hok, hcont⟩ := bufInit_ok (by decide : 6 < tcpRxBuffer) (by decide) rxMem
  refine ⟨rfl, rfl, [], hok, le_rfl, Nat.le_add_right _ _, hword, ?_, holds_init, .refl _, by simp⟩
  simpa [connect, established] using hcont

lemma discardAcked_ok {acknum : ℕ} (h : AckInWindow tep acknum) :
    (discardAcked tep acknum).tx.Ok := by
  obtain ⟨hok, hmax, hword, hlow, hhigh⟩ := h
  have hout := hok.out_lt
  have hnn := hok.used_nonneg
  have hlt := hok.used_lt
  unfold discardAcked
  split_ifs with hnew
  · have hused : lastAcked tep = sub32 tep.txLastSeq tep.tx.used.toNat := by
      rw [lastAcked, hok.bufUsedSpace_eq, toUnsigned_of_mem hnn (by omega)]
    have hle : (sub32 acknum (lastAcked tep) : ℤ) ≤ tep.tx.used := by
      rw [sub32_of_le hlow (by omega)]
      rw [hused] at hlow ⊢
      unfold sub32 at hlow ⊢
      omega
    rw [toShort_of_mem (by omega) (by omega)]
    exact (hok.bufDrop_spec hle (by omega)).1
  · exact hok

lemma repeatedAck_some (hok : o.1.tx.Ok) : ∃ o', repeatedAck o = some o' := by
  by_cases hthird : 3 ≤ toShort (o.1.txAcksRepeated + 1)
  · have hpsh : (flagPsh ||| flagAck) &&& flagPsh ≠ 0 := by decide
    have hlen : ¬ bufUsedSpace o.1.tx < 0 := by
      rw [hok.bufUsedSpace_eq]
      exact not_lt.mpr hok.used_nonneg
    simp only [repeatedAck, if_pos hthird, reply, tcpSendPacket, hpsh, ne_eq, not_false_eq_true,
      and_self, if_true, if_neg hlen]
    exact ⟨_, rfl⟩
  · simp only [repeatedAck, if_neg hthird]
    exact ⟨_, rfl⟩

lemma acknowledge_some (h : AckInWindow o.1 pack.acknum) : ∃ o', acknowledge o pack = some o' := by
  by_cases hmissing : (if lastAcked o.1 < pack.acknum then pack.acknum else lastAcked o.1) <
      o.1.txLastSeq
  · simp only [acknowledge, if_pos hmissing]
    exact repeatedAck_some (discardAcked_ok h)
  · simp only [acknowledge, if_neg hmissing]
    exact ⟨_, rfl⟩

namespace Receiving
variable {s : Connection}

lemma receive {xs : List ℕ} (h : Received stream first s.delivered o.1 xs)
    (hfit : first + stream.length ≤ 2 ^ 32) (hp : p ∉ o.1.waiting) (hc : Carries stream first pack) :
    ∃ o' ys, receive o p pack = some o' ∧ Received stream first s.delivered o'.1 ys ∧
      SameSender o.1 o'.1 := by
  refine receive_preserves (fun _ _ hi => hi.queued) (fun tep cur xs hi hle => ?_) (fun tep xs hi => ?_)
    h.queued hp fun q l r hlr hholds hperm => ?_
  · have hd := hi.deliver hfit (hi.carries cur mem_cons_self) hle
    exact ⟨hd, fun _ => hd.removePacket⟩
  · exact hi.congr rfl (add32_of_lt hi.word) rfl rfl rfl
  · exact ⟨h.rxOk, h.low, h.high, h.word, h.inOrder, hholds, hperm,
      mem_inserted (hlr ▸ h.carries) hc⟩

section
variable {t : Connection} (h : Receiving stream first s)
include h

lemma segment (hfit : first + stream.length ≤ 2 ^ 32) (hp : p ∉ s.tep.waiting)
    (hg : PeerSegment stream first s (.segment p pack)) :
    (∀ o, tcpForwardEstablished s.tep p pack = some o →
      ∀ sent acked, Receiving stream first { s with tep := o.1, sent := sent, acked := acked }) ∧
    (AckInWindow s.tep pack.acknum → ∃ o, tcpForwardEstablished s.tep p pack = some o) := by
  obtain ⟨hfin, hstate, xs, hrec⟩ := h
  obtain ⟨hc, hr, hf⟩ := hg
  have hclose := tcpCheckClose_open hfin hr hf
  have hdata : ∀ o : Outcome, (∃ n tx, o.1 = { s.tep with txAcksRepeated := n, tx := tx }) →
      ∃ o' ys, (if 0 < pack.data.length then Tcp.receive o p pack else some (o.1, o.2.1, true)) =
        some o' ∧ Received stream first s.delivered o'.1 ys ∧ o'.1.finSent = false ∧
        o'.1.state = .established := by
    rintro ⟨tep, sent, done⟩ ⟨n, tx, rfl⟩
    have ho : Received stream first s.delivered { s.tep with txAcksRepeated := n, tx := tx } xs :=
      hrec.congr rfl rfl rfl rfl rfl
    by_cases hlen : 0 < pack.data.length
    · obtain ⟨o', ys, hrun, hrec', hsame⟩ := receive (o := (_, sent, done)) ho hfit hp hc
      rw [if_pos hlen]
      exact ⟨o', ys, hrun, hrec', hsame.finSent.trans hfin, hsame.state.trans hstate⟩
    · rw [if_neg hlen]
      exact ⟨_, xs, rfl, ho, hfin, hstate⟩
  rw [tcpForwardEstablished, hclose, bind_some, if_neg (by simp)]
  by_cases hack : pack.has flagAck
  · rw [if_pos hack]
    refine ⟨fun o ho sent acked => ?_, fun hwin => ?_⟩
    · obtain ⟨o1, hack1, ho⟩ := bind_eq_some_iff.mp ho
      obtain ⟨n, tx, hframe⟩ := acknowledge_frame hrec.word hack1
      obtain ⟨o', ys, hrun, hrec', hfin', hstate'⟩ := hdata o1 ⟨n, tx, hframe⟩
      obtain rfl : o' = o := some.inj (hrun.symm.trans ho)
      exact ⟨hfin', hstate', ys, hrec'⟩
    · obtain ⟨o1, hack1⟩ := acknowledge_some (o := (s.tep, [], false)) hwin
      obtain ⟨o', ys, hrun, _⟩ := hdata o1 (acknowledge_frame hrec.word hack1)
      exact ⟨o', by rw [hack1, bind_some, hrun]⟩
  · obtain ⟨o', ys, hrun, hrec', hfin', hstate'⟩ :=
      hdata (s.tep, [], false) ⟨s.tep.txAcksRepeated, s.tep.tx, rfl⟩
    rw [if_neg hack, bind_some, hrun]
    refine ⟨fun o ho sent acked => ?_, fun _ => ⟨o', rfl⟩⟩
    obtain rfl := some.inj ho
    exact ⟨hfin', hstate', ys, hrec'⟩

lemma recv {size : ℕ} (hg : PeerSegment stream first s (.recv size))
    (ht : perform s (.recv size) = some t) : Receiving stream first t := by
  obtain ⟨hfin, hstate, xs, hrec⟩ := id h
  obtain ⟨hok, _, hread, hleft⟩ := hrec.rxOk.bufGetIter_spec hg.1 hg.2
  have hcall : tcpEndpointRecv s.tep size =
      if (bufGetIter s.tep.rx size).2 = [] ∧ ¬ s.tep.finRecv then .error .ewouldblock
      else .ok ({ s.tep with rx := (bufGetIter s.tep.rx size).1 },
        (bufGetIter s.tep.rx size).2) := by
    simp only [tcpEndpointRecv, hstate]
  rw [perform, hcall] at ht
  split_ifs at ht
  · obtain rfl := some.inj ht
    exact h
  · obtain rfl := some.inj ht
    refine ⟨hfin, hstate, xs, hok, hrec.low, hrec.high, hrec.word, ?_, hrec.holds, hrec.waiting,
      hrec.carries⟩
    simp only [hread, hleft, append_assoc, take_append_drop]
    exact hrec.inOrder

lemma step (hfit : first + stream.length ≤ 2 ^ 32) {e : Event}
    (hstep : Guarded (PeerSegment stream first) Step s e t) : Receiving stream first t := by
  obtain ⟨hg, hperm, hdo⟩ := hstep
  cases e with
  | segment p pack =>
    obtain ⟨o, ho, rfl⟩ := map_eq_some_iff.mp hdo
    exact (h.segment hfit hperm hg).1 o ho _ _
  | send data => exact absurd hg id
  | recv size => exact h.recv hg hdo
end
end Receiving

/-- The bytes delivered and those still in the ring are a beginning of the peer's stream, as long as
`rx_last_seq` has moved; and every further segment is handled. -/
theorem reassembly_in_order {stream : List Byte} {first : ℕ} (hword : first < 2 ^ 32)
    (hfit : first + stream.length ≤ 2 ^ 32) {remotePort txLastSeq : ℕ} {packets : ℕ → Packet}
    {rxMem txMem : ℤ → Byte} {es : List Event} {s : Connection}
    (hrun : Run (Guarded (PeerSegment stream first) Step)
      (connect (established remotePort txLastSeq first packets rxMem txMem)) es s) :
    first ≤ s.tep.rxLastSeq ∧ s.tep.rxLastSeq - first ≤ stream.length ∧
    s.delivered ++ s.tep.rx.contents = stream.take (s.tep.rxLastSeq - first) ∧
    ∀ p pack, Permitted s (.segment p pack) → PeerSegment stream first s (.segment p pack) →
      AckInWindow s.tep pack.acknum → ∃ t, Step s (.segment p pack) t := by
  have h : Receiving stream first s := hrun.preserves
    (receiving_established hword remotePort txLastSeq packets rxMem txMem)
    (fun _ _ _ h hstep => h.step hfit hstep)
  obtain ⟨xs, hrec⟩ := h.received
  refine ⟨hrec.low, by have := hrec.high; omega, hrec.inOrder, ?_⟩
  intro p pack hp hg hwin
  obtain ⟨o, ho⟩ := (h.segment hfit hp hg).2 hwin
  exact ⟨_, hp, by rw [perform, ho, map_some]⟩

lemma carries_iff : Carries stream first pack ↔ first ≤ pack.seqnum ∧
      pack.seqnum - first + pack.data.length ≤ stream.length ∧
      pack.data = (stream.drop (pack.seqnum - first)).take pack.data.length := by
  constructor
  · rintro ⟨k, hseq, hlen, hdata⟩
    have hk : pack.seqnum - first = k := by omega
    rw [hk]
    exact ⟨by omega, hlen, hdata⟩
  · rintro ⟨hle, hlen, hdata⟩
    exact ⟨pack.seqnum - first, by omega, hlen, hdata⟩

instance (stream : List Byte) (first : ℕ) (pack : Packet) :
    Decidable (Carries stream first pack) := decidable_of_iff _ carries_iff.symm

instance (stream : List Byte) (first : ℕ) (s : Connection) (e : Event) :
    Decidable (PeerSegment stream first s e) :=
  match e with
  | .segment .. | .recv _ | .send _ => by dsimp only [PeerSegment]; infer_instance

instance (s : Connection) (e : Event) : Decidable (Permitted s e) := by
  cases e <;> unfold Permitted <;> infer_instance

def advance (guard : Connection → Event → Bool) (s : Connection) (e : Event) :
    Option Connection :=
  if guard s e ∧ Permitted s e then perform s e else none

lemma advance_step {guard : Connection → Event → Bool} {s t : Connection} {e : Event}
    (h : advance guard s e = some t) : guard s e = true ∧ Step s e t := by
  unfold advance at h
  split_ifs at h with hc
  exact ⟨hc.1, hc.2, h⟩

theorem reassembly_in_order_overlap : ∃ s, Run (Guarded (PeerSegment [1, 2, 3, 4] 100) Step)
      (connect (established 80 7 100 (fun _ => ⟨0, 0, 0, []⟩) (fun _ => 0) (fun _ => 0)))
      [.segment 1 ⟨flagAck, 102, 7, [3, 4]⟩, .segment 2 ⟨flagAck, 100, 7, [1, 2, 3]⟩, .recv 3] s ∧
    s.delivered ++ s.tep.rx.contents = [1, 2, 3, 4] := by
  refine (exists_run (p := fun s => s.tep.rxLastSeq = 104)
    (guarded_of_advance fun _ _ _ _ => advance_step) (by decide +kernel)).imp
    fun s ⟨hrun, hs⟩ => ⟨hrun, ?_⟩
  obtain ⟨_, _, hbytes, _⟩ := reassembly_in_order (by decide) (by decide) hrun
  rwa [hs] at hbytes

end Gloworm.Tcp
