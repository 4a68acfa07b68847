import Gloworm.BlockCustody
import Gloworm.PacketDecodeModel

/-! Who owns a received packet: `net_incoming_packet`, the forward functions of `tcp.c`, `udp.c` and
`icmp.c`, and the calls that empty the receive queues. Every use of a packet checks that it has not
been freed; what happens to an endpoint is taken from the model of `tcp.c`. -/
namespace Gloworm.PacketOwnership
open Function Word Queue Transition CheckedBytes BlockCustody Tcp PacketDecode

/-- No result is undefined behaviour. -/
def defined {α : Type} : Option α → Except Stop α
  | some a => .ok a
  | none => .error .undefined

/-- Where a header reaches past the end of its packet, the code works with what it finds there. -/
def settled {α : Type} (found : α) : Except Fault α → Except Stop α
  | .ok a => .ok a
  | .error .outside => .ok found
  | .error .unfinished => .error .unfinished

def following (q : Pool Unit ℕ) : Option ℕ → Option ℕ
  | some a => q.next a
  | none => q.head ()

/-- Insert a packet; the neighbours are written to and must be allocated. -/
def linkAfter (h : Heap Raw) (q : Pool Unit ℕ) (p : ℕ) (after : Option ℕ) :
    Except Stop (Pool Unit ℕ) := do
  let _ ← h.touch p
  h.touchLink after
  h.touchLink (following q after)
  return queueInsertAfter q () p after

/-- Take a packet off a queue; its neighbours are written to. -/
def unlink (h : Heap Raw) (q : Pool Unit ℕ) (p : ℕ) : Except Stop (Pool Unit ℕ) := do
  let _ ← h.touch p
  h.touchLink (q.next p)
  h.touchLink (q.prev p)
  return queueRemove q () p

def checkClose (h : Heap Raw) (tep : Endpoint) (p : ℕ) (pack : Packet) :
    Except Stop (Outcome × Heap Raw) := do
  let _ ← h.touch p
  let o ← defined (tcpCheckClose tep pack)
  if o.2.2 then do
    let h ← h.free p
    return (o, h)
  else return (o, h)

def findPlace (h : Heap Raw) (tep : Endpoint) (seq : ℕ) :
    ℕ → Option ℕ → Option ℕ → Except Stop (Option ℕ)
  | 0, _, _ => .error .unfinished
  | _ + 1, none, prev => .ok prev
  | fuel + 1, some cur, prev => do
    let _ ← h.touch cur
    if seq < (tep.packets cur).seqnum then .ok prev
    else findPlace h tep seq fuel (tep.recvQueue.next cur) (some cur)

def addPacket (tep : Endpoint) (q : Pool Unit ℕ) (p : ℕ) (pack : Packet) : Endpoint :=
  { tep with
    recvQueue := q
    packets := update tep.packets p pack
    waiting := p :: tep.waiting }

def queuePacket (h : Heap Raw) (tep : Endpoint) (p : ℕ) (pack : Packet) : Except Stop Endpoint := do
  let _ ← h.touch p
  let prev ← findPlace h tep pack.seqnum (tep.waiting.length + 1) (tep.recvQueue.head ()) none
  let q ← linkAfter h tep.recvQueue p prev
  return addPacket tep q p pack

/-- Deliver packets from the queue and free them. -/
def checkWaiting : ℕ → Heap Raw → Endpoint → Option ℕ → Except Stop ((Endpoint × Bool) × Heap Raw)
  | 0, _, _, _ => .error .unfinished
  | _ + 1, h, tep, none => .ok ((tep, true), h)
  | fuel + 1, h, tep, some cur => do
    let _ ← h.touch cur
    if tep.rxLastSeq < (tep.packets cur).seqnum then .ok ((tep, true), h)
    else if (deliver tep (tep.packets cur)).2 then do
      let _ ← unlink h (deliver tep (tep.packets cur)).1.recvQueue cur
      let h ← h.free cur
      checkWaiting fuel h (removePacket (deliver tep (tep.packets cur)).1 cur)
        (tep.recvQueue.next cur)
    else .ok (((deliver tep (tep.packets cur)).1, false), h)

def receivePacket (h : Heap Raw) (o : Outcome) (p : ℕ) (pack : Packet) :
    Except Stop (Outcome × Heap Raw) := do
  let tep ← queuePacket h o.1 p pack
  let r ← checkWaiting (tep.waiting.length + 1) h tep (tep.recvQueue.head ())
  if r.1.2 then do
    let o ← defined (reply (r.1.1, o.2) flagAck 0 0 true)
    return (o, r.2)
  else return ((r.1.1, o.2.1, true), r.2)

def forwardEstablished (h : Heap Raw) (tep : Endpoint) (p : ℕ) (pack : Packet) :
    Except Stop (Outcome × Heap Raw) := do
  let r ← checkClose h tep p pack
  if r.1.2.2 then return r
  else do
    let _ ← r.2.touch p
    let o ← defined (if pack.has flagAck then acknowledge r.1 pack else some r.1)
    if 0 < pack.data.length then receivePacket r.2 o p pack
    else do
      let h ← r.2.free p
      return ((o.1, o.2.1, true), h)

def forwardListen (h : Heap Raw) (s : Session) (p : ℕ) (pack : Packet) :
    Except Stop (Handled × Heap Raw) := do
  let _ ← h.touch p
  if pack.flags ≠ flagSyn then return ((s, [], false), h)
  else if s.listenQueueMax ≤ s.queueSize then return ((s, [], false), h)
  else do
    let q ← linkAfter h s.tep.recvQueue p (s.tep.recvQueue.tail ())
    return (({ s with tep := addPacket s.tep q p pack, queueSize := s.queueSize + 1 }, [], true), h)

def forwardSynRecv (h : Heap Raw) (tep : Endpoint) (p : ℕ) (pack : Packet) :
    Except Stop (Outcome × Heap Raw) := do
  let r ← checkClose h tep p pack
  if r.1.2.2 then return r
  else do
    let _ ← r.2.touch p
    if pack.flags ≠ flagAck then return r
    else if pack.seqnum ≠ r.1.1.rxLastSeq then return r
    else do
      let h ← r.2.free p
      return (({ r.1.1 with
        txLastSeq := pack.acknum, txAcksRepeated := 0, state := .established }, r.1.2.1, true), h)

def forwardSynSent (h : Heap Raw) (tep : Endpoint) (p : ℕ) (pack : Packet) :
    Except Stop ((Outcome × Bool) × Heap Raw) := do
  let r ← checkClose h tep p pack
  if r.1.2.2 then return ((r.1, false), r.2)
  else do
    let _ ← r.2.touch p
    if pack.flags ≠ flagSyn ||| flagAck then return ((r.1, false), r.2)
    else if pack.acknum ≠ r.1.1.txLastSeq then return ((r.1, false), r.2)
    else do
      let h ← r.2.free p
      let o ← defined (reply ({ r.1.1 with rxLastSeq := pack.seqnum, state := .established }, r.1.2)
        flagAck 0 1 true)
      return ((o, true), h)

def forwardSegment (h : Heap Raw) (s : Session) (p : ℕ) (pack : Packet) :
    Except Stop (Handled × Heap Raw) :=
  match s.tep.state with
  | .closed => .ok ((s, [], false), h)
  | .listen => forwardListen h s p pack
  | .synSent => (forwardSynSent h s.tep p pack).map fun r =>
    (if r.1.2 then { s with connectReturn := 1 }.after r.1.1 else s.after r.1.1, r.2)
  | .synRecv => (forwardSynRecv h s.tep p pack).map fun r => (s.after r.1, r.2)
  | .established => (forwardEstablished h s.tep p pack).map fun r => (s.after r.1, r.2)
  | _ => (checkClose h s.tep p pack).map fun r => (s.after r.1, r.2)

structure UdpEndpoint where
  srcPort : ℕ
  recvQueue : Pool Unit ℕ
  waiting : List ℕ

/-- The heap of packets, and the endpoints of both protocols. -/
structure Net where
  heap : Heap Raw
  tcpEndpoints : List ℕ
  sessions : ℕ → Session
  udpEndpoints : List ℕ
  sockets : ℕ → UdpEndpoint

namespace Net

def setHeap (s : Net) (h : Heap Raw) : Net := { s with heap := h }

def setSession (s : Net) (a : ℕ) (t : Session) : Net :=
  { s with sessions := update s.sessions a t }

def setSocket (s : Net) (a : ℕ) (u : UdpEndpoint) : Net :=
  { s with sockets := update s.sockets a u }
end Net

/-- The endpoint of a connection, or the one that listens on the port. -/
def tcpLookupEndpoint (s : Net) (localPort : ℕ) (remote : Option (ℕ × ℕ)) : Option ℕ :=
  s.tcpEndpoints.find? fun a => (s.sessions a).localPort = localPort ∧
    ((s.sessions a).tep.state = .listen ∨
      remote = some ((s.sessions a).remoteAddr, (s.sessions a).tep.remotePort))

def udpLookupEndpoint (s : Net) (port : ℕ) : Option ℕ :=
  s.udpEndpoints.find? fun a => (s.sockets a).srcPort = port

/-- What there is behind the end of a packet, as far as the code looks at it. -/
structure Stray where
  decoded : Parsed Raw
  segment : Packet
  echo : Forwarded

def tcpForwardTo (s : Net) (a p : ℕ) (pack : Raw) (found : Packet) : Except Stop (Bool × Net) := do
  let seg ← settled found (loadSegment pack)
  let r ← forwardSegment s.heap (s.sessions a) p seg
  return (r.1.2.2, (s.setHeap r.2).setSession a r.1.1)

def udpForwardTo (s : Net) (a p : ℕ) : Except Stop (Bool × Net) := do
  let q ← linkAfter s.heap (s.sockets a).recvQueue p ((s.sockets a).recvQueue.tail ())
  return (true, s.setSocket a ⟨(s.sockets a).srcPort, q, p :: (s.sockets a).waiting⟩)

def icmpForwardFrom (s : Net) (p : ℕ) (pack : Raw) (found : Forwarded) :
    Except Stop (Bool × Net) := do
  match ← settled found (icmpForward pack) with
  | .replied _ => do
    let h ← s.heap.free p
    return (true, s.setHeap h)
  | _ => return (false, s)

def forwardTransport (s : Net) (proto : Proto) (p : ℕ) (stray : Stray) :
    Except Stop (Bool × Net) := do
  let pack ← s.heap.touch p
  match proto with
  | .ip => return (false, s)
  | .tcp =>
    match tcpLookupEndpoint s pack.destPort (some (pack.srcAddr, pack.srcPort)) with
    | none => return (false, s)
    | some a => tcpForwardTo s a p pack stray.segment
  | .udp =>
    match udpLookupEndpoint s pack.destPort with
    | none => return (false, s)
    | some a => udpForwardTo s a p
  | .icmp => icmpForwardFrom s p pack stray.echo

/-- `ipv4_forward_packet` drops a packet for which decoding has found no other protocol. -/
def forwardProto (s : Net) (proto : Proto) (p : ℕ) (stray : Stray) : Except Stop (Bool × Net) := do
  let pack ← s.heap.touch p
  match proto, pack.proto with
  | .ip, none => return (false, s)
  | .ip, some next => forwardTransport s next p stray
  | _, _ => forwardTransport s proto p stray

/-- The answer of `net_incoming_packet`. -/
inductive Verdict
  | delivered
  | dropped
  | error
  deriving DecidableEq

/-- Decode a packet and forward it; who keeps it is the answer. -/
def netIncomingPacket (depth : ℕ) (proto : Proto) (s : Net) (p : ℕ) (stray : Stray) :
    Except Stop (Verdict × Net) := do
  let pack ← s.heap.touch p
  match ← settled stray.decoded (decodeHeader depth proto pack 0) with
  | .rejected _ => do
    let h ← s.heap.free p
    return (.error, s.setHeap h)
  | .accepted pack => do
    let r ← forwardProto (s.setHeap (s.heap.store p pack)) proto p stray
    if r.1 then return (.delivered, r.2)
    else do
      let h ← r.2.heap.free p
      return (.dropped, r.2.setHeap h)

/-- Free every packet of a queue. -/
def freeQueue (q : Pool Unit ℕ) : ℕ → Heap Raw → Option ℕ → Except Stop (Heap Raw)
  | 0, _, _ => .error .unfinished
  | _ + 1, h, none => .ok h
  | fuel + 1, h, some cur => do
    let _ ← h.touch cur
    let h ← h.free cur
    freeQueue q fuel h (q.next cur)

def tcpDestroyEndpoint (s : Net) (a : ℕ) : Except Stop Net := do
  let t := s.sessions a
  let _ ← if t.remoteAddr ≠ 0 ∧ t.tep.state ≠ .closed ∧ t.tep.state ≠ .closing ∧ ¬ t.tep.finSent
    then defined (tcpSendPacket t.tep (flagRst ||| flagAck) 0 0) else .ok (t.tep, ⟨0, 0, 0, []⟩)
  let h ← freeQueue t.tep.recvQueue (t.tep.waiting.length + 1) s.heap (t.tep.recvQueue.head ())
  return ⟨h, s.tcpEndpoints.erase a, s.sessions, s.udpEndpoints, s.sockets⟩

def udpDestroyEndpoint (s : Net) (a : ℕ) : Except Stop Net := do
  let u := s.sockets a
  let h ← freeQueue u.recvQueue (u.waiting.length + 1) s.heap (u.recvQueue.head ())
  return ⟨h, s.tcpEndpoints, s.sessions, s.udpEndpoints.erase a, s.sockets⟩

/-- What new memory for an endpoint holds. -/
structure Memory where
  packets : ℕ → Packet
  rxMem : ℤ → Byte
  txMem : ℤ → Byte

def Net.addTcp (s : Net) (a : ℕ) (t : Session) : Net :=
  ⟨s.heap, a :: s.tcpEndpoints, update s.sessions a t, s.udpEndpoints, s.sockets⟩

def Net.addUdp (s : Net) (a : ℕ) (u : UdpEndpoint) : Net :=
  ⟨s.heap, s.tcpEndpoints, s.sessions, s.udpEndpoints ++ [a], update s.sockets a u⟩

def tcpCreateEndpoint (s : Net) (a localPort : ℕ) (mem : Memory) : Net :=
  if (tcpLookupEndpoint s localPort none).isSome then s
  else s.addTcp a (tcpAllocEndpoint localPort 0 0 mem.packets mem.rxMem mem.txMem)

def udpCreateEndpoint (s : Net) (a port : ℕ) : Net :=
  if (udpLookupEndpoint s port).isSome then s else s.addUdp a ⟨port, queueInit, []⟩

def acceptPacket (s : Net) (a client isn : ℕ) (mem : Memory) : Except Stop Net :=
  match tcpEndpointAccept (s.sessions a) with
  | .error _ => .ok s
  | .ok r => do
    let _ ← unlink s.heap (s.sessions a).tep.recvQueue r.2
    let pack ← s.heap.touch r.2
    let c ← defined (tcpCreateClientEndpoint r.1 ((s.sessions a).tep.packets r.2) pack.srcAddr
      pack.srcPort isn mem.packets mem.rxMem mem.txMem)
    let h ← s.heap.free r.2
    return ((s.setHeap h).setSession a r.1).addTcp client c.1

def udpEndpointRecvFrom (s : Net) (a : ℕ) : Except Stop Net :=
  match (s.sockets a).recvQueue.head () with
  | none => .ok s
  | some p => do
    let q ← unlink s.heap (s.sockets a).recvQueue p
    let _ ← s.heap.touch p
    let h ← s.heap.free p
    return (s.setHeap h).setSocket a ⟨(s.sockets a).srcPort, q, (s.sockets a).waiting.erase p⟩

inductive Event
  | incoming (depth : ℕ) (proto : Proto) (p : ℕ) (pack : Raw) (stray : Stray)
  | accept (a client isn : ℕ) (mem : Memory)
  | recvFrom (a : ℕ)
  | tcpCall (a : ℕ) (c : Tcp.Call)
  | openTcp (a localPort : ℕ) (mem : Memory)
  | openUdp (a port : ℕ)
  | destroyTcp (a : ℕ)
  | destroyUdp (a : ℕ)

/-- A new packet from an interface. -/
def Net.arrive (s : Net) (p : ℕ) (pack : Raw) : Net := s.setHeap (s.heap.store p pack)

def perform (s : Net) : Event → Except Stop Net
  | .incoming depth proto p pack stray =>
    (netIncomingPacket depth proto (s.arrive p pack) p stray).map Prod.snd
  | .accept a client isn mem => acceptPacket s a client isn mem
  | .recvFrom a => udpEndpointRecvFrom s a
  | .tcpCall a c => (defined ((s.sessions a).perform c)).map (s.setSession a)
  | .openTcp a localPort mem => .ok (tcpCreateEndpoint s a localPort mem)
  | .openUdp a port => .ok (udpCreateEndpoint s a port)
  | .destroyTcp a => tcpDestroyEndpoint s a
  | .destroyUdp a => udpDestroyEndpoint s a

/-- A call by the owner of an endpoint, which brings no packet. -/
def OwnerCall : Tcp.Call → Prop
  | .segment _ _ => False
  | .accept => False
  | _ => True

/-- Addresses of new blocks and endpoints are not in use, and calls are made on endpoints. -/
def Permitted (s : Net) : Event → Prop
  | .incoming _ _ p _ _ => ¬ s.heap.Live p
  | .accept a client _ _ => a ∈ s.tcpEndpoints ∧ client ∉ s.tcpEndpoints
  | .recvFrom a => a ∈ s.udpEndpoints
  | .tcpCall a c => a ∈ s.tcpEndpoints ∧ OwnerCall c
  | .openTcp a _ _ => a ∉ s.tcpEndpoints
  | .openUdp a _ => a ∉ s.udpEndpoints
  | .destroyTcp a => a ∈ s.tcpEndpoints
  | .destroyUdp a => a ∈ s.udpEndpoints

def Step (s : Net) (e : Event) (t : Net) : Prop := Permitted s e ∧ perform s e = .ok t

end Gloworm.PacketOwnership
