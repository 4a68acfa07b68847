import Gloworm.PacketOwnership
import Gloworm.TcpDemux

/-! Ownership over whole runs: packets that come in, in any order and of any protocol, accepts,
receives, and endpoints that are created and destroyed. -/
namespace Gloworm.PacketOwnership
open List Option Function Word Queue Transition CheckedBytes BlockCustody Tcp PacketDecode

inductive Owner
  | tcp (a : ℕ)
  | udp (a : ℕ)
  deriving DecidableEq

def Linked (s : Net) (p : ℕ) : Owner → Prop
  | .tcp a => a ∈ s.tcpEndpoints ∧ InQueue (s.sessions a).tep.recvQueue () p
  | .udp a => a ∈ s.udpEndpoints ∧ InQueue (s.sockets a).recvQueue () p

structure UdpQueued (u : UdpEndpoint) (xs : List ℕ) : Prop where
  holds : Holds u.recvQueue fun _ => xs
  waiting : u.waiting.Perm xs

structure Owned (s : Net) (q : Owner → List ℕ) : Prop where
  custody : Custody s.heap q
  tcpNodup : s.tcpEndpoints.Nodup
  udpNodup : s.udpEndpoints.Nodup
  tcp : ∀ a ∈ s.tcpEndpoints, Queued (s.sessions a).tep (q (.tcp a))
  udp : ∀ a ∈ s.udpEndpoints, UdpQueued (s.sockets a) (q (.udp a))
  tcpGone : ∀ a, a ∉ s.tcpEndpoints → q (.tcp a) = []
  udpGone : ∀ a, a ∉ s.udpEndpoints → q (.udp a) = []

/-- Every receive queue is a list of packets that are allocated, and no packet is in two places. -/
def Sound (s : Net) : Prop := ∃ q, Owned s q

namespace Owned
variable {s : Net} {q : Owner → List ℕ} {fresh ys : List ℕ} {h' : Heap Raw} {a p : ℕ}

section
variable (h : Owned s q)
include h

lemma linked_iff (o : Owner) : Linked s p o ↔ p ∈ q o := by
  cases o with
  | tcp a =>
    by_cases ha : a ∈ s.tcpEndpoints
    · rw [Linked, (h.tcp a ha).holds.inQueue_iff, and_iff_right ha]
    · simp [Linked, ha, h.tcpGone a ha]
  | udp a =>
    by_cases ha : a ∈ s.udpEndpoints
    · rw [Linked, (h.udp a ha).holds.inQueue_iff, and_iff_right ha]
    · simp [Linked, ha, h.udpGone a ha]

lemma arrive (pack : Raw) : Owned (s.arrive p pack) q :=
  { h with custody := h.custody.store p pack }

lemma fresh_arrive (hp : ¬ s.heap.Live p) (pack : Raw) :
    Custody.Fresh (s.arrive p pack).heap q [p] := by
  refine ⟨by simp, ?_, ?_⟩
  · intro x hx
    exact (Heap.live_store pack).mpr (.inl (mem_singleton.mp hx))
  · intro x hx o hin
    rw [mem_singleton.mp hx] at hin
    exact hp (h.custody.live o p hin)

lemma disposeTcp (hf : Custody.Fresh s.heap q fresh) {u : Session} (hq : Queued u.tep ys)
    (hd : Disposed s.heap h' (fresh ++ q (.tcp a)) ys) (ha : a ∈ s.tcpEndpoints) :
    Owned ((s.setHeap h').setSession a u) (update q (.tcp a) ys) := by
  refine ⟨h.custody.disposed hf hd, h.tcpNodup, h.udpNodup, ?_, ?_, ?_, ?_⟩
  · intro b hb
    by_cases hab : b = a
    · simpa [Net.setHeap, Net.setSession, hab] using hq
    · simpa [Net.setHeap, Net.setSession, hab] using h.tcp b hb
  · intro b hb
    simpa [Net.setHeap, Net.setSession] using h.udp b hb
  · intro b hb
    have hab : b ≠ a := fun he => hb (he ▸ ha)
    simpa [hab] using h.tcpGone b hb
  · intro b hb
    simpa using h.udpGone b hb

variable {u : UdpEndpoint}

lemma disposeUdp (hf : Custody.Fresh s.heap q fresh) (hq : UdpQueued u ys)
    (hd : Disposed s.heap h' (fresh ++ q (.udp a)) ys) (ha : a ∈ s.udpEndpoints) :
    Owned ((s.setHeap h').setSocket a u) (update q (.udp a) ys) := by
  refine ⟨h.custody.disposed hf hd, h.tcpNodup, h.udpNodup, ?_, ?_, ?_, ?_⟩
  · intro b hb
    simpa [Net.setHeap, Net.setSocket] using h.tcp b hb
  · intro b hb
    by_cases hab : b = a
    · simpa [Net.setHeap, Net.setSocket, hab] using hq
    · simpa [Net.setHeap, Net.setSocket, hab] using h.udp b hb
  · intro b hb
    simpa using h.tcpGone b hb
  · intro b hb
    have hab : b ≠ a := fun he => hb (he ▸ ha)
    simpa [hab] using h.udpGone b hb

lemma disposeFresh (hf : Custody.Fresh s.heap q fresh) {o : Owner}
    (hd : Disposed s.heap h' (fresh ++ q o) (q o)) : Owned (s.setHeap h') q := by
  have hcustody := h.custody.disposed hf hd
  rw [update_eq_self] at hcustody
  exact { h with custody := hcustody }

lemma addTcp (ha : a ∉ s.tcpEndpoints) {u : Session} (hu : Queued u.tep []) :
    Owned (s.addTcp a u) q := by
  refine ⟨h.custody, nodup_cons.mpr ⟨ha, h.tcpNodup⟩, h.udpNodup, ?_, h.udp, ?_, h.udpGone⟩
  · intro b hb
    rcases mem_cons.mp hb with rfl | hb
    · simpa [Net.addTcp, h.tcpGone b ha] using hu
    · have hab : b ≠ a := fun he => ha (he ▸ hb)
      simpa [Net.addTcp, hab] using h.tcp b hb
  · intro b hb
    exact h.tcpGone b fun hin => hb (mem_cons_of_mem a hin)

lemma addUdp (ha : a ∉ s.udpEndpoints) (hu : UdpQueued u []) : Owned (s.addUdp a u) q := by
  refine ⟨h.custody, h.tcpNodup, ?_, h.tcp, ?_, h.tcpGone, ?_⟩
  · exact List.nodup_append.mpr ⟨h.udpNodup, by simp, fun b hb c hc he =>
      ha (mem_singleton.mp hc ▸ he ▸ hb)⟩
  · intro b hb
    rcases mem_append.mp hb with hb | hb
    · have hab : b ≠ a := fun he => ha (he ▸ hb)
      simpa [Net.addUdp, hab] using h.udp b hb
    · rw [mem_singleton.mp hb]
      simpa [Net.addUdp, h.udpGone a ha] using hu
  · intro b hb
    exact h.udpGone b fun hin => hb (mem_append_left [a] hin)

lemma eraseTcp (hd : Disposed s.heap h' (q (.tcp a)) []) :
    Owned ⟨h', s.tcpEndpoints.erase a, s.sessions, s.udpEndpoints, s.sockets⟩
      (update q (.tcp a) []) := by
  refine ⟨h.custody.disposed (Custody.fresh_nil _ _) hd, h.tcpNodup.erase a,
    h.udpNodup, ?_, ?_, ?_, ?_⟩
  · intro b hb
    obtain ⟨hab, hb⟩ := h.tcpNodup.mem_erase_iff.mp hb
    simpa [hab] using h.tcp b hb
  · intro b hb
    simpa using h.udp b hb
  · intro b hb
    by_cases hab : b = a
    · simp [hab]
    · have hout : b ∉ s.tcpEndpoints := fun hin => hb (h.tcpNodup.mem_erase_iff.mpr ⟨hab, hin⟩)
      simpa [hab] using h.tcpGone b hout
  · intro b hb
    simpa using h.udpGone b hb

lemma eraseUdp (hd : Disposed s.heap h' (q (.udp a)) []) :
    Owned ⟨h', s.tcpEndpoints, s.sessions, s.udpEndpoints.erase a, s.sockets⟩
      (update q (.udp a) []) := by
  refine ⟨h.custody.disposed (Custody.fresh_nil _ _) hd, h.tcpNodup,
    h.udpNodup.erase a, ?_, ?_, ?_, ?_⟩
  · intro b hb
    simpa using h.tcp b hb
  · intro b hb
    obtain ⟨hab, hb⟩ := h.udpNodup.mem_erase_iff.mp hb
    simpa [hab] using h.udp b hb
  · intro b hb
    simpa using h.tcpGone b hb
  · intro b hb
    by_cases hab : b = a
    · simp [hab]
    · have hout : b ∉ s.udpEndpoints := fun hin => hb (h.udpNodup.mem_erase_iff.mpr ⟨hab, hin⟩)
      simpa [hab] using h.udpGone b hout
end
end Owned
section Forwarding
variable {s : Net} {q : Owner → List ℕ} {a p : ℕ}

lemma settled_cases {α : Type} (found : α) (x : Except Fault α) : (∃ a, settled found x = .ok a) ∨
      (x = .error .unfinished ∧ settled found x = .error .unfinished) := by
  cases x with
  | ok a => exact .inl ⟨a, rfl⟩
  | error e => cases e with
    | outside => exact .inl ⟨found, rfl⟩
    | unfinished => exact .inr ⟨rfl, rfl⟩

lemma settled_ends {α : Type} (found : α) {x : Except Fault α} (hx : Ends x) :
    ∃ a, settled found x = .ok a := (settled_cases found x).resolve_right fun h => hx h.1

lemma loadSegment_ends (pack : Raw) : Ends (loadSegment pack) :=
  (load32_ends _ _).bind fun _ => (load32_ends _ _).bind fun _ => (load16_ends _ _).bind fun _ =>
    ends_ok _

lemma sumWords_ends (d : List Byte) (base start n : ℕ) : Ends (sumWords d base start n) := by
  induction n with
  | zero => exact ends_ok start
  | succ n ih => exact ih.bind fun _ => (load16_ends _ _).bind fun _ => ends_ok _

lemma checksum_ends (d : List Byte) (base : ℕ) (len : ℤ) (start : ℕ) :
    Ends (ipv4CalculateChecksum d base len start) := by
  refine (sumWords_ends d base start _).bind fun sum => ?_
  by_cases hodd : len % 2 = 1
  · rw [if_pos hodd]
    exact (load8_ends _ _).bind fun _ => ends_ok _
  · rw [if_neg hodd]
    exact ends_ok _

lemma icmpForward_ends (pack : Raw) : Ends (icmpForward pack) := by
  refine (load8_ends _ _).bind fun type => (load8_ends _ _).bind fun _ => ?_
  by_cases hecho : type ≠ icmpTypeEcho
  · rw [if_pos hecho]
    exact ends_ok _
  · rw [if_neg hecho]
    dsimp only
    split_ifs
    · exact ends_ok _
    · exact (store8_ends _ _ _).bind fun _ => (store8_ends _ _ _).bind fun _ =>
        (store16_ends _ _ _).bind fun _ => (checksum_ends _ _ _ _).bind fun _ =>
        (store16_ends _ _ _).bind fun _ => (copy_ends _ _ _).bind fun _ => ends_ok _

def Unsendable (s : Net) (p : ℕ) : Prop :=
  ∃ a ∈ s.tcpEndpoints, ∃ seg, tcpForwardPacket (s.sessions a) p seg = none

def Forwards (s : Net) (q : Owner → List ℕ) (p : ℕ) (run : Except Stop (Bool × Net)) : Prop :=
  (run = .error .undefined ∧ Unsendable s p) ∨
    (∃ t o ys, run = .ok (true, t) ∧ Owned t (update q o ys) ∧
      Disposed s.heap t.heap (p :: q o) ys) ∨
    ∃ t, run = .ok (false, t) ∧ Owned t q ∧ t.heap = s.heap

lemma Forwards.dropped (h : Owned s q) : Forwards s q p (.ok (false, s)) :=
  .inr (.inr ⟨s, rfl, h, rfl⟩)

section
variable (h : Owned s q) (hf : Custody.Fresh s.heap q [p])
include h hf

lemma tcpForwardTo_forwards (ha : a ∈ s.tcpEndpoints) (pack : Raw) (found : Packet) :
    Forwards s q p (tcpForwardTo s a p pack found) := by
  obtain ⟨seg, hseg⟩ := settled_ends found (loadSegment_ends pack)
  have hp : p ∉ q (.tcp a) := hf.unheld p (by simp) _
  have hlive := h.custody.live_append hf (.tcp a)
  rw [tcpForwardTo, hseg, ok_bind]
  rcases forwardSegment_handles seg (h.tcp a ha) hp hlive with
    ⟨hnone, hrun⟩ | ⟨res, h', ys, -, hrun, hq, hd⟩
  · rw [hrun]
    exact .inl ⟨rfl, a, ha, seg, hnone⟩
  · rw [hrun, ok_bind]
    cases hdone : res.2.2 with
    | false =>
      rw [Handled.view, hdone, if_neg (by simp)] at hd
      obtain ⟨rfl, rfl⟩ := hd
      have howned := h.disposeTcp (Custody.fresh_nil _ _) hq (Disposed.refl s.heap _) ha
      rw [update_eq_self] at howned
      exact .inr (.inr ⟨_, rfl, howned, rfl⟩)
    | true =>
      rw [Handled.view, hdone, if_pos rfl] at hd
      exact .inr (.inl ⟨_, .tcp a, ys, rfl, h.disposeTcp hf hq hd ha, hd⟩)

lemma udpForwardTo_forwards (ha : a ∈ s.udpEndpoints) : Forwards s q p (udpForwardTo s a p) := by
  have hu := h.udp a ha
  obtain ⟨hlink, hholds⟩ := linkAfter_tail hu.holds (hf.unheld p (by simp) _)
    (h.custody.live_append hf (.udp a))
  have hperm := perm_append_singleton p (q (.udp a))
  have hd : Disposed s.heap s.heap (p :: q (.udp a)) (q (.udp a) ++ [p]) :=
    (Disposed.refl s.heap _).perm hperm
  rw [udpForwardTo, hlink, ok_bind]
  exact .inr (.inl ⟨_, .udp a, _, rfl,
    h.disposeUdp hf ⟨hholds, (hu.waiting.cons p).trans hperm.symm⟩ hd ha, hd⟩)

lemma Owned.free (o : Owner) : s.heap.free p = .ok (s.heap.release p) ∧
      Owned (s.setHeap (s.heap.release p)) (update q o (q o)) ∧
      Disposed s.heap (s.heap.release p) (p :: q o) (q o) := by
  have hd : Disposed s.heap (s.heap.release p) (p :: q o) (q o) := (Disposed.refl _ _).release
  refine ⟨Heap.free_live (hf.live p (by simp)), ?_, hd⟩
  rw [update_eq_self]
  exact h.disposeFresh hf hd

lemma icmpForwardFrom_forwards (pack : Raw) (found : Forwarded) :
    Forwards s q p (icmpForwardFrom s p pack found) := by
  obtain ⟨res, hres⟩ := settled_ends found (icmpForward_ends pack)
  rw [icmpForwardFrom, hres, ok_bind]
  cases res with
  | replied answer =>
    obtain ⟨hfree, howned, hd⟩ := h.free hf (.tcp 0)
    dsimp only
    rw [hfree]
    exact .inr (.inl ⟨_, .tcp 0, _, rfl, howned, hd⟩)
  | dropped | segment _ | queued => exact .dropped h

lemma forwardTransport_forwards (proto : Proto) (stray : Stray) :
    Forwards s q p (forwardTransport s proto p stray) := by
  obtain ⟨pack, -, htouch⟩ := Heap.touch_live (hf.live p (by simp))
  rw [forwardTransport, htouch, ok_bind]
  cases proto with
  | ip => exact .dropped h
  | tcp =>
    dsimp only
    cases hlook : tcpLookupEndpoint s pack.destPort (some (pack.srcAddr, pack.srcPort)) with
    | none => exact .dropped h
    | some a => exact tcpForwardTo_forwards h hf (List.mem_of_find?_eq_some hlook) pack _
  | udp =>
    dsimp only
    cases hlook : udpLookupEndpoint s pack.destPort with
    | none => exact .dropped h
    | some a => exact udpForwardTo_forwards h hf (List.mem_of_find?_eq_some hlook)
  | icmp => exact icmpForwardFrom_forwards h hf pack _

lemma forwardProto_forwards (proto : Proto) (stray : Stray) :
    Forwards s q p (forwardProto s proto p stray) := by
  obtain ⟨pack, -, htouch⟩ := Heap.touch_live (hf.live p (by simp))
  rw [forwardProto, htouch, ok_bind]
  cases proto with
  | ip =>
    cases hnext : pack.proto with
    | none => exact .dropped h
    | some next => exact forwardTransport_forwards h hf next stray
  | tcp | udp | icmp => exact forwardTransport_forwards h hf _ stray

lemma netIncomingPacket_settles (depth : ℕ) (proto : Proto) (stray : Stray) {pack : Raw}
    (hpack : s.heap.blocks p = some pack) :
    (netIncomingPacket depth proto s p stray = .error .undefined ∧ Unsendable s p) ∨
    (netIncomingPacket depth proto s p stray = .error .unfinished ∧
      decodeHeader depth proto pack 0 = .error .unfinished) ∨
    ∃ v t o ys, netIncomingPacket depth proto s p stray = .ok (v, t) ∧
      Owned t (update q o ys) ∧ Disposed s.heap t.heap (p :: q o) ys := by
  have hlive := hf.live p (by simp)
  have htouch : s.heap.touch p = .ok pack := by rw [Heap.touch, hpack]
  rw [netIncomingPacket, htouch, ok_bind]
  rcases settled_cases stray.decoded (decodeHeader depth proto pack 0) with
    ⟨decoded, hdecoded⟩ | ⟨hendless, hrun⟩
  · rw [hdecoded, ok_bind]
    refine Or.imp_right .inr ?_
    cases decoded with
    | rejected code =>
      obtain ⟨hfree, howned, hd⟩ := h.free hf (.tcp 0)
      dsimp only
      rw [hfree]
      exact .inr ⟨_, _, .tcp 0, _, rfl, howned, hd⟩
    | accepted pack' =>
      have howned : Owned (s.setHeap (s.heap.store p pack')) q := h.arrive pack'
      have hfresh : Custody.Fresh (s.heap.store p pack') q [p] :=
        ⟨hf.nodup, fun x hx => (Heap.live_write pack' hlive).mpr (hf.live x hx), hf.unheld⟩
      dsimp only
      rcases forwardProto_forwards howned hfresh proto stray with
        ⟨hrun, hun⟩ | ⟨t, o, ys, hrun, ht, hd⟩ | ⟨t, hrun, ht, hheap⟩
      · rw [hrun]
        exact .inl ⟨rfl, hun⟩
      · rw [hrun]
        exact .inr ⟨_, t, o, ys, rfl, ht, hd.write hlive⟩
      · have hft : Custody.Fresh t.heap q [p] := by
          rw [hheap]
          exact hfresh
        obtain ⟨hfree, hu, hd⟩ := ht.free hft (.tcp 0)
        have hback : Disposed s.heap (t.heap.release p) (p :: q (.tcp 0)) (q (.tcp 0)) := by
          rw [hheap] at hd ⊢
          exact hd.write hlive
        rw [hrun, ok_bind, if_neg (by simp), hfree]
        exact .inr ⟨_, _, .tcp 0, _, rfl, hu, hback⟩
  · rw [hrun]
    exact .inr (.inl ⟨rfl, hendless⟩)
end
end Forwarding
section Calls
lemma tcpSendPacket_empty (tep : Endpoint) {flags : ℕ} (hpsh : flags &&& flagPsh = 0)
    (ackbytes : ℕ) : ∃ r, tcpSendPacket tep flags 0 ackbytes = some r := by
  cases hsent : tcpSendPacket tep flags 0 ackbytes with
  | some r => exact ⟨r, rfl⟩
  | none => simp [tcpSendPacket, hpsh] at hsent

lemma freeQueue_live {h : Heap Raw} {links : Pool Unit ℕ} {xs : List ℕ} {prev : Option ℕ}
    (hseg : LinkedSegments.Seg links.next links.prev prev xs none) (hnd : xs.Nodup)
    (hlive : ∀ x ∈ xs, h.Live x) {fuel : ℕ} (hfuel : xs.length < fuel) :
    ∃ h', freeQueue links fuel h xs.head? = .ok h' ∧ Disposed h h' xs [] := by
  induction xs generalizing h prev fuel with
  | nil =>
    obtain _ | fuel := fuel
    · omega
    exact ⟨h, rfl, .refl h []⟩
  | cons cur xs ih =>
    obtain _ | fuel := fuel
    · omega
    obtain ⟨-, hnext, hrest⟩ := hseg
    obtain ⟨hcur, hnd⟩ := nodup_cons.mp hnd
    have hlive' : ∀ x ∈ xs, (h.release cur).Live x := fun x hx =>
      Heap.live_release.mpr ⟨hlive x (by simp [hx]), ne_of_mem_of_not_mem hx hcur⟩
    obtain ⟨h', hrun, hd⟩ := ih hrest hnd hlive' (by simpa using hfuel)
    obtain ⟨b, -, htouch⟩ := Heap.touch_live (hlive cur (by simp))
    refine ⟨h', ?_, hd.release⟩
    rw [List.head?_cons, freeQueue, htouch, ok_bind, Heap.free_live (hlive cur (by simp)), ok_bind,
      hnext, or_none, hrun]

lemma queued_perform {t u : Session} {c : Tcp.Call} {xs : List ℕ} (hq : Queued t.tep xs)
    (hc : OwnerCall c) (hu : t.perform c = some u) : Queued u.tep xs := by
  cases c with
  | segment p pack => exact hc.elim
  | accept => exact hc.elim
  | listen n =>
    obtain rfl | ⟨-, m, rfl⟩ := Session.listen_cases hu
    · exact hq
    · exact ⟨hq.holds, hq.waiting⟩
  | connect addr port isn =>
    obtain rfl | ⟨-, rx, seq, rfl⟩ := Session.connect_cases hu
    · exact hq
    · exact ⟨hq.holds, hq.waiting⟩
  | shutdown =>
    obtain rfl | ⟨-, rx, seq, rfl⟩ := Session.shutdown_cases hu
    · exact hq
    · exact ⟨hq.holds, hq.waiting⟩
  | send data =>
    obtain rfl | ⟨-, -, rx, seq, rfl⟩ := Session.send_cases hu
    · exact hq
    · exact ⟨hq.holds, hq.waiting⟩
  | recv size =>
    obtain rfl | ⟨rx, rfl⟩ := Session.recv_cases hu
    · exact hq
    · exact ⟨hq.holds, hq.waiting⟩

lemma tcpCreateClientEndpoint_empty (t : Session) (pack : Packet) (remoteAddr remotePort isn : ℕ)
    (mem : Memory) : ∃ c, tcpCreateClientEndpoint t pack remoteAddr remotePort isn mem.packets
      mem.rxMem mem.txMem = some c ∧ Queued c.1.tep [] := by
  rw [tcpCreateClientEndpoint]
  dsimp only
  obtain ⟨r, hr⟩ := tcpSendPacket_empty { (tcpAllocEndpoint t.localPort remoteAddr remotePort
      mem.packets mem.rxMem mem.txMem).tep with
    state := .synRecv, rxLastSeq := pack.seqnum, txLastSeq := isn }
    (by decide : (flagSyn ||| flagAck) &&& flagPsh = 0) 1
  obtain ⟨rx, tx, hframe⟩ := tcpSendPacket_frame hr
  rw [hr]
  refine ⟨_, rfl, ?_⟩
  dsimp only
  rw [hframe]
  exact ⟨holds_init, .refl _⟩
end Calls
namespace Event

def arrived : Event → List ℕ
  | .incoming _ _ p _ _ => [p]
  | _ => []

def Endless : Event → Prop
  | .incoming depth proto _ pack _ => decodeHeader depth proto pack 0 = .error .unfinished
  | _ => False

def Undefined (s : Net) : Event → Prop
  | .incoming _ _ p _ _ => Unsendable s p
  | .tcpCall a c => (s.sessions a).perform c = none
  | _ => False
end Event

def Net.before (s : Net) : Event → Heap Raw
  | .incoming _ _ p pack _ => s.heap.store p pack
  | _ => s.heap

def Settled (s : Net) (q : Owner → List ℕ) (e : Event) (t : Net) (o : Owner) (ys : List ℕ) : Prop :=
  perform s e = .ok t ∧ Owned t (update q o ys) ∧
    Disposed (s.before e) t.heap (e.arrived ++ q o) ys

section Steps
variable {s t : Net} {q : Owner → List ℕ} {e : Event}

lemma Settled.idle (hrun : perform s e = .ok t) (h : Owned t q) (hsame : t.heap = s.before e)
    (hnone : e.arrived = []) : Settled s q e t (.tcp 0) (q (.tcp 0)) := by
  refine ⟨hrun, ?_, ?_⟩
  · rwa [update_eq_self]
  · rw [hsame, hnone]
    exact Disposed.refl _ _

section
variable {a : ℕ} (h : Owned s q)
include h

lemma accept_settled {client isn : ℕ} {mem : Memory} (ha : a ∈ s.tcpEndpoints)
    (hc : client ∉ s.tcpEndpoints) : ∃ t o ys, Settled s q (.accept a client isn mem) t o ys := by
  cases hacc : tcpEndpointAccept (s.sessions a) with
  | error code =>
    have hrun : perform s (.accept a client isn mem) = .ok s := by
      rw [perform, acceptPacket, hacc]
    exact ⟨s, _, _, .idle hrun h rfl rfl⟩
  | ok r =>
    have hq := h.tcp a ha
    rw [tcpEndpointAccept] at hacc
    split_ifs at hacc
    cases hxs : q (.tcp a) with
    | nil =>
      rw [hxs] at hq
      simp [hq.holds.head ()] at hacc
    | cons p xs =>
      have hlive := h.custody.live (.tcp a)
      rw [hxs] at hq hlive
      rw [hq.holds.head (), List.head?_cons] at hacc
      have hr := (Except.ok.inj hacc).symm
      have hpl := hlive p (by simp)
      obtain ⟨b, -, htouch⟩ := Heap.touch_live hpl
      obtain ⟨c, hcreate, hempty⟩ := tcpCreateClientEndpoint_empty r.1
        ((s.sessions a).tep.packets p) b.srcAddr b.srcPort isn mem
      have hd : Disposed s.heap (s.heap.release p) ([] ++ q (.tcp a)) xs := by
        rw [hxs]
        exact (Disposed.refl _ xs).release
      have hqr : Queued r.1.tep xs := by
        rw [hr]
        exact hq.removePacket
      have howned := h.disposeTcp (Custody.fresh_nil _ _) hqr hd ha
      refine ⟨_, .tcp a, xs, ?_, howned.addTcp hc hempty, hd⟩
      have hacc' : tcpEndpointAccept (s.sessions a) = .ok r := by
        rw [tcpEndpointAccept, if_neg (by assumption), hq.holds.head (), List.head?_cons]
        exact hacc
      have hr2 : r.2 = p := by rw [hr]
      rw [perform, acceptPacket, hacc']
      dsimp only
      rw [hr2, unlink_live hq.holds hlive, ok_bind, htouch, ok_bind, hcreate, defined, ok_bind,
        Heap.free_live hpl]
      rfl

lemma recvFrom_settled (ha : a ∈ s.udpEndpoints) : ∃ t o ys, Settled s q (.recvFrom a) t o ys := by
  have hq := h.udp a ha
  cases hxs : q (.udp a) with
  | nil =>
    have hrun : perform s (.recvFrom a) = .ok s := by
      rw [perform, udpEndpointRecvFrom, hq.holds.head (), hxs]
      rfl
    exact ⟨s, _, _, .idle hrun h rfl rfl⟩
  | cons p xs =>
    have hlive := h.custody.live (.udp a)
    rw [hxs] at hq hlive
    have hpl := hlive p (by simp)
    obtain ⟨b, -, htouch⟩ := Heap.touch_live hpl
    have hd : Disposed s.heap (s.heap.release p) ([] ++ q (.udp a)) xs := by
      rw [hxs]
      exact (Disposed.refl _ xs).release
    have hholds := hq.holds.remove_split (k := ()) (l := []) (x := p) (r := xs) rfl
    have hlist : update (fun _ : Unit => p :: xs) () ([] ++ xs) = fun _ => xs := by
      funext k
      simp
    rw [hlist] at hholds
    have hperm := hq.waiting.erase p
    rw [erase_cons_head] at hperm
    have howned := h.disposeUdp (Custody.fresh_nil _ _)
      (show UdpQueued ⟨(s.sockets a).srcPort, queueRemove (s.sockets a).recvQueue () p,
        (s.sockets a).waiting.erase p⟩ xs from ⟨hholds, hperm⟩) hd ha
    refine ⟨_, .udp a, xs, ?_, howned, hd⟩
    rw [perform, udpEndpointRecvFrom, hq.holds.head (), List.head?_cons]
    dsimp only
    rw [unlink_live hq.holds hlive, ok_bind, htouch, ok_bind, Heap.free_live hpl]
    rfl

lemma destroyTcp_settled (ha : a ∈ s.tcpEndpoints) :
    ∃ t o ys, Settled s q (.destroyTcp a) t o ys := by
  have hq := h.tcp a ha
  obtain ⟨h', hfree, hd⟩ := freeQueue_live (hq.holds.linked ()) (hq.holds.nodup ())
    (h.custody.live (.tcp a)) hq.length_lt
  obtain ⟨r, hr⟩ := tcpSendPacket_empty (s.sessions a).tep
    (by decide : (flagRst ||| flagAck) &&& flagPsh = 0) 0
  refine ⟨_, .tcp a, [], ?_, h.eraseTcp hd, hd⟩
  rw [perform, tcpDestroyEndpoint]
  dsimp only
  rw [hr, hq.holds.head (), hfree]
  split_ifs <;> rfl

lemma destroyUdp_settled (ha : a ∈ s.udpEndpoints) :
    ∃ t o ys, Settled s q (.destroyUdp a) t o ys := by
  have hq := h.udp a ha
  have hlen : (q (.udp a)).length < (s.sockets a).waiting.length + 1 := by
    rw [hq.waiting.length_eq]
    exact Nat.lt_succ_self _
  obtain ⟨h', hfree, hd⟩ := freeQueue_live (hq.holds.linked ()) (hq.holds.nodup ())
    (h.custody.live (.udp a)) hlen
  refine ⟨_, .udp a, [], ?_, h.eraseUdp hd, hd⟩
  rw [perform, udpDestroyEndpoint, hq.holds.head (), hfree]
  rfl

lemma perform_settled (hp : Permitted s e) : (perform s e = .error .undefined ∧ e.Undefined s) ∨
      (perform s e = .error .unfinished ∧ e.Endless) ∨ ∃ t o ys, Settled s q e t o ys := by
  cases e with
  | incoming depth proto p pack stray =>
    have harrive : Owned (s.arrive p pack) q := h.arrive pack
    have hblock : (s.arrive p pack).heap.blocks p = some pack := by
      simp [Net.arrive, Net.setHeap, Heap.store]
    rcases netIncomingPacket_settles harrive (h.fresh_arrive hp pack) depth proto stray hblock with
      ⟨hrun, hun⟩ | ⟨hrun, hend⟩ | ⟨v, t, o, ys, hrun, ht, hd⟩
    · refine .inl ⟨?_, hun⟩
      rw [perform, hrun]
      rfl
    · refine .inr (.inl ⟨?_, hend⟩)
      rw [perform, hrun]
      rfl
    · refine .inr (.inr ⟨t, o, ys, ?_, ht, hd⟩)
      rw [perform, hrun]
      rfl
  | accept a client isn mem => exact .inr (.inr (accept_settled h hp.1 hp.2))
  | recvFrom a => exact .inr (.inr (recvFrom_settled h hp))
  | tcpCall a c =>
    cases hc : (s.sessions a).perform c with
    | none =>
      refine .inl ⟨?_, hc⟩
      rw [perform, hc]
      rfl
    | some u =>
      have howned := h.disposeTcp (Custody.fresh_nil _ _) (queued_perform (h.tcp a hp.1) hp.2 hc)
        (Disposed.refl s.heap _) hp.1
      rw [update_eq_self] at howned
      have hrun : perform s (.tcpCall a c) = .ok (s.setSession a u) := by
        rw [perform, hc]
        rfl
      exact .inr (.inr ⟨_, _, _, .idle hrun howned rfl rfl⟩)
  | openTcp a localPort mem =>
    have howned : Owned (tcpCreateEndpoint s a localPort mem) q := by
      rw [tcpCreateEndpoint]
      split_ifs
      · exact h
      · exact h.addTcp hp ⟨holds_init, .refl _⟩
    refine .inr (.inr ⟨_, _, _, .idle rfl howned ?_ rfl⟩)
    rw [tcpCreateEndpoint]
    split_ifs <;> rfl
  | openUdp a port =>
    have howned : Owned (udpCreateEndpoint s a port) q := by
      rw [udpCreateEndpoint]
      split_ifs
      · exact h
      · exact h.addUdp hp ⟨holds_init, .refl _⟩
    refine .inr (.inr ⟨_, _, _, .idle rfl howned ?_ rfl⟩)
    rw [udpCreateEndpoint]
    split_ifs <;> rfl
  | destroyTcp a => exact .inr (.inr (destroyTcp_settled h hp))
  | destroyUdp a => exact .inr (.inr (destroyUdp_settled h hp))

lemma fresh_arrived (hp : Permitted s e) : Custody.Fresh (s.before e) q e.arrived := by
  cases e with
  | incoming depth proto p pack stray => exact h.fresh_arrive hp pack
  | _ => exact Custody.fresh_nil _ _

lemma custody_before (e : Event) : Custody (s.before e) q := by
  cases e with
  | incoming depth proto p pack stray => exact h.custody.store p pack
  | _ => exact h.custody
end

lemma charge_before (hp : Permitted s e) (x : ℕ) :
    (s.before e).charge x = s.heap.charge x + e.arrived.count x := by
  cases e with
  | incoming depth proto p pack stray =>
    rw [Net.before, Heap.charge_store pack hp, Event.arrived, count_singleton]
    by_cases hx : x = p
    · simp [hx]
    · simp [hx, Ne.symm hx]
  | _ => rfl

lemma step_settled (h : Owned s q) (hstep : Step s e t) : ∃ o ys, Settled s q e t o ys := by
  obtain ⟨hp, hrun⟩ := hstep
  rcases perform_settled h hp with ⟨hno, -⟩ | ⟨hno, -⟩ | ⟨u, o, ys, hu, hrest⟩
  · rw [hno] at hrun
    cases hrun
  · rw [hno] at hrun
    cases hrun
  · obtain rfl : u = t := Except.ok.inj (hu.symm.trans hrun)
    exact ⟨o, ys, hu, hrest⟩

lemma step_ledger (h : Owned s q) (hstep : Step s e t) (x : ℕ) :
    t.heap.charge x = s.heap.charge x + e.arrived.count x := by
  obtain ⟨o, ys, -, -, hd⟩ := step_settled h hstep
  have hf := fresh_arrived h hstep.1
  have hc := custody_before h e
  rw [hd.charge (hc.nodup_append hf o) (hc.live_append hf o), charge_before hstep.1]

lemma step_sound (h : Sound s) (hstep : Step s e t) : Sound t := by
  obtain ⟨q, h⟩ := h
  obtain ⟨o, ys, -, ht, -⟩ := step_settled h hstep
  exact ⟨_, ht⟩

lemma incoming_owned (h : Sound s) {depth : ℕ} {proto : Proto} {p : ℕ} {pack : Raw} {stray : Stray}
    (hstep : Step s (.incoming depth proto p pack stray) t) :
    (¬ t.heap.Live p ∧ t.heap.freed.count p = s.heap.freed.count p + 1 ∧ ∀ o, ¬ Linked t p o) ∨
      (t.heap.Live p ∧ t.heap.freed.count p = s.heap.freed.count p ∧ ∃! o, Linked t p o) := by
  obtain ⟨q, h⟩ := h
  obtain ⟨o, ys, -, ht, hd⟩ := step_settled h hstep
  have hf := fresh_arrived h hstep.1
  have hc := custody_before h (.incoming depth proto p pack stray)
  rcases hd.freed_or_kept (hc.nodup_append hf o) (hc.live_append hf o)
    (mem_append_left _ (by simp [Event.arrived] : p ∈ _)) with
    ⟨hout, hdead, hcount⟩ | ⟨hin, hlive, hcount⟩
  · refine .inl ⟨hdead, hcount, fun o' hl => hdead ?_⟩
    exact ht.custody.live o' p ((ht.linked_iff o').mp hl)
  · have hmem : p ∈ update q o ys o := by rwa [update_self]
    refine .inr ⟨hlive, hcount, o, (ht.linked_iff o).mpr hmem, fun o' hl => ?_⟩
    exact ht.custody.disjoint o' o p ((ht.linked_iff o').mp hl) hmem
end Steps

/-- In any run no packet is used after it was freed, and an incoming one is freed once or waits in
exactly one queue. -/
theorem packets_have_one_owner {s₀ s : Net} {es : List Event} (h₀ : Sound s₀)
    (hrun : Run Step s₀ es s) : (∀ e, Permitted s e → perform s e ≠ .error .dead ∧
      (perform s e = .error .unfinished → e.Endless) ∧
      (perform s e = .error .undefined → e.Undefined s)) ∧
    (∀ depth proto p pack stray t, Step s (.incoming depth proto p pack stray) t →
      (¬ t.heap.Live p ∧ t.heap.freed.count p = s.heap.freed.count p + 1 ∧
        ∀ o, ¬ Linked t p o) ∨
      (t.heap.Live p ∧ t.heap.freed.count p = s.heap.freed.count p ∧ ∃! o, Linked t p o)) ∧
    ∀ p, s.heap.freed.count p + (if s.heap.Live p then 1 else 0) =
      s₀.heap.freed.count p + (if s₀.heap.Live p then 1 else 0) +
        (es.flatMap Event.arrived).count p := by
  have hsound : Sound s := hrun.preserves h₀ fun _ _ _ ht hstep => step_sound ht hstep
  refine ⟨?_, fun _ _ _ _ _ _ hstep => incoming_owned hsound hstep, ?_⟩
  · intro e hp
    obtain ⟨q, h⟩ := hsound
    rcases perform_settled h hp with ⟨hno, hu⟩ | ⟨hno, hend⟩ | ⟨u, o, ys, hu, -⟩
    · rw [hno]
      exact ⟨by simp, by simp, fun _ => hu⟩
    · rw [hno]
      exact ⟨by simp, fun _ => hend, by simp⟩
    · rw [hu]
      exact ⟨by simp, by simp, by simp⟩
  · intro p
    have hledger : Sound s ∧ s.heap.charge p = s₀.heap.charge p +
        (es.flatMap Event.arrived).count p := by
      refine hrun.invariant (I := fun es s => Sound s ∧ s.heap.charge p = s₀.heap.charge p +
        (es.flatMap Event.arrived).count p) ⟨h₀, by simp⟩ ?_
      intro es t e u ht hstep
      obtain ⟨q, h⟩ := ht.1
      refine ⟨step_sound ht.1 hstep, ?_⟩
      rw [step_ledger h hstep, ht.2, flatMap_append, count_append, Nat.add_assoc]
      simp
    exact hledger.2

lemma emptyNet_owned : Owned TcpDemux.emptyNet fun _ => [] :=
  ⟨⟨by simp, by simp, by simp⟩, by simp [TcpDemux.emptyNet], by simp [TcpDemux.emptyNet],
    by simp [TcpDemux.emptyNet], by simp [TcpDemux.emptyNet], fun _ _ => rfl, fun _ _ => rfl⟩

/-- Of two segments one is freed when its connection is accepted, and one waits. -/
def twoSyns : List Event :=
  [.openTcp 1 80 TcpDemux.blank, .tcpCall 1 (.listen 5),
    .incoming 1 .tcp 10 TcpDemux.synBytes TcpDemux.nothing,
    .incoming 1 .tcp 11 TcpDemux.synBytes TcpDemux.nothing, .accept 1 2 0 TcpDemux.blank]

theorem packets_have_one_owner_syns : ∃ s, Run Step TcpDemux.emptyNet twoSyns s ∧
    s.heap.freed = [10] ∧ s.heap.Live 11 ∧ ∀ p, s.heap.freed.count p +
      (if s.heap.Live p then 1 else 0) = (twoSyns.flatMap Event.arrived).count p := by
  refine (exists_run (p := fun s => s.heap.freed = [10] ∧ s.heap.Live 11)
    TcpDemux.advance_step (by decide +kernel)).imp fun s ⟨hrun, hfreed, hlive⟩ =>
      ⟨hrun, hfreed, hlive, fun p => ?_⟩
  have hledger := (packets_have_one_owner ⟨_, emptyNet_owned⟩ hrun).2.2 p
  exact hledger.trans (by simp [TcpDemux.emptyNet, Heap.Live])

end Gloworm.PacketOwnership
