import Gloworm.PacketOwnershipModel
import Gloworm.TcpHandshake

/-! Which endpoint gets a segment: `tcp_lookup_endpoint` over the tables that `tcp_create_endpoint`,
the calls of the owners and the accepted connections lead to. -/
namespace Gloworm.TcpDemux
open List Option Word Transition CheckedBytes BlockCustody Tcp PacketDecode PacketOwnership

/-- The parts of an endpoint that decide what it gets: the remote port, and whether it listens. -/
structure Keeps (tep tep' : Endpoint) : Prop where
  remotePort : tep'.remotePort = tep.remotePort
  quiet : tep.state ≠ .listen → tep'.state ≠ .listen

namespace Keeps
variable {tep tep' tep'' : Endpoint}

lemma trans (h : Keeps tep tep') (h' : Keeps tep' tep'') : Keeps tep tep'' :=
  ⟨h'.remotePort.trans h.remotePort, fun hn => h'.quiet (h.quiet hn)⟩

lemma of_same (hp : tep'.remotePort = tep.remotePort) (hs : tep'.state = tep.state) :
    Keeps tep tep' := ⟨hp, fun hn => hs ▸ hn⟩

lemma refl (tep : Endpoint) : Keeps tep tep := of_same rfl rfl
end Keeps

variable {o o' : Outcome} {h : Heap Raw} {tep : Endpoint} {p : ℕ} {pack : Packet}

lemma defined_ok {α : Type} {m : Option α} {a : α} (h : defined m = .ok a) : m = some a := by
  cases m with
  | none => simp [defined] at h
  | some b => simpa [defined] using h

lemma tcpSendPacket_keeps {flags : ℕ} {nbytes : ℤ} {ackbytes : ℕ} {r : Endpoint × Packet}
    (hr : tcpSendPacket tep flags nbytes ackbytes = some r) : Keeps tep r.1 := by
  obtain ⟨rx, tx, hframe⟩ := tcpSendPacket_frame hr
  rw [hframe]
  exact .of_same rfl rfl

lemma reply_keeps {flags : ℕ} {nbytes : ℤ} {ackbytes : ℕ} {done : Bool}
    (ho : reply o flags nbytes ackbytes done = some o') : Keeps o.1 o'.1 := by
  obtain ⟨r, hr, rfl⟩ := map_eq_some_iff.mp ho
  exact tcpSendPacket_keeps hr

lemma tcpCheckClose_keeps (ho : tcpCheckClose tep pack = some o) : Keeps tep o.1 := by
  obtain ⟨o', ho', hsame, -, hcloses, hrst, hplain⟩ := tcpCheckClose_spec tep pack
  obtain rfl : o' = o := some.inj (ho'.symm.trans ho)
  refine ⟨hsame.remotePort, fun hn => ?_⟩
  by_cases hc : Closes tep pack
  · rcases hcloses hc with hs | hs | hs <;> simp [hs]
  · by_cases hr : pack.has flagRst
    · simp [hrst hc hr]
    · rw [hplain hc hr]
      exact hn

lemma checkClose_keeps : Gives (checkClose h tep p pack) fun r => Keeps tep r.1.1 := by
  unfold checkClose
  refine .bind fun _ _ => .bind fun o ho => ?_
  have hkeep := tcpCheckClose_keeps (defined_ok ho)
  split_ifs
  · exact .bind fun _ _ => gives_ok hkeep
  · exact gives_ok hkeep

lemma deliver_keeps (tep : Endpoint) (pack : Packet) : Keeps tep (deliver tep pack).1 := by
  refine .of_same ?_ (deliver_frame tep pack).2.2.2.2.2
  by_cases hnew : tep.rxLastSeq < add32 pack.seqnum (toUnsigned pack.data.length)
  · simp only [deliver, if_pos hnew]
  · simp only [deliver, if_neg hnew]

lemma checkWaiting_keeps {fuel : ℕ} {cur : Option ℕ} :
    Gives (checkWaiting fuel h tep cur) fun r => Keeps tep r.1.1 := by
  induction fuel generalizing h tep cur with
  | zero =>
    rw [checkWaiting]
    exact gives_error _ _
  | succ fuel ih =>
    cases cur with
    | none =>
      rw [checkWaiting]
      exact gives_ok (.refl tep)
    | some cur =>
      rw [checkWaiting]
      refine .bind fun _ _ => ?_
      have hdeliver := deliver_keeps tep (tep.packets cur)
      split_ifs
      · exact gives_ok (.refl tep)
      · refine .bind fun _ _ => .bind fun _ _ => fun r hr => ?_
        have hremove : Keeps (deliver tep (tep.packets cur)).1
            (removePacket (deliver tep (tep.packets cur)).1 cur) := .of_same rfl rfl
        exact (hdeliver.trans hremove).trans (ih r hr)
      · exact gives_ok hdeliver

lemma queuePacket_keeps : Gives (queuePacket h tep p pack) fun tep' => Keeps tep tep' := by
  unfold queuePacket
  exact .bind fun _ _ => .bind fun _ _ => .bind fun _ _ => gives_ok (.of_same rfl rfl)

lemma receivePacket_keeps : Gives (receivePacket h o p pack) fun r => Keeps o.1 r.1.1 := by
  unfold receivePacket
  refine .bind fun tep htep => .bind fun r hr => ?_
  have hqueue : Keeps o.1 tep := queuePacket_keeps tep htep
  have hwait := hqueue.trans (checkWaiting_keeps r hr)
  split_ifs
  · exact .bind fun o' ho' => gives_ok (hwait.trans (reply_keeps (defined_ok ho')))
  · exact gives_ok hwait

lemma forwardEstablished_keeps :
    Gives (forwardEstablished h tep p pack) fun r => Keeps tep r.1.1 := by
  unfold forwardEstablished
  refine .bind fun r hr => ?_
  have hclose := checkClose_keeps r hr
  by_cases hdone : r.1.2.2
  · rw [if_pos hdone]
    exact gives_ok hclose
  · rw [if_neg hdone]
    refine .bind fun _ _ => .bind fun o ho => ?_
    have hack : Keeps r.1.1 o.1 := by
      have := defined_ok ho
      split_ifs at this
      · obtain ⟨_, _, _, _, hchanges⟩ := acknowledge_changes this
        rw [hchanges]
        exact .of_same rfl rfl
      · exact some.inj this ▸ .refl _
    split_ifs
    · exact fun r' hr' => (hclose.trans hack).trans (receivePacket_keeps r' hr')
    · exact .bind fun _ _ => gives_ok (hclose.trans hack)

lemma forwardSynRecv_keeps : Gives (forwardSynRecv h tep p pack) fun r => Keeps tep r.1.1 := by
  unfold forwardSynRecv
  refine .bind fun r hr => ?_
  have hclose := checkClose_keeps r hr
  by_cases hdone : r.1.2.2
  · rw [if_pos hdone]
    exact gives_ok hclose
  · rw [if_neg hdone]
    refine .bind fun _ _ => ?_
    split_ifs
    · exact gives_ok hclose
    · exact gives_ok hclose
    · exact .bind fun _ _ => gives_ok (hclose.trans ⟨rfl, fun _ => by simp⟩)

lemma forwardSynSent_keeps : Gives (forwardSynSent h tep p pack) fun r => Keeps tep r.1.1.1 := by
  unfold forwardSynSent
  refine .bind fun r hr => ?_
  have hclose := checkClose_keeps r hr
  by_cases hdone : r.1.2.2
  · rw [if_pos hdone]
    exact gives_ok hclose
  · rw [if_neg hdone]
    refine .bind fun _ _ => ?_
    split_ifs
    · exact gives_ok hclose
    · exact gives_ok hclose
    · refine .bind fun _ _ => .bind fun o ho => gives_ok ?_
      have hopen : Keeps r.1.1 { r.1.1 with rxLastSeq := pack.seqnum, state := .established } :=
        ⟨rfl, fun _ => by simp⟩
      exact (hclose.trans hopen).trans (reply_keeps (defined_ok ho))

/-- The addresses of an endpoint stay, and a closed one stays closed. -/
structure Steady (s t : Session) : Prop where
  localPort : t.localPort = s.localPort
  remoteAddr : t.remoteAddr = s.remoteAddr
  remotePort : t.tep.remotePort = s.tep.remotePort
  listens : t.tep.state = .listen ↔ s.tep.state = .listen
  closed : s.tep.state = .closed → t.tep.state = .closed

lemma Steady.refl (s : Session) : Steady s s := ⟨rfl, rfl, rfl, Iff.rfl, id⟩

lemma Steady.of_keeps {s t : Session} (hk : Keeps s.tep t.tep) (hl : t.localPort = s.localPort)
    (ha : t.remoteAddr = s.remoteAddr) (hopen : s.tep.state ≠ .closed)
    (hnot : s.tep.state ≠ .listen) : Steady s t :=
  ⟨hl, ha, hk.remotePort, ⟨fun h => absurd h (hk.quiet hnot), fun h => absurd h hnot⟩,
    fun h => absurd h hopen⟩

lemma forwardSegment_steady (h : Heap Raw) (s : Session) (p : ℕ) (pack : Packet) :
    Gives (forwardSegment h s p pack) fun r => Steady s r.1.1 := by
  unfold forwardSegment
  cases hstate : s.tep.state with
  | closed => exact gives_ok (.refl s)
  | listen =>
    unfold forwardListen
    refine .bind fun _ _ => ?_
    split_ifs
    · exact gives_ok (.refl s)
    · exact gives_ok (.refl s)
    · exact .bind fun _ _ => gives_ok ⟨rfl, rfl, rfl, Iff.rfl, id⟩
  | synSent =>
    refine .map fun r hr => ?_
    have hk := forwardSynSent_keeps r hr
    dsimp only
    split_ifs
    all_goals exact .of_keeps hk rfl rfl (by simp [hstate]) (by simp [hstate])
  | synRecv =>
    exact .map fun r hr => .of_keeps (forwardSynRecv_keeps r hr) rfl rfl (by simp [hstate])
      (by simp [hstate])
  | established =>
    exact .map fun r hr => .of_keeps (forwardEstablished_keeps r hr) rfl rfl (by simp [hstate])
      (by simp [hstate])
  | _ =>
    exact .map fun r hr => .of_keeps (checkClose_keeps r hr) rfl rfl (by simp [hstate])
      (by simp [hstate])

def remote (s : Net) (a : ℕ) : ℕ × ℕ := ((s.sessions a).remoteAddr, (s.sessions a).tep.remotePort)

def localPort (s : Net) (a : ℕ) : ℕ := (s.sessions a).localPort

def Listens (s : Net) (a : ℕ) : Prop := (s.sessions a).tep.state = .listen
deriving Decidable

def Connected (s : Net) (a : ℕ) : Prop :=
  (s.sessions a).tep.state ≠ .closed ∧ (s.sessions a).tep.state ≠ .listen
deriving Decidable

def Before (s : Net) (a b : ℕ) : Prop := List.Sublist [a, b] s.tcpEndpoints

/-- No endpoint stands before a connection whose segments it would get. -/
structure Apart (s : Net) : Prop where
  nodup : s.tcpEndpoints.Nodup
  listeners : ∀ a b, Before s a b → Listens s a → Listens s b → localPort s a ≠ localPort s b
  visible : ∀ a b, Before s a b → Connected s b → localPort s a = localPort s b →
    ¬ Listens s a ∧ remote s a ≠ remote s b

variable {s t : Net} {a b : ℕ}

lemma Before.mem (h : Before s a b) : a ∈ s.tcpEndpoints ∧ b ∈ s.tcpEndpoints :=
  ⟨h.subset (by simp), h.subset (by simp)⟩

lemma Before.ne (hn : s.tcpEndpoints.Nodup) (h : Before s a b) : a ≠ b := by
  have := hn.sublist h
  simpa using this

lemma find_first {l : List ℕ} {q : ℕ → Bool} (ha : a ∈ l) (hq : q a = true)
    (hfirst : ∀ b, List.Sublist [b, a] l → q b = false) : l.find? q = some a := by
  induction l with
  | nil => simp at ha
  | cons c l ih =>
    rcases mem_cons.mp ha with rfl | ha
    · rw [List.find?_cons_of_pos hq]
    · have hc : q c = false := hfirst c ((singleton_sublist.mpr ha).cons_cons c)
      rw [List.find?_cons_of_neg (by simp [hc])]
      exact ih ha fun b hb => hfirst b (hb.cons c)

lemma Apart.lookup (h : Apart s) (ha : a ∈ s.tcpEndpoints) (hc : Connected s a) :
    tcpLookupEndpoint s (localPort s a) (some (remote s a)) = some a := by
  apply find_first ha
  · simp [localPort, remote]
  · intro b hb
    rw [decide_eq_false_iff_not]
    rintro ⟨hport, hmatch⟩
    obtain ⟨hquiet, hother⟩ := h.visible b a hb hc hport
    rcases hmatch with hl | hr
    · exact hquiet hl
    · exact hother (some.inj hr).symm

lemma Apart.listener_unique (h : Apart s) (ha : a ∈ s.tcpEndpoints) (hb : b ∈ s.tcpEndpoints)
    (hla : Listens s a) (hlb : Listens s b) (hport : localPort s a = localPort s b) : a = b := by
  have hpair : s.tcpEndpoints.Pairwise fun a b =>
      Listens s a → Listens s b → localPort s a ≠ localPort s b :=
    pairwise_iff_forall_sublist.mpr fun hsub => h.listeners _ _ hsub
  have hsymm : Std.Symm fun a b => Listens s a → Listens s b → localPort s a ≠ localPort s b :=
    ⟨fun a b hab hb ha => (hab ha hb).symm⟩
  by_contra hne
  exact hpair.forall ha hb hne hla hlb hport

lemma Steady.connected (h : Steady (s.sessions a) (t.sessions a)) (hc : Connected t a) :
    Connected s a := ⟨fun he => hc.1 (h.closed he), fun he => hc.2 (h.listens.mpr he)⟩

lemma Steady.remote (h : Steady (s.sessions a) (t.sessions a)) :
    TcpDemux.remote t a = TcpDemux.remote s a := by
  rw [TcpDemux.remote, h.remoteAddr, h.remotePort, TcpDemux.remote]

lemma Apart.steady (h : Apart s) (hsub : List.Sublist t.tcpEndpoints s.tcpEndpoints)
    (hsteady : ∀ a ∈ t.tcpEndpoints, Steady (s.sessions a) (t.sessions a)) : Apart t := by
  refine ⟨h.nodup.sublist hsub, fun a b hab hla hlb => ?_, fun a b hab hc hport => ?_⟩
  · obtain ⟨ha, hb⟩ := hab.mem
    rw [localPort, localPort, (hsteady a ha).localPort, (hsteady b hb).localPort]
    exact h.listeners a b (hab.trans hsub) ((hsteady a ha).listens.mp hla)
      ((hsteady b hb).listens.mp hlb)
  · obtain ⟨ha, hb⟩ := hab.mem
    rw [localPort, localPort, (hsteady a ha).localPort, (hsteady b hb).localPort] at hport
    obtain ⟨hquiet, hother⟩ := h.visible a b (hab.trans hsub) ((hsteady b hb).connected hc) hport
    rw [(hsteady a ha).remote, (hsteady b hb).remote]
    exact ⟨fun hl => hquiet ((hsteady a ha).listens.mp hl), hother⟩

variable {u : Session}

lemma Apart.addTcp (h : Apart s) (ha : a ∉ s.tcpEndpoints) (hquiet : u.tep.state ≠ .listen)
    (hnew : ∀ b ∈ s.tcpEndpoints, Connected s b → localPort s b = u.localPort →
      remote s b ≠ (u.remoteAddr, u.tep.remotePort)) : Apart (s.addTcp a u) := by
  have hold : ∀ b ∈ s.tcpEndpoints, (s.addTcp a u).sessions b = s.sessions b := by
    intro b hb
    have hne : b ≠ a := fun he => ha (he ▸ hb)
    simp [Net.addTcp, hne]
  have hself : (s.addTcp a u).sessions a = u := by simp [Net.addTcp]
  have hcases : ∀ {x y}, Before (s.addTcp a u) x y → (x = a ∧ y ∈ s.tcpEndpoints) ∨ Before s x y := by
    intro x y hxy
    rcases sublist_cons_iff.mp hxy with hxy | ⟨r, hr, hxy⟩
    · exact .inr hxy
    · obtain ⟨rfl, rfl⟩ := List.cons.inj hr
      exact .inl ⟨rfl, singleton_sublist.mp hxy⟩
  refine ⟨nodup_cons.mpr ⟨ha, h.nodup⟩, fun x y hxy hlx hly => ?_, fun x y hxy hc hport => ?_⟩
  · rcases hcases hxy with ⟨rfl, -⟩ | hxy
    · rw [Listens, hself] at hlx
      exact absurd hlx hquiet
    · obtain ⟨hx, hy⟩ := hxy.mem
      rw [Listens, hold x hx] at hlx
      rw [Listens, hold y hy] at hly
      rw [localPort, localPort, hold x hx, hold y hy]
      exact h.listeners x y hxy hlx hly
  · rcases hcases hxy with ⟨rfl, hy⟩ | hxy
    · rw [Connected, hold y hy] at hc
      rw [localPort, localPort, hself, hold y hy] at hport
      rw [Listens, remote, remote, hself, hold y hy]
      exact ⟨hquiet, fun he => hnew y hy hc hport.symm he.symm⟩
    · obtain ⟨hx, hy⟩ := hxy.mem
      rw [Connected, hold y hy] at hc
      rw [localPort, localPort, hold x hx, hold y hy] at hport
      rw [Listens, remote, remote, hold x hx, hold y hy]
      exact h.visible x y hxy hc hport

lemma setSession_same (hport : u.localPort = localPort s a) : (s.setSession a u).sessions a = u ∧
    (∀ b, b ≠ a → (s.setSession a u).sessions b = s.sessions b) ∧
    ∀ b, localPort (s.setSession a u) b = localPort s b := by
  have hself : (s.setSession a u).sessions a = u := by simp [Net.setSession]
  have hold : ∀ b, b ≠ a → (s.setSession a u).sessions b = s.sessions b := by
    intro b hb
    simp [Net.setSession, hb]
  refine ⟨hself, hold, fun b => ?_⟩
  by_cases hb : b = a
  · rw [hb, localPort, hself, hport]
  · rw [localPort, hold b hb, localPort]

lemma Apart.listen (h : Apart s) (hl : u.tep.state = .listen) (hport : u.localPort = localPort s a)
    (halone : ∀ b ∈ s.tcpEndpoints, b ≠ a → localPort s b = localPort s a → ¬ Listens s b)
    (hlast : ∀ b, Before s a b → localPort s b = localPort s a → ¬ Connected s b) :
    Apart (s.setSession a u) := by
  obtain ⟨hself, hold, hports⟩ := setSession_same hport
  refine ⟨h.nodup, fun x y hxy hlx hly => ?_, fun x y hxy hc hxyp => ?_⟩
  · rw [hports, hports]
    have hxy' : Before s x y := hxy
    have hne := hxy'.ne h.nodup
    obtain ⟨hx, hy⟩ := hxy'.mem
    by_cases hxa : x = a
    · subst hxa
      rw [Listens, hold y hne.symm] at hly
      exact fun he => halone y hy hne.symm he.symm hly
    · rw [Listens, hold x hxa] at hlx
      by_cases hya : y = a
      · subst hya
        exact fun he => halone x hx hxa he hlx
      · rw [Listens, hold y hya] at hly
        exact h.listeners x y hxy' hlx hly
  · rw [hports, hports] at hxyp
    have hxy' : Before s x y := hxy
    have hne := hxy'.ne h.nodup
    have hya : y ≠ a := by
      rintro rfl
      exact hc.2 (by rw [hself, hl])
    rw [Connected, hold y hya] at hc
    by_cases hxa : x = a
    · subst hxa
      exact absurd hc (hlast y hxy' hxyp.symm)
    · rw [Listens, remote, remote, hold x hxa, hold y hya]
      exact h.visible x y hxy' hc hxyp

lemma Apart.connect (h : Apart s) {addr port : ℕ} (hu : u.tep.state = .synSent)
    (hport : u.localPort = localPort s a) (hremote : (u.remoteAddr, u.tep.remotePort) = (addr, port))
    (hfront : ∀ b, Before s b a → localPort s b = localPort s a →
      ¬ Listens s b ∧ remote s b ≠ (addr, port))
    (hbehind : ∀ b, Before s a b → localPort s b = localPort s a → Connected s b →
      remote s b ≠ (addr, port)) : Apart (s.setSession a u) := by
  obtain ⟨hself, hold, hports⟩ := setSession_same hport
  have hquiet : ¬ Listens (s.setSession a u) a := by
    rw [Listens, hself, hu]
    decide
  refine ⟨h.nodup, fun x y hxy hlx hly => ?_, fun x y hxy hc hxyp => ?_⟩
  · have hxa : x ≠ a := fun he => hquiet (he ▸ hlx)
    have hya : y ≠ a := fun he => hquiet (he ▸ hly)
    rw [Listens, hold x hxa] at hlx
    rw [Listens, hold y hya] at hly
    rw [hports, hports]
    exact h.listeners x y hxy hlx hly
  · rw [hports, hports] at hxyp
    have hxy' : Before s x y := hxy
    have hne := hxy'.ne h.nodup
    by_cases hxa : x = a
    · subst hxa
      rw [Connected, hold y hne.symm] at hc
      refine ⟨hquiet, ?_⟩
      rw [remote, remote, hself, hold y hne.symm, hremote]
      exact fun he => hbehind y hxy' hxyp.symm hc he.symm
    · by_cases hya : y = a
      · subst hya
        rw [Listens, remote, remote, hold x hxa, hself, hremote]
        exact hfront x hxy' hxyp
      · rw [Connected, hold y hya] at hc
        rw [Listens, remote, remote, hold x hxa, hold y hya]
        exact h.visible x y hxy' hc hxyp

/-- A created endpoint has the remote address 0 until it connects, and must not hide a connection
with it. An endpoint listens or connects when it hides no connection and is not hidden. -/
def Clear (s : Net) : PacketOwnership.Event → Prop
  | .openTcp _ port _ => (∃ b ∈ s.tcpEndpoints, Listens s b ∧ localPort s b = port) ∨
      ∀ b ∈ s.tcpEndpoints, Connected s b → localPort s b = port → remote s b ≠ (0, 0)
  | .tcpCall a (.listen _) => (s.sessions a).tep.state = .closed →
      (∀ b ∈ s.tcpEndpoints, b ≠ a → localPort s b = localPort s a → ¬ Listens s b) ∧
      ∀ b, Before s a b → localPort s b = localPort s a → ¬ Connected s b
  | .tcpCall a (.connect addr port _) => (s.sessions a).tep.state = .closed →
      (∀ b, Before s b a → localPort s b = localPort s a →
        ¬ Listens s b ∧ remote s b ≠ (addr, port)) ∧
      ∀ b, Before s a b → localPort s b = localPort s a → Connected s b → remote s b ≠ (addr, port)
  | .accept a _ _ _ => Listens s a → ∀ p pack, (s.sessions a).tep.recvQueue.head () = some p →
      s.heap.blocks p = some pack → ∀ b ∈ s.tcpEndpoints, Connected s b →
      localPort s b = localPort s a → remote s b ≠ (pack.srcAddr, pack.srcPort)
  | _ => True

def Calm (s t : Net) : Prop :=
  t.tcpEndpoints = s.tcpEndpoints ∧ ∀ a, Steady (s.sessions a) (t.sessions a)

lemma Calm.of_same (ht : t.tcpEndpoints = s.tcpEndpoints) (hs : t.sessions = s.sessions) :
    Calm s t := ⟨ht, fun _ => hs ▸ .refl _⟩

lemma Calm.setSession {heap : Heap Raw} (hu : Steady (s.sessions a) u) :
    Calm s ((s.setHeap heap).setSession a u) := by
  refine ⟨rfl, fun b => ?_⟩
  by_cases hb : b = a
  · subst hb
    simpa [Net.setSession, Net.setHeap] using hu
  · simpa [Net.setSession, Net.setHeap, hb] using Steady.refl (s.sessions b)

lemma Apart.calm (h : Apart s) (hc : Calm s t) : Apart t :=
  h.steady (hc.1 ▸ List.Sublist.refl _) fun a _ => hc.2 a

lemma tcpForwardTo_calm (s : Net) (a p : ℕ) (pack : Raw) (found : Packet) :
    Gives (tcpForwardTo s a p pack found) fun r => Calm s r.2 := by
  unfold tcpForwardTo
  exact .bind fun _ _ => .bind fun r hr =>
    gives_ok (Calm.setSession (forwardSegment_steady _ _ _ _ r hr))

lemma forwardTransport_calm (s : Net) (proto : Proto) (p : ℕ) (stray : Stray) :
    Gives (forwardTransport s proto p stray) fun r => Calm s r.2 := by
  unfold forwardTransport
  refine .bind fun pack _ => ?_
  cases proto with
  | ip => exact gives_ok (.of_same rfl rfl)
  | tcp =>
    dsimp only
    cases tcpLookupEndpoint s pack.destPort (some (pack.srcAddr, pack.srcPort)) with
    | none => exact gives_ok (.of_same rfl rfl)
    | some a => exact tcpForwardTo_calm s a p pack stray.segment
  | udp =>
    dsimp only
    cases udpLookupEndpoint s pack.destPort with
    | none => exact gives_ok (.of_same rfl rfl)
    | some a =>
      unfold udpForwardTo
      exact .bind fun _ _ => gives_ok (.of_same rfl rfl)
  | icmp =>
    unfold icmpForwardFrom
    refine .bind fun out _ => ?_
    cases out with
    | replied data => exact .bind fun _ _ => gives_ok (.of_same rfl rfl)
    | _ => exact gives_ok (.of_same rfl rfl)

lemma netIncomingPacket_calm (depth : ℕ) (proto : Proto) (s : Net) (p : ℕ) (stray : Stray) :
    Gives (netIncomingPacket depth proto s p stray) fun r => Calm s r.2 := by
  unfold netIncomingPacket
  refine .bind fun pack _ => .bind fun parsed _ => ?_
  cases parsed with
  | rejected error => exact .bind fun _ _ => gives_ok (.of_same rfl rfl)
  | accepted pack =>
    refine .bind fun r hr => ?_
    have hforward : Calm s r.2 := by
      have hproto : Gives (forwardProto (s.setHeap (s.heap.store p pack)) proto p stray)
          fun r => Calm s r.2 := by
        unfold forwardProto
        refine .bind fun pack' _ => ?_
        split
        · exact gives_ok (.of_same rfl rfl)
        all_goals exact forwardTransport_calm _ _ p stray
      exact hproto r hr
    split_ifs
    · exact gives_ok hforward
    · exact .bind fun _ _ => gives_ok ⟨hforward.1, hforward.2⟩

lemma perform_steady {v : Session} {c : Tcp.Call} (hv : u.perform c = some v)
    (howner : OwnerCall c) (hlisten : ∀ queue, c = .listen queue → u.tep.state ≠ .closed)
    (hconnect : ∀ addr port isn, c = .connect addr port isn → u.tep.state ≠ .closed) :
    Steady u v := by
  cases c with
  | segment p pack => exact absurd howner id
  | accept => exact absurd howner id
  | listen queue =>
    obtain rfl | ⟨hclosed, -⟩ := Session.listen_cases hv
    · exact .refl _
    · exact absurd hclosed (hlisten queue rfl)
  | connect addr port isn =>
    obtain rfl | ⟨hclosed, -⟩ := Session.connect_cases hv
    · exact .refl _
    · exact absurd hclosed (hconnect addr port isn rfl)
  | shutdown =>
    obtain rfl | ⟨⟨hclosed, hlistens⟩, rx, seq, rfl⟩ := Session.shutdown_cases hv
    · exact .refl _
    · refine .of_keeps ⟨rfl, fun _ => ?_⟩ rfl rfl hclosed hlistens
      dsimp only
      split_ifs <;> simp
  | send data =>
    obtain rfl | ⟨hstate, -, rx, seq, rfl⟩ := Session.send_cases hv
    · exact .refl _
    · exact .of_keeps (.of_same rfl rfl) rfl rfl (by simp [hstate]) (by simp [hstate])
  | recv size =>
    obtain rfl | ⟨rx, rfl⟩ := Session.recv_cases hv
    · exact .refl _
    · exact ⟨rfl, rfl, rfl, Iff.rfl, id⟩

lemma tcpCall_apart (h : Apart s) {c : Tcp.Call} (hclear : Clear s (.tcpCall a c))
    (howner : OwnerCall c) (hu : (s.sessions a).perform c = some u) : Apart (s.setSession a u) := by
  by_cases hclosed : (s.sessions a).tep.state = .closed
  · cases c with
    | listen queue =>
      obtain ⟨halone, hlast⟩ := hclear hclosed
      simp only [Session.perform, tcpEndpointListen, if_neg (not_not.mpr hclosed), some.injEq] at hu
      subst hu
      exact h.listen rfl rfl halone hlast
    | connect addr port isn =>
      obtain ⟨hfront, hbehind⟩ := hclear hclosed
      obtain ⟨r, hr, rfl⟩ := map_eq_some_iff.mp hu
      unfold tcpEndpointConnect at hr
      rw [if_neg (by simp [hclosed]), if_neg (not_not.mpr hclosed)] at hr
      obtain ⟨sent, hsent, rfl⟩ := map_eq_some_iff.mp hr
      have hport : sent.1.remotePort = port := (tcpSendPacket_keeps hsent).remotePort
      exact h.connect rfl rfl (by rw [← hport]) hfront hbehind
    | _ =>
      exact h.calm (Calm.setSession (perform_steady hu howner
        (fun _ he => by cases he) (fun _ _ _ he => by cases he)))
  · exact h.calm (Calm.setSession (perform_steady hu howner
      (fun _ _ => hclosed) (fun _ _ _ _ => hclosed)))

lemma tcpEndpointAccept_ok {r : Session × ℕ} (hr : tcpEndpointAccept u = .ok r) :
    u.tep.state = .listen ∧ u.tep.recvQueue.head () = some r.2 ∧ Steady u r.1 := by
  unfold tcpEndpointAccept at hr
  split_ifs at hr with hstate
  cases hhead : u.tep.recvQueue.head () with
  | none => simp [hhead] at hr
  | some p =>
    rw [hhead] at hr
    obtain rfl := Except.ok.inj hr
    exact ⟨not_not.mp hstate, rfl, rfl, rfl, rfl, Iff.rfl, id⟩

variable {mem : Memory}

lemma tcpCreateClientEndpoint_address {v : Session} {syn sent : Packet} {addr port isn : ℕ}
    (hv : tcpCreateClientEndpoint u syn addr port isn mem.packets mem.rxMem mem.txMem =
      some (v, sent)) :
    v.localPort = u.localPort ∧ (v.remoteAddr, v.tep.remotePort) = (addr, port) ∧
      v.tep.state ≠ .listen := by
  unfold tcpCreateClientEndpoint at hv
  obtain ⟨r, hr, he⟩ := map_eq_some_iff.mp hv
  obtain ⟨rfl, -⟩ := Prod.mk.inj he
  have hkeep := tcpSendPacket_keeps hr
  exact ⟨rfl, Prod.ext rfl hkeep.remotePort, hkeep.quiet (by simp)⟩

lemma acceptPacket_apart (h : Apart s) {client isn : ℕ}
    (hclear : Clear s (.accept a client isn mem)) (hfresh : client ∉ s.tcpEndpoints) :
    Gives (acceptPacket s a client isn mem) fun t => Apart t := by
  unfold acceptPacket
  cases haccept : tcpEndpointAccept (s.sessions a) with
  | error e => exact gives_ok h
  | ok r =>
    refine .bind fun _ _ => .bind fun pack hpack => .bind fun c hc => .bind fun h' _ => gives_ok ?_
    obtain ⟨hlistens, hhead, hr⟩ := tcpEndpointAccept_ok haccept
    obtain ⟨hport, hremote, hquiet⟩ := tcpCreateClientEndpoint_address (defined_ok hc)
    have hcalm : Calm s ((s.setHeap h').setSession a r.1) := Calm.setSession hr
    have hblock : s.heap.blocks r.2 = some pack := by
      unfold Heap.touch at hpack
      split at hpack
      · next hb => rw [hb, Except.ok.inj hpack]
      · cases hpack
    apply (h.calm hcalm).addTcp hfresh hquiet
    intro b hb hconn hsame
    have hsteady := hcalm.2 b
    rw [hremote, hsteady.remote]
    rw [localPort, hsteady.localPort, hport, hr.localPort] at hsame
    exact hclear hlistens r.2 pack hhead hblock b hb (hsteady.connected hconn) hsame

lemma tcpCreateEndpoint_apart (h : Apart s) {port : ℕ}
    (hclear : Clear s (.openTcp a port mem)) (hfresh : a ∉ s.tcpEndpoints) :
    Apart (tcpCreateEndpoint s a port mem) := by
  unfold tcpCreateEndpoint
  split_ifs with hused
  · exact h
  · apply h.addTcp hfresh
    · simp [tcpAllocEndpoint]
    · rcases hclear with ⟨b, hb, hl, hp⟩ | hnone
      · have hfound : (tcpLookupEndpoint s port none).isSome = true :=
          List.find?_isSome.mpr ⟨b, hb, decide_eq_true ⟨hp, .inl hl⟩⟩
        exact absurd hfound hused
      · exact hnone

lemma step_apart {e : PacketOwnership.Event} (h : Apart s)
    (hs : Guarded Clear PacketOwnership.Step s e t) : Apart t := by
  obtain ⟨hclear, hperm, hs⟩ := hs
  cases e with
  | incoming depth proto p pack stray =>
    have hcalm : Gives ((netIncomingPacket depth proto (s.arrive p pack) p stray).map Prod.snd)
        fun t => Calm s t :=
      .map fun r hr => netIncomingPacket_calm depth proto (s.arrive p pack) p stray r hr
    exact h.calm (hcalm t hs)
  | accept a client isn mem => exact acceptPacket_apart h hclear hperm.2 t hs
  | recvFrom a =>
    have hcalm : Gives (udpEndpointRecvFrom s a) fun t => Calm s t := by
      unfold udpEndpointRecvFrom
      cases (s.sockets a).recvQueue.head () with
      | none => exact gives_ok (.of_same rfl rfl)
      | some p =>
        exact .bind fun _ _ => .bind fun _ _ => .bind fun _ _ => gives_ok (.of_same rfl rfl)
    exact h.calm (hcalm t hs)
  | tcpCall a c =>
    have happly : Gives ((defined ((s.sessions a).perform c)).map (s.setSession a))
        fun t => Apart t :=
      .map fun u hu => tcpCall_apart h hclear hperm.2 (defined_ok hu)
    exact happly t hs
  | openTcp a port mem => exact Except.ok.inj hs ▸ tcpCreateEndpoint_apart h hclear hperm
  | openUdp a port =>
    obtain rfl := Except.ok.inj hs
    apply h.calm
    unfold udpCreateEndpoint
    split_ifs <;> exact .of_same rfl rfl
  | destroyTcp a =>
    have hleave : Gives (tcpDestroyEndpoint s a) fun t => Apart t := by
      have herase : ∀ h', Apart ⟨h', s.tcpEndpoints.erase a, s.sessions, s.udpEndpoints, s.sockets⟩ :=
        fun h' => h.steady erase_sublist fun b _ => .refl _
      unfold tcpDestroyEndpoint
      dsimp only
      split_ifs
      all_goals exact .bind fun _ _ => .bind fun _ _ => gives_ok (herase _)
    exact hleave t hs
  | destroyUdp a =>
    have hcalm : Gives (udpDestroyEndpoint s a) fun t => Calm s t := by
      unfold udpDestroyEndpoint
      exact .bind fun _ _ => gives_ok (.of_same rfl rfl)
    exact h.calm (hcalm t hs)

/-- Along every history that keeps the table unambiguous, one endpoint at most listens on a port,
and segments are given to the endpoint of their connection. -/
theorem segments_find_endpoint {s₀ : Net} {es : List PacketOwnership.Event}
    (hempty : s₀.tcpEndpoints = []) (hrun : Run (Guarded Clear PacketOwnership.Step) s₀ es s) :
    (∀ a ∈ s.tcpEndpoints, ∀ b ∈ s.tcpEndpoints, Listens s a → Listens s b →
      localPort s a = localPort s b → a = b) ∧ ∀ a ∈ s.tcpEndpoints, Connected s a →
      tcpLookupEndpoint s (localPort s a) (some (remote s a)) = some a := by
  have hstart : Apart s₀ := by
    refine ⟨by simp [hempty], fun a b hab => ?_, fun a b hab => ?_⟩
    all_goals
      have := hab.mem.1
      simp [hempty] at this
  have hapart : Apart s := hrun.preserves (I := Apart) hstart fun _ _ _ ht hs => step_apart ht hs
  exact ⟨fun a ha b hb hla hlb hport => hapart.listener_unique ha hb hla hlb hport,
    fun a ha hc => hapart.lookup ha hc⟩

instance (s : Net) (e : PacketOwnership.Event) : Decidable (PacketOwnership.Permitted s e) :=
  match e with
  | .tcpCall _ c => match c with
    | .segment .. | .accept | .listen _ | .connect .. | .shutdown | .send _ | .recv _ => by
      dsimp only [PacketOwnership.Permitted, OwnerCall]; infer_instance
  | .incoming .. | .accept .. | .recvFrom _ | .openTcp .. | .openUdp .. | .destroyTcp _
  | .destroyUdp _ => by dsimp only [PacketOwnership.Permitted]; infer_instance

def advance (s : Net) (e : PacketOwnership.Event) : Option Net :=
  if PacketOwnership.Permitted s e then (perform s e).toOption else none

lemma advance_step (s : Net) (e : PacketOwnership.Event) (t : Net) (h : advance s e = some t) :
    PacketOwnership.Step s e t := by
  unfold advance at h
  split_ifs at h with hp
  refine ⟨hp, ?_⟩
  cases hs : perform s e with
  | error stop => simp [hs, Except.toOption] at h
  | ok u =>
    rw [hs] at h
    exact congrArg Except.ok (some.inj h)

def blank : Memory := ⟨fun _ => ⟨0, 0, 0, []⟩, fun _ => 0, fun _ => 0⟩

def emptyNet : Net where
  heap := ⟨fun _ => none, []⟩
  tcpEndpoints := []
  sessions := fun _ => tcpAllocEndpoint 0 0 0 blank.packets blank.rxMem blank.txMem
  udpEndpoints := []
  sockets := fun _ => ⟨0, Queue.queueInit, []⟩

def synBytes : Raw :=
  ⟨[0x13, 0x88, 0, 80, 0, 0, 0, 0, 0, 0, 0, 0, 0x50, 0x02, 0, 0, 0x9C, 0x04, 0, 0], some .tcp, 0, 0,
    0, 7, 0, 0, 0⟩

def nothing : Stray := ⟨.rejected 0, ⟨0, 0, 0, []⟩, .dropped⟩

theorem segments_miss_endpoint :
    (∃ es s, Run PacketOwnership.Step emptyNet es s ∧ 1 ∈ s.tcpEndpoints ∧ 2 ∈ s.tcpEndpoints ∧
      Listens s 1 ∧ Listens s 2 ∧ localPort s 1 = localPort s 2) ∧
    (∃ es s, Run PacketOwnership.Step emptyNet es s ∧ 1 ∈ s.tcpEndpoints ∧ Connected s 1 ∧
      tcpLookupEndpoint s (localPort s 1) (some (remote s 1)) = some 2 ∧ Listens s 2) ∧
    ∃ es s, Run PacketOwnership.Step emptyNet es s ∧ 2 ∈ s.tcpEndpoints ∧ Connected s 2 ∧
      tcpLookupEndpoint s (localPort s 2) (some (remote s 2)) = some 3 := by
  refine ⟨⟨[.openTcp 1 80 blank, .openTcp 2 80 blank, .tcpCall 1 (.listen 5),
      .tcpCall 2 (.listen 5)], exists_run advance_step (by decide +kernel)⟩,
    ⟨[.openTcp 1 80 blank, .tcpCall 1 (.connect 7 5000 0), .openTcp 2 80 blank,
      .tcpCall 2 (.listen 5)], exists_run advance_step (by decide +kernel)⟩,
    [.openTcp 1 80 blank, .tcpCall 1 (.listen 5), .incoming 1 .tcp 10 synBytes nothing,
      .incoming 1 .tcp 11 synBytes nothing, .accept 1 2 0 blank, .accept 1 3 0 blank],
    exists_run advance_step (by decide +kernel)⟩

theorem segments_find_endpoint_two : ∃ s,
    Run (Guarded Clear PacketOwnership.Step) emptyNet ([.openTcp 1 80 blank] ++
      [.tcpCall 1 (.listen 5)] ++ [.openTcp 2 81 blank] ++ [.tcpCall 2 (.connect 7 5000 0)]) s ∧
    Listens s 1 ∧ Connected s 2 ∧
    tcpLookupEndpoint s (localPort s 2) (some (remote s 2)) = some 2 := by
  have hrun : ∃ s, Run (Guarded Clear PacketOwnership.Step) emptyNet ([.openTcp 1 80 blank] ++
      [.tcpCall 1 (.listen 5)] ++ [.openTcp 2 81 blank] ++ [.tcpCall 2 (.connect 7 5000 0)]) s ∧
      Listens s 1 ∧ 2 ∈ s.tcpEndpoints ∧ Connected s 2 := by
    refine ⟨_, .snoc (.snoc (.snoc (.one ⟨.inr (by decide +kernel), by decide +kernel, rfl⟩)
      ⟨fun _ => ⟨by decide +kernel, fun b hb _ => ?_⟩, by decide +kernel, rfl⟩)
      ⟨.inr (by decide +kernel), by decide +kernel, rfl⟩)
      ⟨fun _ => ⟨fun b hb => ?_, fun b hb hp => ?_⟩, by decide +kernel, rfl⟩, by decide +kernel,
      by decide +kernel, by decide +kernel⟩
    · have hin := hb.mem.2
      change b ∈ [1] at hin
      rw [mem_singleton.mp hin]
      decide +kernel
    · have hin := hb.mem.1
      change b ∈ [2, 1] at hin
      rcases mem_cons.mp hin with rfl | hin
      · exact absurd rfl (hb.ne (by decide +kernel))
      · rw [mem_singleton.mp hin]
        decide +kernel
    · have hin := hb.mem.2
      change b ∈ [2, 1] at hin
      rcases mem_cons.mp hin with rfl | hin
      · exact absurd rfl (hb.ne (by decide +kernel))
      · obtain rfl := mem_singleton.mp hin
        revert hp
        decide +kernel
  obtain ⟨s, hrun, hl, hin, hc⟩ := hrun
  exact ⟨s, hrun, hl, hc, (segments_find_endpoint rfl hrun).2 2 hin hc⟩

end Gloworm.TcpDemux
