import Gloworm.TcpSession

/-! Opening a connection. A client checks the acknowledgement of its SYN; a server does not. -/
namespace Gloworm.Tcp
open Word Transition Option

/-- An endpoint that has just sent its SYN. -/
inductive Opening : Session → ℕ → Option ℕ → Prop
  | client {s start : Session} {addr port isn : ℕ} {sent : List Packet}
      {answer : Except CallError Unit} (hclosed : s.tep.state = .closed)
      (hconnect : tcpEndpointConnect s addr port isn = some (start, sent, answer)) :
      Opening start isn none
  | server {s start : Session} {syn pack : Packet} {remoteAddr remotePort isn : ℕ}
      {packets : ℕ → Packet} {rxMem txMem : ℤ → Byte}
      (hcreate : tcpCreateClientEndpoint s syn remoteAddr remotePort isn packets rxMem txMem =
        some (start, pack)) : Opening start isn (some syn.seqnum)

def SegmentStep (s : Session) (c : Call) (t : Session) : Prop :=
  (∃ p pack, c = .segment p pack ∧ pack.data = []) ∧ s.Step c t

/-- What a server would take for the end of the handshake acknowledges its SYN. -/
def AcksSyn (s : Session) : Call → Prop
  | .segment _ pack => s.tep.state = .synRecv → pack.flags = flagAck →
    pack.seqnum = s.tep.rxLastSeq → pack.acknum = add32 s.tep.txLastSeq 1
  | _ => True

def Handshaking (isn : ℕ) (peer : Option ℕ) (s : Session) : Prop :=
  match peer with
  | none => s.tep.state ≠ .synRecv ∧ (s.tep.state = .synSent → s.tep.txLastSeq = add32 isn 1)
  | some seq => s.tep.state ≠ .synSent ∧
    (s.tep.state = .synRecv → s.tep.txLastSeq = isn ∧ s.tep.rxLastSeq = add32 seq 1)

def Ended (tep : Endpoint) : Prop :=
  tep.state = .closed ∨ tep.state = .closing ∨ tep.state = .closeWait

variable {isn : ℕ} {peer : Option ℕ} {s : Session} {tep : Endpoint} {pack : Packet} {o : Outcome}

lemma Handshaking.of_ended (h : Ended s.tep) : Handshaking isn peer s := by
  cases peer <;> rcases h with h | h | h <;> simp [Handshaking, h]

lemma tcpForwardSynSent_cases {r : Outcome × Bool} (hstate : tep.state = .synSent)
    (hr : tcpForwardSynSent tep pack = some r) :
    Ended r.1.1 ∨ (r.1.1.state = .synSent ∧ r.1.1.txLastSeq = tep.txLastSeq) ∨
      (r.1.1.state = .established ∧ pack.acknum = tep.txLastSeq ∧
        r.1.1.txLastSeq = tep.txLastSeq ∧ r.1.1.rxLastSeq = add32 pack.seqnum 1) := by
  obtain ⟨o, ho, hsame, hdone, hended, hrst, hopen⟩ := tcpCheckClose_spec tep pack
  rw [tcpForwardSynSent, ho, bind_some] at hr
  by_cases hcloses : Closes tep pack
  · rw [if_pos (hdone.mpr hcloses)] at hr
    cases hr
    exact .inl (hended hcloses)
  · rw [if_neg fun hd => hcloses (hdone.mp hd)] at hr
    have hleft : Ended o.1 ∨ (o.1.state = .synSent ∧ o.1.txLastSeq = tep.txLastSeq) := by
      by_cases hr' : pack.has flagRst
      · exact .inl (.inr (.inl (hrst hcloses hr')))
      · rw [hopen hcloses hr']
        exact .inr ⟨hstate, rfl⟩
    split_ifs at hr with hflags hack
    · cases hr
      exact hleft.imp_right .inl
    · cases hr
      exact hleft.imp_right .inl
    · rw [reply_ack _ (.inl rfl)] at hr
      cases hr
      rw [not_not, hsame.txLastSeq] at hack
      exact .inr (.inr ⟨rfl, hack, hsame.txLastSeq, rfl⟩)

lemma tcpForwardSynRecv_cases (hstate : tep.state = .synRecv)
    (ho : tcpForwardSynRecv tep pack = some o) : Ended o.1 ∨
      (o.1.state = .synRecv ∧ o.1.txLastSeq = tep.txLastSeq ∧ o.1.rxLastSeq = tep.rxLastSeq) ∨
      (o.1.state = .established ∧ pack.flags = flagAck ∧ pack.seqnum = tep.rxLastSeq ∧
        o.1.txLastSeq = pack.acknum ∧ o.1.rxLastSeq = tep.rxLastSeq) := by
  obtain ⟨o', ho', hsame, hdone, hended, hrst, hopen⟩ := tcpCheckClose_spec tep pack
  rw [tcpForwardSynRecv, ho', map_some] at ho
  by_cases hcloses : Closes tep pack
  · rw [if_pos (hdone.mpr hcloses)] at ho
    cases ho
    exact .inl (hended hcloses)
  · rw [if_neg fun hd => hcloses (hdone.mp hd)] at ho
    by_cases hr : pack.has flagRst
    · have hflags : pack.flags ≠ flagAck := by
        intro he
        rw [Packet.has, he] at hr
        exact hr rfl
      rw [if_pos hflags] at ho
      cases ho
      exact .inl (.inr (.inl (hrst hcloses hr)))
    · have hkeep := hopen hcloses hr
      have hseq : o'.1.rxLastSeq = tep.rxLastSeq := by rw [hkeep]
      have hleft : o'.1.state = .synRecv ∧ o'.1.txLastSeq = tep.txLastSeq ∧
          o'.1.rxLastSeq = tep.rxLastSeq := by
        rw [hkeep]
        exact ⟨hstate, rfl, rfl⟩
      split_ifs at ho with hflags hexpected
      · cases ho
        exact .inr (.inl hleft)
      · cases ho
        exact .inr (.inl hleft)
      · cases ho
        rw [not_not] at hflags
        rw [not_not, hseq] at hexpected
        exact .inr (.inr ⟨rfl, hflags, hexpected, rfl, hseq⟩)

lemma tcpForwardEstablished_state {p : ℕ} (hstate : tep.state = .established)
    (hdata : pack.data = []) (ho : tcpForwardEstablished tep p pack = some o) :
    Ended o.1 ∨ o.1.state = .established := by
  obtain ⟨o1, ho1, hsame, hdone, hended, hrst, hopen⟩ := tcpCheckClose_spec tep pack
  rw [tcpForwardEstablished, ho1, bind_some] at ho
  by_cases hcloses : Closes tep pack
  · rw [if_pos (hdone.mpr hcloses)] at ho
    cases ho
    exact .inl (hended hcloses)
  · rw [if_neg fun hd => hcloses (hdone.mp hd)] at ho
    obtain ⟨o2, ho2, ho⟩ := bind_eq_some_iff.mp ho
    rw [if_neg (by simp [hdata])] at ho
    cases ho
    have hkeep : o2.1.state = o1.1.state := by
      split_ifs at ho2
      · obtain ⟨_, _, _, _, hchanges⟩ := acknowledge_changes ho2
        rw [hchanges]
      · cases ho2
        rfl
    by_cases hr : pack.has flagRst
    · exact .inl (.inr (.inl (hkeep.trans (hrst hcloses hr))))
    · rw [hopen hcloses hr] at hkeep
      exact .inr (hkeep.trans hstate)

lemma Opening.handshaking (h : Opening s isn peer) : Handshaking isn peer s := by
  cases h with
  | client hclosed hconnect =>
    rw [tcpEndpointConnect, if_neg (by simp [hclosed]), if_neg (by simp [hclosed])] at hconnect
    obtain ⟨r, hr, he⟩ := map_eq_some_iff.mp hconnect
    cases he
    cases hr
    exact ⟨by simp, fun _ => rfl⟩
  | server hcreate =>
    rw [tcpCreateClientEndpoint] at hcreate
    obtain ⟨r, hr, he⟩ := map_eq_some_iff.mp hcreate
    cases he
    cases hr
    have hne : State.synRecv ≠ State.synSent := by decide
    exact ⟨hne, fun _ => ⟨rfl, rfl⟩⟩

def Authentic (isn : ℕ) (peer : Option ℕ) (pack : Packet) (t : Session) : Prop :=
  pack.acknum = add32 isn 1 ∧ t.tep.txLastSeq = add32 isn 1 ∧
    t.tep.rxLastSeq = add32 (peer.getD pack.seqnum) 1

lemma Handshaking.segment {p : ℕ} (h : Handshaking isn peer s) (hdata : pack.data = [])
    (hacks : AcksSyn s (.segment p pack)) {r : Handled} (hr : tcpForwardPacket s p pack = some r) :
    Handshaking isn peer r.1 ∧ (s.tep.state = .synSent ∨ s.tep.state = .synRecv →
      r.1.tep.state = .established → Authentic isn peer pack r.1) := by
  have hopened : ∀ t : Session, t.tep.state = .established → Handshaking isn peer t := by
    intro t ht
    cases peer <;> simp [Handshaking, ht]
  unfold tcpForwardPacket at hr
  cases hstate : s.tep.state with
  | closed =>
    rw [hstate] at hr
    cases hr
    exact ⟨h, by simp⟩
  | listen =>
    rw [hstate] at hr
    cases hr
    refine ⟨?_, by simp⟩
    have hkeep : (tcpForwardListen s p pack).1.tep.state = .listen := by
      unfold tcpForwardListen
      split_ifs <;> exact hstate
    cases peer <;> simp [Handshaking, hkeep]
  | synSent =>
    rw [hstate] at hr
    obtain ⟨r', hr', rfl⟩ := map_eq_some_iff.mp hr
    have htep : (if r'.2 = true then Session.after { s with connectReturn := 1 } r'.1
        else s.after r'.1).1.tep = r'.1.1 := by
      split_ifs <;> rfl
    cases peer with
    | some seq => exact absurd hstate h.1
    | none =>
      have htx := h.2 hstate
      simp only [Handshaking, Authentic, htep]
      rcases tcpForwardSynSent_cases hstate hr' with hended | ⟨hs, ht⟩ | ⟨hs, hack, ht, hrx⟩
      · refine ⟨?_, fun _ he => ?_⟩
        · rcases hended with he | he | he <;> simp [he]
        · rcases hended with he' | he' | he' <;> simp [he'] at he
      · exact ⟨⟨by simp [hs], fun _ => ht.trans htx⟩, fun _ he => by simp [hs] at he⟩
      · exact ⟨⟨by simp [hs], by simp [hs]⟩, fun _ _ => ⟨hack.trans htx, ht.trans htx, hrx⟩⟩
  | synRecv =>
    rw [hstate] at hr
    obtain ⟨o, ho, rfl⟩ := map_eq_some_iff.mp hr
    cases peer with
    | none => exact absurd hstate h.1
    | some seq =>
      obtain ⟨htx, hrx⟩ := h.2 hstate
      rcases tcpForwardSynRecv_cases hstate ho with hended | ⟨hs, ht, hx⟩ |
        ⟨hs, hflags, hseq, ht, hx⟩
      · refine ⟨.of_ended hended, fun _ he => ?_⟩
        rcases hended with he' | he' | he' <;> exact absurd (he'.symm.trans he) (by decide)
      · refine ⟨⟨by simp [Session.after, hs], fun _ => ⟨ht.trans htx, hx.trans hrx⟩⟩,
          fun _ he => absurd (hs.symm.trans he) (by decide)⟩
      · have hack := hacks hstate hflags hseq
        rw [htx] at hack
        exact ⟨hopened _ hs, fun _ _ => ⟨hack, ht.trans hack, hx.trans hrx⟩⟩
  | established =>
    rw [hstate] at hr
    obtain ⟨o, ho, rfl⟩ := map_eq_some_iff.mp hr
    refine ⟨?_, by simp⟩
    rcases tcpForwardEstablished_state hstate hdata ho with hended | hs
    · exact .of_ended hended
    · exact hopened _ hs
  | _ =>
    rw [hstate] at hr
    obtain ⟨o, ho, rfl⟩ := map_eq_some_iff.mp hr
    refine ⟨?_, by simp⟩
    obtain ⟨o', ho', -, -, hended, hrst, hopen⟩ := tcpCheckClose_spec s.tep pack
    obtain rfl := some.inj (ho'.symm.trans ho)
    by_cases hcloses : Closes s.tep pack
    · exact .of_ended (hended hcloses)
    · by_cases hr' : pack.has flagRst
      · exact .of_ended (.inr (.inl (hrst hcloses hr')))
      · have hkeep : (s.after o').1.tep.state = s.tep.state := by
          change o'.1.state = _
          rw [hopen hcloses hr']
        cases peer <;> simp [Handshaking, hkeep, hstate]

/-- As long as a server is acknowledged its own SYN, an endpoint becomes established only by a
segment that acknowledges its initial sequence number. -/
theorem handshake_authentic {start s t : Session} {isn p : ℕ} {peer : Option ℕ} {pack : Packet}
    {cs : List Call} (hopening : Opening start isn peer)
    (hrun : Run (Guarded AcksSyn SegmentStep) start cs s)
    (hstep : Guarded AcksSyn SegmentStep s (.segment p pack) t)
    (hfrom : s.tep.state = .synSent ∨ s.tep.state = .synRecv) (hto : t.tep.state = .established) :
    pack.acknum = add32 isn 1 ∧ t.tep.txLastSeq = add32 isn 1 ∧
      t.tep.rxLastSeq = add32 (peer.getD pack.seqnum) 1 := by
  have hone : ∀ s c t, Handshaking isn peer s → Guarded AcksSyn SegmentStep s c t →
      Handshaking isn peer t := by
    rintro s c t h ⟨hacks, ⟨p, pack, rfl, hdata⟩, -, hdo⟩
    obtain ⟨r, hr, rfl⟩ := map_eq_some_iff.mp hdo
    exact (h.segment hdata hacks hr).1
  have h : Handshaking isn peer s := hrun.preserves hopening.handshaking hone
  obtain ⟨hacks, ⟨p', pack', he, hdata⟩, -, hdo⟩ := hstep
  cases he
  obtain ⟨r, hr, rfl⟩ := map_eq_some_iff.mp hdo
  exact (h.segment hdata hacks hr).2 hfrom hto

def acceptedEndpoint : Option (Session × Packet) :=
  tcpCreateClientEndpoint (tcpAllocEndpoint 9 0 0 (fun _ => ⟨0, 0, 0, []⟩) (fun _ => 0) fun _ => 0)
    ⟨flagSyn, 100, 0, []⟩ 1 80 5000 (fun _ => ⟨0, 0, 0, []⟩) (fun _ => 0) fun _ => 0

lemma acceptedEndpoint_opening {start : Session} (h : acceptedEndpoint = some (start, pack)) :
    Opening start 5000 (some 100) := .server h

theorem server_takes_any_ack : ∃ start t, Opening start 5000 (some 100) ∧
    SegmentStep start (.segment 1 ⟨flagAck, 101, 77, []⟩) t ∧ start.tep.state = .synRecv ∧
    t.tep.state = .established ∧ t.tep.txLastSeq = 77 := by
  obtain ⟨⟨start, pack⟩, hstart, hperm, hstate, t, ht, hopen, htx⟩ : ∃ r ∈ acceptedEndpoint,
      r.1.Permitted (.segment 1 ⟨flagAck, 101, 77, []⟩) ∧ r.1.tep.state = .synRecv ∧
      ∃ t ∈ r.1.perform (.segment 1 ⟨flagAck, 101, 77, []⟩),
        t.tep.state = .established ∧ t.tep.txLastSeq = 77 := by decide +kernel
  exact ⟨start, t, acceptedEndpoint_opening hstart, ⟨⟨_, _, rfl, rfl⟩, hperm, ht⟩, hstate, hopen, htx⟩

theorem handshake_authentic_server : ∃ start t, Opening start 5000 (some 100) ∧
    Guarded AcksSyn SegmentStep start (.segment 1 ⟨flagAck, 101, 5001, []⟩) t ∧
    t.tep.state = .established ∧ t.tep.txLastSeq = add32 5000 1 := by
  obtain ⟨⟨start, pack⟩, hstart, hperm, hstate, hack, t, ht, hend⟩ : ∃ r ∈ acceptedEndpoint,
      r.1.Permitted (.segment 1 ⟨flagAck, 101, 5001, []⟩) ∧ r.1.tep.state = .synRecv ∧
      5001 = add32 r.1.tep.txLastSeq 1 ∧ ∃ t ∈ r.1.perform (.segment 1 ⟨flagAck, 101, 5001, []⟩),
        t.tep.state = .established := by decide +kernel
  have hopening := acceptedEndpoint_opening hstart
  have hstep : Guarded AcksSyn SegmentStep start (.segment 1 ⟨flagAck, 101, 5001, []⟩) t :=
    ⟨fun _ _ _ => hack, ⟨_, _, rfl, rfl⟩, hperm, ht⟩
  obtain ⟨-, htx, -⟩ := handshake_authentic hopening (.nil start) hstep (.inr hstate) hend
  exact ⟨start, t, hopening, hstep, hend, htx⟩

end Gloworm.Tcp
