import Gloworm.TcpSession

/-! The end of the peer's stream, when segments and the FIN arrive in any order. -/
namespace Gloworm.Tcp
open List Option Word RingBuffer Queue Transition

def PeerSends (stream : List Byte) (first : ℕ) (pack : Packet) : Prop :=
  ¬ pack.has flagRst ∧ ∃ k, pack.seqnum = (first + k) % 2 ^ 32 ∧
    k + pack.data.length ≤ stream.length ∧ pack.data = (stream.drop k).take pack.data.length ∧
    (pack.has flagFin → k + pack.data.length = stream.length)

structure Reading where
  session : Session
  delivered : List Byte

def Session.answer (s : Session) : Call → List Byte
  | .recv size => match tcpEndpointRecv s.tep size with
    | .error _ => []
    | .ok r => r.2
  | _ => []

def Reading.perform (s : Reading) (c : Call) : Option Reading :=
  (s.session.perform c).map fun t => ⟨t, s.delivered ++ s.session.answer c⟩

/-- The peer sends its stream; the owner reads, sends and shuts down, and opens no other connection. -/
def StreamCall (stream : List Byte) (first : ℕ) : Call → Prop
  | .segment _ pack => PeerSends stream first pack
  | .recv size => 0 < size ∧ size < 2 ^ 32
  | .send _ | .shutdown => True
  | _ => False

def ReadStep (stream : List Byte) (first : ℕ) (s : Reading) (c : Call) (t : Reading) : Prop :=
  StreamCall stream first c ∧ s.session.Permitted c ∧ s.perform c = some t

/-- The ring that is read is not empty, and the peer has not acknowledged the owner's own FIN. -/
def ReadsFilled (s : Reading) : Call → Prop
  | .recv _ => ¬ bufIsEmpty s.session.tep.rx ∧ s.session.tep.state ≠ .closed
  | _ => True

def unwrapped (stream : List Byte) (first : ℕ) : List Byte := stream.take (2 ^ 32 - first)

def Stale (first : ℕ) (pack : Packet) : Prop :=
  add32 pack.seqnum (toUnsigned pack.data.length) ≤ first

variable {first : ℕ} {pack : Packet} {tep : Endpoint} {c : Call} {stream : List Byte}

lemma PeerSends.carries_or_stale (hfirst : first < 2 ^ 32)
    (hlen : stream.length < 2 ^ 32) (h : PeerSends stream first pack) (hdata : 0 < pack.data.length) :
    Carries (unwrapped stream first) first pack ∨ Stale first pack := by
  obtain ⟨-, k, hseq, hk, hslice, -⟩ := h
  by_cases hwrap : k + pack.data.length ≤ 2 ^ 32 - first
  · refine .inl ⟨k, ?_, ?_, ?_⟩
    · rw [hseq, Nat.mod_eq_of_lt (by omega)]
    · rw [unwrapped, length_take]
      omega
    · rw [unwrapped, drop_take, take_take, min_eq_left (by omega)]
      exact hslice
  · right
    unfold Stale add32 toUnsigned
    omega

lemma deliver_stale (h : Stale first pack) (hlow : first ≤ tep.rxLastSeq) :
    deliver tep pack = (tep, true) := by
  have hold : ¬ tep.rxLastSeq < add32 pack.seqnum (toUnsigned pack.data.length) :=
    not_lt.mpr (h.trans hlow)
  simp only [deliver, if_neg hold]

structure Arrived (stream : List Byte) (first : ℕ) (delivered : List Byte) (tep : Endpoint)
    (xs : List ℕ) : Prop where
  order : InOrder stream first delivered tep
  queued : Queued tep xs
  slices : ∀ p ∈ xs, Carries stream first (tep.packets p) ∨ Stale first (tep.packets p)

namespace Arrived
variable {delivered : List Byte} {xs : List ℕ}

lemma congr (h : Arrived stream first delivered tep xs) {tep' : Endpoint}
    (hrx : tep'.rx = tep.rx) (hseq : tep'.rxLastSeq = tep.rxLastSeq)
    (hq : tep'.recvQueue = tep.recvQueue) (hp : tep'.packets = tep.packets)
    (hw : tep'.waiting = tep.waiting) : Arrived stream first delivered tep' xs := by
  obtain ⟨⟨h1, h2, h3, h4, h5⟩, ⟨h6, h7⟩, h8⟩ := h
  refine ⟨⟨?_, ?_, ?_, ?_, ?_⟩, ⟨?_, ?_⟩, ?_⟩ <;> simp only [hrx, hseq, hq, hp, hw] <;> assumption

lemma deliver (h : Arrived stream first delivered tep xs)
    (hfit : first + stream.length ≤ 2 ^ 32) {p : ℕ} (hp : p ∈ xs)
    (hle : (tep.packets p).seqnum ≤ tep.rxLastSeq) :
    Arrived stream first delivered (deliver tep (tep.packets p)).1 xs := by
  rcases h.slices p hp with hc | hs
  · refine ⟨h.order.deliver hfit hc hle, h.queued.deliver _, ?_⟩
    rw [(deliver_frame tep _).2.1]
    exact h.slices
  · rw [deliver_stale hs h.order.low]
    exact h

lemma removePacket {cur : ℕ} (h : Arrived stream first delivered tep (cur :: xs)) :
    Arrived stream first delivered (removePacket tep cur) xs :=
  ⟨⟨h.order.rxOk, h.order.low, h.order.high, h.order.word, h.order.inOrder⟩,
    h.queued.removePacket, fun p hp => h.slices p (mem_cons_of_mem _ hp)⟩

lemma receive {o : Outcome} (h : Arrived stream first delivered o.1 xs)
    (hfit : first + stream.length ≤ 2 ^ 32) {p : ℕ} (hp : p ∉ o.1.waiting)
    (hslice : Carries stream first pack ∨ Stale first pack) :
    ∃ o' ys, receive o p pack = some o' ∧ Arrived stream first delivered o'.1 ys ∧
      SameSender o.1 o'.1 := by
  refine receive_preserves (fun _ _ hi => hi.queued) (fun _ cur _ hi hle => ?_) (fun tep xs hi => ?_)
    h.queued hp fun q l r hlr hholds hperm => ?_
  · have hd := hi.deliver hfit mem_cons_self hle
    exact ⟨hd, fun _ => hd.removePacket⟩
  · exact hi.congr rfl (add32_of_lt hi.order.word) rfl rfl rfl
  · exact ⟨⟨h.order.rxOk, h.order.low, h.order.high, h.order.word, h.order.inOrder⟩,
      ⟨hholds, hperm⟩, mem_inserted (P := fun pack => Carries stream first pack ∨ Stale first pack)
        (hlr ▸ h.slices) hslice⟩

lemma inOrder {whole : List Byte} (h : Arrived (unwrapped whole first) first delivered tep xs) :
    ∃ k, delivered ++ tep.rx.contents = whole.take k := by
  have horder := h.order.inOrder
  rw [unwrapped, take_take] at horder
  exact ⟨_, horder⟩
end Arrived

/-- The states that come after an endpoint was established. -/
def Over (st : State) : Prop := st ∉ [.listen, .synSent, .synRecv, .established]
deriving Decidable

structure Following (stream : List Byte) (first : ℕ) (s : Reading) : Prop where
  rxOk : s.session.tep.rx.Ok
  inOrder : ∃ k, s.delivered ++ s.session.tep.rx.contents = stream.take k
  state : s.session.tep.state = .established ∨ Over s.session.tep.state
  arrived : s.session.tep.state = .established →
    ∃ xs, Arrived (unwrapped stream first) first s.delivered s.session.tep xs

namespace Following
variable {s : Reading}

lemma ended (h : Following stream first s) (hrx : tep.rx = s.session.tep.rx) (hstate : Over tep.state)
    (t : Session) (ht : t.tep = tep) : Following stream first ⟨t, s.delivered⟩ := by
  subst ht
  refine ⟨hrx ▸ h.rxOk, ?_, .inr hstate, fun hest => ?_⟩
  · change ∃ k, s.delivered ++ t.tep.rx.contents = stream.take k
    rw [hrx]
    exact h.inOrder
  · rw [hest] at hstate
    exact absurd hstate (by decide)

lemma of_arrived {delivered : List Byte} {t : Session} (xs : List ℕ)
    (hstate : t.tep.state = .established)
    (ha : Arrived (unwrapped stream first) first delivered t.tep xs) :
    Following stream first ⟨t, delivered⟩ :=
  ⟨ha.order.rxOk, ha.inOrder, .inl hstate, fun _ => ⟨xs, ha⟩⟩

lemma over_of_closes {st : State} (h : st = .closed ∨ st = .closing ∨ st = .closeWait) : Over st := by
  rcases h with rfl | rfl | rfl <;> decide

section
variable {p size : ℕ} {o : Outcome} {t : Reading} (h : Following stream first s)
include h

lemma established (hfirst : first < 2 ^ 32) (hlen : stream.length < 2 ^ 32)
    (hstate : s.session.tep.state = .established) (hp : p ∉ s.session.tep.waiting)
    (hsends : PeerSends stream first pack)
    (ho : tcpForwardEstablished s.session.tep p pack = some o) (t : Session) (ht : t.tep = o.1) :
    Following stream first ⟨t, s.delivered⟩ := by
  obtain ⟨xs, ha⟩ := h.arrived hstate
  have hfit : first + (unwrapped stream first).length ≤ 2 ^ 32 := by
    rw [unwrapped, length_take]
    omega
  obtain ⟨o1, ho1, hsame, hdone, hend, -, hkeep⟩ := tcpCheckClose_spec s.session.tep pack
  rw [tcpForwardEstablished, ho1, bind_some] at ho
  by_cases hcloses : Closes s.session.tep pack
  · rw [if_pos (hdone.mpr hcloses)] at ho
    obtain rfl := some.inj ho
    exact h.ended hsame.rx (over_of_closes (hend hcloses)) t ht
  · rw [if_neg fun htrue => hcloses (hdone.mp htrue)] at ho
    obtain ⟨o2, ho2, ho⟩ := bind_eq_some_iff.mp ho
    have hkeep := hkeep hcloses hsends.1
    have ha1 : Arrived (unwrapped stream first) first s.delivered o1.1 xs := by
      rw [hkeep]
      exact ha.congr rfl rfl rfl rfl rfl
    obtain ⟨n, tx, hframe⟩ : ∃ n tx, o2.1 = { o1.1 with txAcksRepeated := n, tx := tx } := by
      by_cases hack : pack.has flagAck
      · rw [if_pos hack] at ho2
        exact acknowledge_frame ha1.order.word ho2
      · rw [if_neg hack] at ho2
        cases ho2
        exact ⟨_, _, rfl⟩
    have ha2 : Arrived (unwrapped stream first) first s.delivered o2.1 xs := by
      rw [hframe]
      exact ha1.congr rfl rfl rfl rfl rfl
    have hstate2 : o2.1.state = .established := by
      rw [hframe, hkeep]
      exact hstate
    have hw : o2.1.waiting = s.session.tep.waiting := by
      rw [hframe]
      exact hsame.waiting
    by_cases hdata : 0 < pack.data.length
    · rw [if_pos hdata] at ho
      obtain ⟨o3, ys, ho3, ha3, hsame3⟩ := ha2.receive hfit (hw ▸ hp)
        (hsends.carries_or_stale hfirst hlen hdata)
      obtain rfl := some.inj (ho3.symm.trans ho)
      refine of_arrived ys ?_ ?_
      · rw [ht, hsame3.state, hstate2]
      · rw [ht]
        exact ha3
    · rw [if_neg hdata] at ho
      obtain rfl := some.inj ho
      refine of_arrived xs ?_ ?_
      · rw [ht, hstate2]
      · rw [ht]
        exact ha2

lemma closing (hstate : Over s.session.tep.state) (hsends : PeerSends stream first pack)
    (ho : tcpForwardClosing s.session.tep pack = some o) (t : Session) (ht : t.tep = o.1) :
    Following stream first ⟨t, s.delivered⟩ := by
  obtain ⟨o1, ho1, hsame, -, hend, -, hkeep⟩ := tcpCheckClose_spec s.session.tep pack
  obtain rfl := some.inj (ho1.symm.trans ho)
  refine h.ended hsame.rx ?_ t ht
  by_cases hcloses : Closes s.session.tep pack
  · exact over_of_closes (hend hcloses)
  · rw [hkeep hcloses hsends.1]
    exact hstate

lemma segment (hfirst : first < 2 ^ 32) (hlen : stream.length < 2 ^ 32)
    (hp : p ∉ s.session.tep.waiting) (hsends : PeerSends stream first pack) {r : Handled}
    (hr : tcpForwardPacket s.session p pack = some r) :
    Following stream first ⟨r.1, s.delivered⟩ := by
  unfold tcpForwardPacket at hr
  rcases h.state with hstate | hover
  · rw [hstate] at hr
    obtain ⟨o, ho, rfl⟩ := map_eq_some_iff.mp hr
    exact h.established hfirst hlen hstate hp hsends ho _ rfl
  · split at hr
    case h_1 =>
      obtain rfl := some.inj hr
      exact h
    case h_6 =>
      obtain ⟨o, ho, rfl⟩ := map_eq_some_iff.mp hr
      exact h.closing hover hsends ho _ rfl
    all_goals
      rename_i hstate
      rw [hstate] at hover
      exact absurd hover (by decide)

lemma shutdown {r : Session × List Packet} (hr : tcpEndpointShutdown s.session = some r) :
    Following stream first ⟨r.1, s.delivered⟩ := by
  unfold tcpEndpointShutdown at hr
  split_ifs at hr
  · obtain rfl := some.inj hr
    exact h
  · obtain ⟨r', hr', rfl⟩ := map_eq_some_iff.mp hr
    obtain ⟨rx, tx, hframe⟩ := tcpSendPacket_frame hr'
    refine h.ended ?_ ?_ _ rfl
    · simp only [hframe]
    · dsimp only
      split_ifs <;> decide

lemma send {data : List Byte} {r : Endpoint × Packet × ℤ}
    (hr : tcpEndpointSend s.session.tep data = .ok (some r)) (t : Session) (ht : t.tep = r.1) :
    Following stream first ⟨t, s.delivered⟩ := by
  unfold tcpEndpointSend at hr
  split_ifs at hr with hport hroom
  have hstate : s.session.tep.state = .established := not_not.mp (not_or.mp hroom).1
  obtain ⟨xs, ha⟩ := h.arrived hstate
  obtain ⟨r', hr', rfl⟩ := map_eq_some_iff.mp (Except.ok.inj hr)
  have hsame := tcpSendPacket_same (by exact ha.order.word) (.inr rfl) hr'
  refine of_arrived xs ?_ ?_
  · rw [ht, hsame]
    exact hstate
  · rw [ht, hsame]
    exact ha.congr rfl rfl rfl rfl rfl

lemma recv_eq (hsize : 0 < size) (hword : size < 2 ^ 32) (hne : ¬ bufIsEmpty s.session.tep.rx)
    (hopen : s.session.tep.state ≠ .closed) :
    tcpEndpointRecv s.session.tep size =
      .ok ({ s.session.tep with rx := (bufGetIter s.session.tep.rx size).1 },
        s.session.tep.rx.contents.take size) ∧ s.session.tep.rx.contents.take size ≠ [] := by
  obtain ⟨-, -, hread, -⟩ := h.rxOk.bufGetIter_spec hne hword
  have hbytes : s.session.tep.rx.contents.take size ≠ [] := by
    intro hnil
    rcases take_eq_nil_iff.mp hnil with hzero | hempty
    · omega
    · exact hne (h.rxOk.contents_eq_nil.mp hempty)
  refine ⟨?_, hbytes⟩
  have hcall : tcpEndpointRecv s.session.tep size =
      if (bufGetIter s.session.tep.rx size).2 = [] ∧ ¬ s.session.tep.finRecv
      then .error .ewouldblock
      else .ok ({ s.session.tep with rx := (bufGetIter s.session.tep.rx size).1 },
        (bufGetIter s.session.tep.rx size).2) := by
    have hstate : s.session.tep.state ∉ [.closed, .listen, .synSent, .synRecv] := by
      rcases h.state with hstate | hover
      · simp [hstate]
      · simp only [Over, mem_cons, not_or] at hover ⊢
        tauto
    unfold tcpEndpointRecv
    split <;> simp_all
  rw [hcall, hread, if_neg fun hnil => hbytes hnil.1]

lemma recv (hsize : 0 < size) (hword : size < 2 ^ 32) (hne : ¬ bufIsEmpty s.session.tep.rx)
    (hopen : s.session.tep.state ≠ .closed)
    (ht : s.perform (.recv size) = some t) : Following stream first t := by
  obtain ⟨hcall, -⟩ := h.recv_eq hsize hword hne hopen
  obtain ⟨hok, -, -, hleft⟩ := h.rxOk.bufGetIter_spec hne hword
  simp only [Reading.perform, Session.perform, Session.answer, hcall, map_some] at ht
  cases ht
  have hbytes : (s.delivered ++ s.session.tep.rx.contents.take size) ++
      (bufGetIter s.session.tep.rx size).1.contents = s.delivered ++ s.session.tep.rx.contents := by
    rw [hleft, append_assoc, take_append_drop]
  refine ⟨hok, ?_, h.state, ?_⟩
  · obtain ⟨k, hk⟩ := h.inOrder
    exact ⟨k, hbytes.trans hk⟩
  · intro hest
    obtain ⟨xs, ha⟩ := h.arrived hest
    exact ⟨xs, ⟨hok, ha.order.low, ha.order.high, ha.order.word, hbytes.trans ha.order.inOrder⟩,
      ⟨ha.queued.holds, ha.queued.waiting⟩, ha.slices⟩

lemma step (hfirst : first < 2 ^ 32) (hlen : stream.length < 2 ^ 32)
    (hstep : Guarded ReadsFilled (ReadStep stream first) s c t) : Following stream first t := by
  obtain ⟨hfilled, hcall, hperm, hdo⟩ := hstep
  cases c with
  | segment p pack =>
    obtain ⟨t', ht', rfl⟩ := map_eq_some_iff.mp hdo
    obtain ⟨r, hr, rfl⟩ := map_eq_some_iff.mp ht'
    simpa [Session.answer] using h.segment hfirst hlen hperm.1 hcall hr
  | send data =>
    obtain ⟨t', ht', rfl⟩ := map_eq_some_iff.mp hdo
    rw [Session.perform] at ht'
    cases hr : tcpEndpointSend s.session.tep data with
    | error e =>
      rw [hr] at ht'
      cases ht'
      simpa [Session.answer] using h
    | ok r =>
      rw [hr] at ht'
      obtain ⟨r', rfl, rfl⟩ := map_eq_some_iff.mp ht'
      simpa [Session.answer] using h.send hr _ rfl
  | recv size => exact h.recv hcall.1 hcall.2 hfilled.1 hfilled.2 hdo
  | shutdown =>
    obtain ⟨t', ht', rfl⟩ := map_eq_some_iff.mp hdo
    obtain ⟨r, hr, rfl⟩ := map_eq_some_iff.mp ht'
    simpa [Session.answer] using h.shutdown hr
  | _ => exact absurd hcall id
end
end Following

def byteThenFin : List Call :=
  [.segment 1 ⟨flagAck, 100, 7, [1]⟩, .segment 2 ⟨flagFin ||| flagAck, 101, 7, []⟩, .recv 4,
    .recv 4]

def byteThenShutdown : List Call :=
  [.segment 1 ⟨flagAck, 100, 7, [1]⟩, .shutdown, .segment 2 ⟨flagAck, 101, 8, []⟩]

lemma oneByte_streamCall (h : c ∈ byteThenFin ++ byteThenShutdown) : StreamCall [1] 100 c := by
  simp only [byteThenFin, byteThenShutdown, cons_append, nil_append, mem_cons, not_mem_nil,
    or_false] at h
  rcases h with rfl | rfl | rfl | rfl | rfl | rfl | rfl
  · exact ⟨by decide, 0, by decide, by decide, by decide, by decide⟩
  · exact ⟨by decide, 1, by decide, by decide, by decide, by decide⟩
  · exact ⟨by decide, by decide⟩
  · exact ⟨by decide, by decide⟩
  · exact ⟨by decide, 0, by decide, by decide, by decide, by decide⟩
  · trivial
  · exact ⟨by decide, 1, by decide, by decide, by decide, by decide⟩

def Reading.advance (guard : Reading → Call → Bool) (s : Reading) (c : Call) : Option Reading :=
  if guard s c ∧ c ∈ byteThenFin ++ byteThenShutdown ∧ s.session.Permitted c then s.perform c else none

lemma Reading.advance_step {guard : Reading → Call → Bool} {s t : Reading}
    (h : s.advance guard c = some t) : guard s c = true ∧ ReadStep [1] 100 s c t := by
  unfold Reading.advance at h
  split_ifs at h with hc
  exact ⟨hc.1, oneByte_streamCall hc.2.1, hc.2.2, h⟩

instance (s : Reading) (c : Call) : Decidable (ReadsFilled s c) :=
  match c with
  | .segment .. | .listen _ | .connect .. | .accept | .shutdown | .send _ | .recv _ => by
    dsimp only [ReadsFilled]; infer_instance

end Gloworm.Tcp
