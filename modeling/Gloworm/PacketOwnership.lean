import Gloworm.PacketOwnershipModel

/-! Every received packet has one owner: the functions that handle packets never use a freed packet,
and dispose of what they are given. -/
namespace Gloworm.PacketOwnership
open Word Queue Transition CheckedBytes BlockCustody Tcp PacketDecode List Option

section Segments
variable {h : Heap Raw} {q : Pool Unit ℕ} {tep : Endpoint} {xs l r : List ℕ} {p cur : ℕ}

lemma following_eq (hq : Holds q fun _ => l ++ r) : following q l.getLast? = r.head? := by
  induction l using List.reverseRecOn with
  | nil => exact hq.head ()
  | append_singleton l a _ =>
    rw [append_assoc, singleton_append] at hq
    rw [List.getLast?_concat]
    exact (hq.links_at (k := ()) rfl).2.1

lemma linkAfter_live (hq : Holds q fun _ => l ++ r) (hlive : ∀ x ∈ p :: (l ++ r), h.Live x) :
    linkAfter h q p l.getLast? = .ok (queueInsertAfter q () p l.getLast?) := by
  obtain ⟨b, -, htouch⟩ := Heap.touch_live (hlive p (by simp))
  have hafter : h.touchLink l.getLast? = .ok () := Heap.touchLink_live fun x hx =>
    hlive x (by simp [List.mem_of_mem_getLast? hx])
  have hnext : h.touchLink r.head? = .ok () := Heap.touchLink_live fun x hx =>
    hlive x (by simp [List.mem_of_mem_head? hx])
  rw [linkAfter, htouch, hafter, following_eq hq, hnext]
  rfl

lemma linkAfter_tail (hq : Holds q fun _ => xs) (hp : p ∉ xs) (hlive : ∀ x ∈ p :: xs, h.Live x) :
    linkAfter h q p (q.tail ()) = .ok (queueInsertAfter q () p (q.tail ())) ∧
      Holds (queueInsertAfter q () p (q.tail ())) fun _ => xs ++ [p] := by
  have happ : xs = xs ++ [] := (append_nil xs).symm
  have hholds := hq.insertBetween (k := ()) (x := p) happ fun _ => hp
  have hlist : Function.update (fun _ : Unit => xs) () (xs ++ [p]) = fun _ => xs ++ [p] := by
    funext k
    simp
  rw [hlist] at hholds
  rw [hq.tail ()]
  exact ⟨linkAfter_live (happ ▸ hq) (happ ▸ hlive), hholds⟩

lemma unlink_live (hq : Holds q fun _ => cur :: xs) (hlive : ∀ x ∈ cur :: xs, h.Live x) :
    unlink h q cur = .ok (queueRemove q () cur) := by
  obtain ⟨b, -, htouch⟩ := Heap.touch_live (hlive cur (by simp))
  obtain ⟨hprev, hnext, -⟩ := hq.links_at (k := ()) (l := []) rfl
  have hafter : h.touchLink xs.head? = .ok () := Heap.touchLink_live fun x hx =>
    hlive x (by simp [List.mem_of_mem_head? hx])
  rw [unlink, htouch, hnext, hafter, hprev]
  rfl

lemma findPlace_live (seq : ℕ) (front : List ℕ) (hq : Queued tep (front ++ xs))
    (hlive : ∀ x ∈ xs, h.Live x) {fuel : ℕ} {prev place : Option ℕ}
    (hpos : queuePosition tep seq fuel xs.head? prev = some place) :
    findPlace h tep seq fuel xs.head? prev = .ok place := by
  induction xs generalizing front fuel prev with
  | nil =>
    cases fuel with
    | zero => simp [queuePosition] at hpos
    | succ fuel =>
      simp only [List.head?_nil, queuePosition, some.injEq] at hpos
      rw [List.head?_nil, findPlace, hpos]
  | cons cur xs ih =>
    cases fuel with
    | zero => simp [queuePosition] at hpos
    | succ fuel =>
      obtain ⟨b, -, htouch⟩ := Heap.touch_live (hlive cur (by simp))
      have hnext : tep.recvQueue.next cur = xs.head? := (hq.holds.links_at (k := ()) rfl).2.1
      rw [List.head?_cons, queuePosition, hnext] at hpos
      rw [List.head?_cons, findPlace, htouch, ok_bind, hnext]
      by_cases hlater : seq < (tep.packets cur).seqnum
      · rw [if_pos hlater] at hpos ⊢
        rw [some.inj hpos]
      · rw [if_neg hlater] at hpos ⊢
        have happ : front ++ cur :: xs = (front ++ [cur]) ++ xs := by simp
        rw [happ] at hq
        exact ih _ hq (fun x hx => hlive x (by simp [hx])) hpos

lemma queuePacket_live (pack : Packet) (hq : Queued tep xs) (hp : p ∉ xs)
    (hlive : ∀ x ∈ p :: xs, h.Live x) :
    ∃ tep' ys, tcpQueuePacket tep p pack = some tep' ∧ queuePacket h tep p pack = .ok tep' ∧
      Queued tep' ys ∧ ys.Perm (p :: xs) := by
  obtain ⟨b, -, htouch⟩ := Heap.touch_live (hlive p (by simp))
  have hw : p ∉ tep.waiting := fun hin => hp (hq.waiting.mem_iff.mp hin)
  obtain ⟨l, hl⟩ : ∃ l, l = xs.takeWhile fun q => ¬ pack.seqnum < (tep.packets q).seqnum := ⟨_, rfl⟩
  obtain ⟨r, hr⟩ : ∃ r, r = xs.dropWhile fun q => ¬ pack.seqnum < (tep.packets q).seqnum := ⟨_, rfl⟩
  have hlr : xs = l ++ r := by rw [hl, hr, takeWhile_append_dropWhile]
  obtain ⟨hpure, hholds, hperm⟩ := hq.tcpQueuePacket_at hw pack hl hlr
  have hpos := Queued.queuePosition pack.seqnum [] hq hq.length_lt
  rw [nil_append, ← hl, List.getLast?_nil] at hpos
  have hplace := findPlace_live pack.seqnum [] hq (fun x hx => hlive x (by simp [hx])) hpos
  have hlink : linkAfter h tep.recvQueue p l.getLast? =
      .ok (queueInsertAfter tep.recvQueue () p l.getLast?) :=
    linkAfter_live (hlr ▸ hq.holds) (hlr ▸ hlive)
  refine ⟨_, _, hpure, ?_, ⟨hholds, hperm⟩, ?_⟩
  · rw [queuePacket, htouch, ok_bind, hq.holds.head (), hplace, ok_bind, hlink, ok_bind]
    rfl
  · rw [hlr]
    exact perm_middle

lemma checkWaiting_live (hq : Queued tep xs) (hlive : ∀ x ∈ xs, h.Live x) {fuel : ℕ}
    (hfuel : xs.length < fuel) : ∃ res ys h', checkLoop fuel tep xs.head? = some res ∧
      checkWaiting fuel h tep xs.head? = .ok (res, h') ∧ Queued res.1 ys ∧ Disposed h h' xs ys := by
  induction xs generalizing h tep fuel with
  | nil =>
    obtain _ | fuel := fuel
    · omega
    exact ⟨(tep, true), [], h, rfl, rfl, hq, .refl h []⟩
  | cons cur xs ih =>
    obtain _ | fuel := fuel
    · omega
    obtain ⟨b, -, htouch⟩ := Heap.touch_live (hlive cur (by simp))
    have hnext : tep.recvQueue.next cur = xs.head? :=
      (hq.holds.links_at (k := ()) (l := []) rfl).2.1
    rw [List.head?_cons, checkLoop, checkWaiting, htouch, ok_bind, hnext]
    by_cases hlater : tep.rxLastSeq < (tep.packets cur).seqnum
    · rw [if_pos hlater, if_pos hlater]
      exact ⟨_, _, h, rfl, rfl, hq, .refl h _⟩
    · have hqd := hq.deliver (tep.packets cur)
      rw [if_neg hlater, if_neg hlater]
      cases hused : (deliver tep (tep.packets cur)).2 with
      | false => exact ⟨_, _, h, by simp [hused], rfl, hqd, .refl h _⟩
      | true =>
        have hcur : cur ∉ xs := (nodup_cons.mp (hq.holds.nodup ())).1
        have hrest : ∀ x ∈ xs, (h.release cur).Live x := fun x hx =>
          Heap.live_release.mpr ⟨hlive x (by simp [hx]), ne_of_mem_of_not_mem hx hcur⟩
        obtain ⟨res, ys, h', hpure, hrun, hres, hd⟩ := ih hqd.removePacket hrest (by simpa using hfuel)
        refine ⟨res, ys, h', by simpa [hused] using hpure, ?_, hres, hd.release⟩
        rw [unlink_live hqd.holds hlive, Heap.free_live (hlive cur (by simp))]
        simpa using hrun

lemma receivePacket_live (o : Outcome) (pack : Packet) (hq : Queued o.1 xs) (hp : p ∉ xs)
    (hlive : ∀ x ∈ p :: xs, h.Live x) :
    ∃ res ys h', receive o p pack = some res ∧ receivePacket h o p pack = .ok (res, h') ∧
      Queued res.1 ys ∧ res.2.2 = true ∧ Disposed h h' (p :: xs) ys := by
  obtain ⟨tep, zs, hpure, hrun, hqz, hperm⟩ := queuePacket_live pack hq hp hlive
  have hlivez : ∀ x ∈ zs, h.Live x := fun x hx => hlive x (hperm.mem_iff.mp hx)
  obtain ⟨res, ys, h', hcheck, hwait, hqy, hd⟩ := checkWaiting_live hqz hlivez hqz.length_lt
  rw [receive, hpure, bind_some, tcpCheckWaitingPacket, receivePacket, hrun, ok_bind,
    hqz.holds.head (), hcheck, hwait, ok_bind, bind_some]
  cases hall : res.2 with
  | false => exact ⟨(res.1, o.2.1, true), ys, h', rfl, rfl, hqy, rfl, hd.perm hperm⟩
  | true =>
    rw [if_pos rfl, if_pos rfl, reply_ack _ (.inl rfl)]
    exact ⟨_, ys, h', rfl, rfl, ⟨hqy.holds, hqy.waiting⟩, rfl, hd.perm hperm⟩

lemma checkClose_live (hq : Queued tep xs) (pack : Packet) (hp : h.Live p) :
    ∃ o, tcpCheckClose tep pack = some o ∧ Queued o.1 xs ∧
      checkClose h tep p pack = .ok (o, if o.2.2 then h.release p else h) := by
  obtain ⟨b, -, htouch⟩ := Heap.touch_live hp
  obtain ⟨o, ho, hsame, -⟩ := tcpCheckClose_spec tep pack
  refine ⟨o, ho, ⟨hsame.recvQueue ▸ hq.holds, hsame.waiting ▸ hq.waiting⟩, ?_⟩
  rw [checkClose, htouch, ok_bind, ho, defined, ok_bind, Heap.free_live hp, ok_bind]
  split_ifs <;> rfl

/-- A delivered packet has been taken over by the endpoint, any other one left alone. -/
def Handles {α : Type} (view : α → Endpoint × Bool) (h : Heap Raw) (p : ℕ) (xs : List ℕ)
    (result : Option α) (run : Except Stop (α × Heap Raw)) : Prop :=
  (result = none ∧ run = .error .undefined) ∨
    ∃ res h' ys, result = some res ∧ run = .ok (res, h') ∧ Queued (view res).1 ys ∧
      if (view res).2 then Disposed h h' (p :: xs) ys else h' = h ∧ ys = xs

lemma Handles.map {α β : Type} {v : α → Endpoint × Bool} {w : β → Endpoint × Bool} {m : Option α}
    {run : Except Stop (α × Heap Raw)} (hh : Handles v h p xs m run) (f : α → β)
    (hf : ∀ a, w (f a) = v a) : Handles w h p xs (m.map f) (run.map fun r => (f r.1, r.2)) := by
  rcases hh with ⟨rfl, rfl⟩ | ⟨res, h', ys, rfl, rfl, hq, hd⟩
  · exact .inl ⟨rfl, rfl⟩
  · refine .inr ⟨f res, h', ys, rfl, rfl, ?_, ?_⟩
    · rwa [hf]
    · rwa [hf]

def Outcome.view (o : Outcome) : Endpoint × Bool := (o.1, o.2.2)

section
variable {α : Type} {v : α → Endpoint × Bool} (res : α) (hq : Queued (v res).1 xs)
include hq

lemma Handles.dropped (hno : (v res).2 = false) : Handles v h p xs (some res) (.ok (res, h)) := by
  refine .inr ⟨res, h, xs, rfl, rfl, hq, ?_⟩
  rw [hno]
  exact ⟨rfl, rfl⟩

lemma Handles.freed (hyes : (v res).2 = true) :
    Handles v h p xs (some res) (.ok (res, h.release p)) := by
  refine .inr ⟨res, h.release p, xs, rfl, rfl, hq, ?_⟩
  rw [hyes, if_pos rfl]
  exact (Disposed.refl _ xs).release
end
section
variable (pack : Packet) (hq : Queued tep xs)
include hq

lemma forwardEstablished_handles (hp : p ∉ xs) (hlive : ∀ x ∈ p :: xs, h.Live x) :
    Handles Outcome.view h p xs (tcpForwardEstablished tep p pack)
      (forwardEstablished h tep p pack) := by
  have hpl := hlive p (by simp)
  obtain ⟨b, -, htouch⟩ := Heap.touch_live hpl
  obtain ⟨o, ho, hqo, hclose⟩ := checkClose_live hq pack hpl
  rw [tcpForwardEstablished, forwardEstablished, ho, hclose, ok_bind, bind_some]
  cases hfin : o.2.2 with
  | true => exact .freed _ hqo hfin
  | false =>
    simp only [Bool.false_eq_true, if_false, htouch, ok_bind]
    cases hack : (if pack.has flagAck then acknowledge o pack else some o) with
    | none => exact .inl ⟨rfl, rfl⟩
    | some o' =>
      have hqo' : Queued o'.1 xs := by
        by_cases hflag : pack.has flagAck
        · rw [if_pos hflag] at hack
          obtain ⟨_, _, _, _, hchanges⟩ := acknowledge_changes hack
          rw [hchanges]
          exact ⟨hqo.holds, hqo.waiting⟩
        · rw [if_neg hflag] at hack
          exact some.inj hack ▸ hqo
      rw [bind_some, defined, ok_bind]
      by_cases hdata : 0 < pack.data.length
      · rw [if_pos hdata, if_pos hdata]
        obtain ⟨res, ys, h', hpure, hrun, hqy, hdone, hd⟩ := receivePacket_live o' pack hqo' hp hlive
        refine .inr ⟨res, h', ys, hpure, hrun, hqy, ?_⟩
        rw [Outcome.view, hdone, if_pos rfl]
        exact hd
      · rw [if_neg hdata, if_neg hdata, Heap.free_live hpl]
        exact .freed _ hqo' rfl

lemma forwardSynRecv_handles (hp : h.Live p) :
    Handles Outcome.view h p xs (tcpForwardSynRecv tep pack) (forwardSynRecv h tep p pack) := by
  obtain ⟨b, -, htouch⟩ := Heap.touch_live hp
  obtain ⟨o, ho, hqo, hclose⟩ := checkClose_live hq pack hp
  rw [tcpForwardSynRecv, forwardSynRecv, ho, hclose, ok_bind, map_some]
  cases hfin : o.2.2 with
  | true => exact .freed _ hqo hfin
  | false =>
    simp only [Bool.false_eq_true, if_false, htouch, ok_bind]
    by_cases hflags : pack.flags ≠ flagAck
    · rw [if_pos hflags, if_pos hflags]
      exact .dropped _ hqo hfin
    · by_cases hseq : pack.seqnum ≠ o.1.rxLastSeq
      · rw [if_neg hflags, if_neg hflags, if_pos hseq, if_pos hseq]
        exact .dropped _ hqo hfin
      · rw [if_neg hflags, if_neg hflags, if_neg hseq, if_neg hseq, Heap.free_live hp]
        exact .freed _ ⟨hqo.holds, hqo.waiting⟩ rfl

lemma forwardSynSent_handles (hp : h.Live p) :
    Handles (fun r => Outcome.view r.1) h p xs (tcpForwardSynSent tep pack)
      (forwardSynSent h tep p pack) := by
  obtain ⟨b, -, htouch⟩ := Heap.touch_live hp
  obtain ⟨o, ho, hqo, hclose⟩ := checkClose_live hq pack hp
  rw [tcpForwardSynSent, forwardSynSent, ho, hclose, ok_bind, bind_some]
  cases hfin : o.2.2 with
  | true => exact .freed (o, false) hqo hfin
  | false =>
    simp only [Bool.false_eq_true, if_false, htouch, ok_bind]
    by_cases hflags : pack.flags ≠ flagSyn ||| flagAck
    · rw [if_pos hflags, if_pos hflags]
      exact .dropped (o, false) hqo hfin
    · by_cases hack : pack.acknum ≠ o.1.txLastSeq
      · rw [if_neg hflags, if_neg hflags, if_pos hack, if_pos hack]
        exact .dropped (o, false) hqo hfin
      · rw [if_neg hflags, if_neg hflags, if_neg hack, if_neg hack, Heap.free_live hp,
          reply_ack _ (.inl rfl)]
        exact .freed (_, true) ⟨hqo.holds, hqo.waiting⟩ rfl

lemma checkClose_handles (hp : h.Live p) :
    Handles Outcome.view h p xs (tcpForwardClosing tep pack) (checkClose h tep p pack) := by
  obtain ⟨o, ho, hqo, hclose⟩ := checkClose_live hq pack hp
  rw [tcpForwardClosing, ho, hclose]
  cases hfin : o.2.2 with
  | true => exact .freed _ hqo hfin
  | false => exact .dropped _ hqo hfin
end

def Handled.view (r : Handled) : Endpoint × Bool := (r.1.tep, r.2.2)

section
variable {s : Session} (pack : Packet) (hq : Queued s.tep xs) (hp : p ∉ xs)
  (hlive : ∀ x ∈ p :: xs, h.Live x)
include hq hp hlive

lemma forwardListen_handles :
    Handles Handled.view h p xs (some (tcpForwardListen s p pack)) (forwardListen h s p pack) := by
  obtain ⟨b, -, htouch⟩ := Heap.touch_live (hlive p (by simp))
  rw [tcpForwardListen, forwardListen, htouch, ok_bind]
  by_cases hflags : pack.flags ≠ flagSyn
  · rw [if_pos hflags, if_pos hflags]
    exact .dropped (s, [], false) hq rfl
  · by_cases hfull : s.listenQueueMax ≤ s.queueSize
    · rw [if_neg hflags, if_neg hflags, if_pos hfull, if_pos hfull]
      exact .dropped (s, [], false) hq rfl
    · obtain ⟨hlink, hholds⟩ := linkAfter_tail hq.holds hp hlive
      rw [if_neg hflags, if_neg hflags, if_neg hfull, if_neg hfull, hlink]
      refine .inr ⟨_, h, xs ++ [p], rfl, rfl, ⟨hholds, ?_⟩, ?_⟩
      · exact (hq.waiting.cons p).trans (perm_append_singleton p xs).symm
      · exact (Disposed.refl h _).perm (perm_append_singleton p xs)

lemma forwardSegment_handles :
    Handles Handled.view h p xs (tcpForwardPacket s p pack) (forwardSegment h s p pack) := by
  have hpl := hlive p (by simp)
  have hafter : ∀ (t : Session) (o : Outcome), Handled.view (t.after o) = Outcome.view o :=
    fun _ _ => rfl
  have hsent : ∀ r : Outcome × Bool, Handled.view
      (if r.2 then { s with connectReturn := 1 }.after r.1 else s.after r.1) = Outcome.view r.1 := by
    intro r
    split_ifs <;> rfl
  rw [tcpForwardPacket.eq_def, forwardSegment.eq_def]
  cases hstate : s.tep.state with
  | closed => exact .dropped (s, [], false) hq rfl
  | listen => exact forwardListen_handles pack hq hp hlive
  | synSent => exact (forwardSynSent_handles pack hq hpl).map _ hsent
  | synRecv => exact (forwardSynRecv_handles pack hq hpl).map _ (hafter s)
  | established => exact (forwardEstablished_handles pack hq hp hlive).map _ (hafter s)
  | finWait1 | finWait2 | closeWait | closing | lastAck | timeWait =>
    exact (checkClose_handles pack hq hpl).map _ (hafter s)
end
end Segments
end Gloworm.PacketOwnership
