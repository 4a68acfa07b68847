import Gloworm.TcpSession

/-! Moving the sequence numbers of a connection, which are computed modulo `2 ^ 32` but compared as
plain numbers. -/
namespace Gloworm.Tcp
open Function Word RingBuffer Queue List Option

def Packet.shift (pack : Packet) (c d : ℕ) : Packet :=
  ⟨pack.flags, add32 pack.seqnum c, add32 pack.acknum d, pack.data⟩

def Endpoint.shift (tep : Endpoint) (c d : ℕ) : Endpoint :=
  ⟨tep.remotePort, tep.recvQueue, fun p => (tep.packets p).shift c d, tep.waiting, tep.state,
    tep.finSent, tep.finRecv, add32 tep.txLastSeq d, add32 tep.rxLastSeq c, tep.txAcksRepeated,
    tep.rx, tep.tx⟩

def shiftOutcome (c d : ℕ) (o : Outcome) : Outcome :=
  (o.1.shift c d, o.2.1.map fun pack => pack.shift d c, o.2.2)

def SameOrder (c a b : ℕ) : Prop := a < b ↔ add32 a c < add32 b c
deriving Decidable

def Packet.ending (pack : Packet) : ℕ := add32 pack.seqnum (toUnsigned pack.data.length)

def InsertOrder (c seq : ℕ) : List Packet → Prop
  | [] => True
  | q :: qs => SameOrder c seq q.seqnum ∧ (¬ seq < q.seqnum → InsertOrder c seq qs)

/-- The comparisons of `tcp_check_waiting_packet`, up to the first packet that does not fit into the
rx ring. -/
def ScanOrder (c : ℕ) : Endpoint → List Packet → Prop
  | _, [] => True
  | tep, q :: qs => SameOrder c tep.rxLastSeq q.seqnum ∧ (¬ tep.rxLastSeq < q.seqnum →
    SameOrder c tep.rxLastSeq q.ending ∧
      ((deliver tep q).2 = true → ScanOrder c (deliver tep q).1 qs))

def insertPacket (pack : Packet) (qs : List Packet) : List Packet :=
  (qs.takeWhile fun q => ¬ pack.seqnum < q.seqnum) ++
    pack :: (qs.dropWhile fun q => ¬ pack.seqnum < q.seqnum)

def expected (tep : Endpoint) (pack : Packet) : ℕ :=
  if pack.has flagRst then add32 tep.rxLastSeq 1 else tep.rxLastSeq

/-- Each comparison of sequence numbers made for the segment has the same answer after the
translation. -/
structure KeepsOrder (c d : ℕ) (tep : Endpoint) (xs : List ℕ) (pack : Packet) : Prop where
  acked : ¬ Closes tep pack → pack.has flagAck → SameOrder d (lastAcked tep) pack.acknum
  missing : ¬ Closes tep pack → pack.has flagAck →
    SameOrder d (if lastAcked tep < pack.acknum then pack.acknum else lastAcked tep) tep.txLastSeq
  insert : ¬ Closes tep pack → pack.data ≠ [] →
    InsertOrder c pack.seqnum (xs.map tep.packets)
  scan : ¬ Closes tep pack → pack.data ≠ [] →
    ScanOrder c { tep with rxLastSeq := expected tep pack }
      (insertPacket pack (xs.map tep.packets))

structure Packet.Fits (pack : Packet) : Prop where
  seqnum : pack.seqnum < 2 ^ 32
  acknum : pack.acknum < 2 ^ 32
  length : pack.data.length < 65536

lemma add32_lt (a b : ℕ) : add32 a b < 2 ^ 32 := by
  unfold add32
  omega

lemma sub32_lt (a b : ℕ) : sub32 a b < 2 ^ 32 := by
  unfold sub32
  omega

lemma add32_right_comm (a b c : ℕ) : add32 (add32 a b) c = add32 (add32 a c) b := by
  unfold add32
  omega

variable {a b : ℕ} {pack : Packet} {o : Outcome} {tep : Endpoint} {xs : List ℕ}

lemma add32_inj (ha : a < 2 ^ 32) (hb : b < 2 ^ 32) (c : ℕ) : add32 a c = add32 b c ↔ a = b := by
  unfold add32
  omega

lemma sub32_add32_comm (hb : b < 2 ^ 32) (c : ℕ) : sub32 (add32 a c) b = add32 (sub32 a b) c := by
  unfold sub32 add32
  omega

lemma sub32_add32_add32 (ha : a < 2 ^ 32) (hb : b < 2 ^ 32) (c : ℕ) :
    sub32 (add32 a c) (add32 b c) = sub32 a b := by
  unfold sub32 add32
  omega

lemma toUnsigned_lt (z : ℤ) : toUnsigned z < 2 ^ 32 := by
  unfold toUnsigned
  omega

section Fields
variable (tep : Endpoint) (pack : Packet) (c d : ℕ)

@[simp] lemma shift_tx : (tep.shift c d).tx = tep.tx := rfl
@[simp] lemma shift_rx : (tep.shift c d).rx = tep.rx := rfl
@[simp] lemma shift_recvQueue : (tep.shift c d).recvQueue = tep.recvQueue := rfl
@[simp] lemma shift_waiting : (tep.shift c d).waiting = tep.waiting := rfl
@[simp] lemma shift_txLastSeq : (tep.shift c d).txLastSeq = add32 tep.txLastSeq d := rfl
@[simp] lemma shift_rxLastSeq : (tep.shift c d).rxLastSeq = add32 tep.rxLastSeq c := rfl
@[simp] lemma shift_packets (p : ℕ) : (tep.shift c d).packets p = (tep.packets p).shift c d := rfl
@[simp] lemma shift_seqnum : (pack.shift c d).seqnum = add32 pack.seqnum c := rfl
@[simp] lemma shift_acknum : (pack.shift c d).acknum = add32 pack.acknum d := rfl
@[simp] lemma shift_data : (pack.shift c d).data = pack.data := rfl
@[simp] lemma shift_has (flag : ℕ) : (pack.shift c d).has flag ↔ pack.has flag := Iff.rfl
end Fields

lemma tcpSendPacket_shift (c d : ℕ) (tep : Endpoint) {flags : ℕ} (hack : flags &&& flagAck ≠ 0)
    (nbytes : ℤ) (ackbytes : ℕ) : tcpSendPacket (tep.shift c d) flags nbytes ackbytes =
      (tcpSendPacket tep flags nbytes ackbytes).map fun r => (r.1.shift c d, r.2.shift d c) := by
  simp only [tcpSendPacket, if_pos hack, shift_tx]
  split_ifs <;>
    simp [Endpoint.shift, Packet.shift, add32_right_comm, sub32_add32_comm (toUnsigned_lt _)]

lemma reply_shift (c d : ℕ) (o : Outcome) {flags : ℕ} (hack : flags &&& flagAck ≠ 0)
    (nbytes : ℤ) (ackbytes : ℕ) (done : Bool) :
    reply (shiftOutcome c d o) flags nbytes ackbytes done =
      (reply o flags nbytes ackbytes done).map (shiftOutcome c d) := by
  rw [reply, reply, shiftOutcome, tcpSendPacket_shift c d o.1 hack, Option.map_map, Option.map_map]
  congr 1
  funext r
  simp [shiftOutcome]

lemma closeOnRst_shift (c d : ℕ) (tep : Endpoint) (pack : Packet) :
    closeOnRst (tep.shift c d) (pack.shift c d) = (closeOnRst tep pack).map (shiftOutcome c d) := by
  by_cases hr : pack.has flagRst
  · rw [closeOnRst, closeOnRst, if_pos hr, if_pos ((shift_has pack c d flagRst).mpr hr)]
    exact reply_shift c d ({ tep with finRecv := true, state := .closing }, [], false) (by decide) 0 1
      true
  · rw [closeOnRst, closeOnRst, if_neg hr, if_neg fun h => hr ((shift_has pack c d flagRst).mp h)]
    rfl

lemma closeOnFin_shift (c d : ℕ) (o : Outcome) (hword : o.1.rxLastSeq < 2 ^ 32) (hfits : pack.Fits) :
    closeOnFin (shiftOutcome c d o) (pack.shift c d) =
      (closeOnFin o pack).map fun r => (shiftOutcome c d r.1, r.2) := by
  by_cases hf : pack.has flagFin
  · have hf' := (shift_has pack c d flagFin).mpr hf
    have hsame : (pack.shift c d).seqnum = (shiftOutcome c d o).1.rxLastSeq ↔
        pack.seqnum = o.1.rxLastSeq := add32_inj hfits.seqnum hword c
    by_cases hmatch : pack.seqnum = o.1.rxLastSeq
    · rw [closeOnFin_match o hf hmatch, closeOnFin_match _ hf' (hsame.mpr hmatch)]
      simp only [shiftOutcome, Endpoint.shift, Packet.shift, add32_right_comm _ c 1,
        map_some, map_append, map_cons, map_nil]
      rfl
    · have hmatch' : (pack.shift c d).seqnum ≠ (shiftOutcome c d o).1.rxLastSeq :=
        fun h => hmatch (hsame.mp h)
      rw [closeOnFin, closeOnFin, if_pos hf, if_pos hf']
      dsimp only
      rw [if_pos hmatch, if_pos hmatch']
      rfl
  · rw [closeOnFin, closeOnFin, if_neg hf, if_neg fun h => hf ((shift_has pack c d flagFin).mp h)]
    rfl

lemma closeOnFin_txLastSeq {r : Outcome × Bool} (hr : closeOnFin o pack = some r) :
    r.1.1.txLastSeq = o.1.txLastSeq := by
  by_cases hf : pack.has flagFin
  · by_cases hmatch : pack.seqnum = o.1.rxLastSeq
    · rw [closeOnFin_match o hf hmatch] at hr
      cases hr
      rfl
    · rw [closeOnFin, if_pos hf] at hr
      dsimp only at hr
      rw [if_pos hmatch] at hr
      cases hr
      rfl
  · rw [closeOnFin, if_neg hf] at hr
    cases hr
    rfl

lemma tcpCheckClose_shift (c d : ℕ) (hrx : tep.rxLastSeq < 2 ^ 32) (htx : tep.txLastSeq < 2 ^ 32)
    (hfits : pack.Fits) : tcpCheckClose (tep.shift c d) (pack.shift c d) =
      (tcpCheckClose tep pack).map (shiftOutcome c d) := by
  obtain ⟨o, ho, hsame, hrst, hno⟩ := closeOnRst_spec tep pack
  have hword : o.1.rxLastSeq < 2 ^ 32 := by
    by_cases hr : pack.has flagRst
    · rw [(hrst hr).2.1]
      exact add32_lt _ _
    · rw [hno hr]
      exact hrx
  rw [tcpCheckClose, tcpCheckClose, closeOnRst_shift, ho, map_some, bind_some,
    bind_some, closeOnFin_shift c d o hword hfits, Option.map_map, Option.map_map]
  cases hr : closeOnFin o pack with
  | none => rfl
  | some r =>
    have htx' : r.1.1.txLastSeq < 2 ^ 32 := by
      rw [closeOnFin_txLastSeq hr, hsame.txLastSeq]
      exact htx
    have hack : (pack.shift c d).acknum = (shiftOutcome c d r.1).1.txLastSeq ↔
        pack.acknum = r.1.1.txLastSeq := add32_inj hfits.acknum htx' d
    simp only [map_some, Function.comp_apply, some.injEq]
    by_cases hearly : r.2 = true
    · rw [if_pos hearly, if_pos hearly]
    · rw [if_neg hearly, if_neg hearly]
      by_cases hlast : r.1.1.finSent = true ∧ pack.has flagAck ∧ pack.acknum = r.1.1.txLastSeq
      · rw [if_pos hlast, if_pos ⟨hlast.1, hlast.2.1, hack.mpr hlast.2.2⟩]
        rfl
      · rw [if_neg hlast, if_neg fun h => hlast ⟨h.1, h.2.1, hack.mp h.2.2⟩]

lemma tcpCheckClose_expected (ho : tcpCheckClose tep pack = some o) (hopen : ¬ Closes tep pack) :
    o.1.rxLastSeq = expected tep pack := by
  by_cases hr : pack.has flagRst
  · have hf : pack.has flagFin := by
      by_contra hf
      exact hopen (by rw [Closes, if_neg hf]; exact .inl hr)
    obtain ⟨o', ho', -, hrst, -⟩ := closeOnRst_spec tep pack
    have hmiss : pack.seqnum ≠ o'.1.rxLastSeq := by
      intro he
      rw [(hrst hr).2.1] at he
      exact hopen (by rw [Closes, if_pos hf, if_pos hr]; exact he)
    rw [tcpCheckClose, ho', bind_some, closeOnFin, if_pos hf] at ho
    dsimp only at ho
    rw [if_pos hmiss] at ho
    cases ho
    rw [expected, if_pos hr]
    exact (hrst hr).2.1
  · obtain ⟨o', ho', -, -, -, -, hkeep⟩ := tcpCheckClose_spec tep pack
    obtain rfl := some.inj (ho'.symm.trans ho)
    rw [expected, if_neg hr, hkeep hopen hr]

lemma lastAcked_shift (c d : ℕ) (tep : Endpoint) :
    lastAcked (tep.shift c d) = add32 (lastAcked tep) d := by
  rw [lastAcked, lastAcked, shift_txLastSeq, shift_tx, sub32_add32_comm (toUnsigned_lt _)]

lemma discardAcked_shift (c d : ℕ) (hfits : pack.Fits)
    (horder : SameOrder d (lastAcked tep) pack.acknum) :
    discardAcked (tep.shift c d) (pack.shift c d).acknum =
      (discardAcked tep pack.acknum).shift c d := by
  have hlast : lastAcked tep < 2 ^ 32 := sub32_lt _ _
  rw [discardAcked, discardAcked, lastAcked_shift, shift_acknum]
  by_cases hnew : lastAcked tep < pack.acknum
  · rw [if_pos hnew, if_pos (horder.mp hnew), sub32_add32_add32 hfits.acknum hlast]
    rfl
  · rw [if_neg hnew, if_neg fun h => hnew (horder.mpr h)]

lemma repeatedAck_shift (c d : ℕ) (o : Outcome) :
    repeatedAck (shiftOutcome c d o) = (repeatedAck o).map (shiftOutcome c d) := by
  have hsame : (shiftOutcome c d o).1.txAcksRepeated = o.1.txAcksRepeated := rfl
  by_cases hthird : 3 ≤ toShort (o.1.txAcksRepeated + 1)
  · simp only [repeatedAck, hsame, if_pos hthird]
    exact reply_shift c d ({ o.1 with txAcksRepeated := 0 }, o.2) (by decide) (-1) 0 o.2.2
  · simp only [repeatedAck, hsame, if_neg hthird]
    rfl

lemma acknowledge_shift (c d : ℕ) (hfits : pack.Fits)
    (hacked : SameOrder d (lastAcked o.1) pack.acknum) (hmissing : SameOrder d
      (if lastAcked o.1 < pack.acknum then pack.acknum else lastAcked o.1) o.1.txLastSeq) :
    acknowledge (shiftOutcome c d o) (pack.shift c d) =
      (acknowledge o pack).map (shiftOutcome c d) := by
  have hlast : (if lastAcked (shiftOutcome c d o).1 < (pack.shift c d).acknum
      then (pack.shift c d).acknum else lastAcked (shiftOutcome c d o).1) =
      add32 (if lastAcked o.1 < pack.acknum then pack.acknum else lastAcked o.1) d := by
    change (if lastAcked (o.1.shift c d) < _ then _ else lastAcked (o.1.shift c d)) = _
    rw [lastAcked_shift, shift_acknum]
    by_cases hnew : lastAcked o.1 < pack.acknum
    · rw [if_pos hnew, if_pos (hacked.mp hnew)]
    · rw [if_neg hnew, if_neg fun h => hnew (hacked.mpr h)]
  have hdiscard : discardAcked (shiftOutcome c d o).1 (pack.shift c d).acknum =
      (discardAcked o.1 pack.acknum).shift c d := discardAcked_shift c d hfits hacked
  have hpair : ((discardAcked o.1 pack.acknum).shift c d, (shiftOutcome c d o).2) =
      shiftOutcome c d (discardAcked o.1 pack.acknum, o.2) := rfl
  have hseq : (shiftOutcome c d o).1.txLastSeq = add32 o.1.txLastSeq d := rfl
  unfold acknowledge
  dsimp only
  rw [hlast, hdiscard, hpair, hseq]
  by_cases hmiss : (if lastAcked o.1 < pack.acknum then pack.acknum else lastAcked o.1) <
      o.1.txLastSeq
  · rw [if_pos hmiss, if_pos (hmissing.mp hmiss)]
    exact repeatedAck_shift c d _
  · rw [if_neg hmiss, if_neg fun h => hmiss (hmissing.mpr h)]
    rfl

lemma takeWhile_shift (c d : ℕ) {seq : ℕ} (h : InsertOrder c seq (xs.map tep.packets)) :
    (xs.takeWhile fun q => ¬ add32 seq c < ((tep.shift c d).packets q).seqnum) =
      xs.takeWhile fun q => ¬ seq < (tep.packets q).seqnum := by
  induction xs with
  | nil => rfl
  | cons q xs ih =>
    obtain ⟨hhere, hrest⟩ := h
    by_cases hlater : seq < (tep.packets q).seqnum
    · have hlater' : add32 seq c < ((tep.shift c d).packets q).seqnum := hhere.mp hlater
      rw [takeWhile_cons_of_neg (by simpa using hlater'),
        takeWhile_cons_of_neg (by simpa using hlater)]
    · have hlater' : ¬ add32 seq c < ((tep.shift c d).packets q).seqnum :=
        fun he => hlater (hhere.mpr he)
      rw [takeWhile_cons_of_pos (by simpa using hlater'),
        takeWhile_cons_of_pos (by simpa using hlater), ih (hrest hlater)]

lemma tcpQueuePacket_shift (c d : ℕ) (hq : Queued tep xs) {p : ℕ} (hp : p ∉ tep.waiting)
    (horder : InsertOrder c pack.seqnum (xs.map tep.packets)) :
    ∃ tep' ys, tcpQueuePacket tep p pack = some tep' ∧
      tcpQueuePacket (tep.shift c d) p (pack.shift c d) = some (tep'.shift c d) ∧
      Queued tep' ys ∧ ys.map tep'.packets = insertPacket pack (xs.map tep.packets) ∧
      tep'.rxLastSeq = tep.rxLastSeq ∧ tep'.rx = tep.rx := by
  obtain ⟨l, hl⟩ : ∃ l, l = xs.takeWhile fun q => ¬ pack.seqnum < (tep.packets q).seqnum := ⟨_, rfl⟩
  obtain ⟨r, hr⟩ : ∃ r, r = xs.dropWhile fun q => ¬ pack.seqnum < (tep.packets q).seqnum := ⟨_, rfl⟩
  have hlr : xs = l ++ r := by rw [hl, hr, takeWhile_append_dropWhile]
  have hl' : l = xs.takeWhile fun q =>
      ¬ (pack.shift c d).seqnum < ((tep.shift c d).packets q).seqnum :=
    hl.trans (takeWhile_shift c d horder).symm
  have hq' : Queued (tep.shift c d) xs := ⟨hq.holds, hq.waiting⟩
  obtain ⟨hrun, hholds, hperm⟩ := hq.tcpQueuePacket_at hp pack hl hlr
  obtain ⟨hrun', -, -⟩ := hq'.tcpQueuePacket_at hp (pack.shift c d) hl' hlr
  refine ⟨_, l ++ p :: r, hrun, ?_, ⟨hholds, hperm⟩, ?_, rfl, rfl⟩
  · rw [hrun', some.injEq]
    simp only [Endpoint.shift, Endpoint.mk.injEq, true_and, and_true]
    funext x
    by_cases hx : x = p
    · simp [hx]
    · simp [update_of_ne hx]
  · have hpx : p ∉ xs := fun hin => hp (hq.waiting.mem_iff.mpr hin)
    have hother : ∀ zs : List ℕ, (∀ z ∈ zs, z ∈ xs) →
        zs.map (update tep.packets p pack) = zs.map tep.packets := by
      intro zs hzs
      refine map_congr_left fun z hz => update_of_ne ?_ _ _
      exact fun he => hpx (he ▸ hzs z hz)
    have hleft := hother l fun z hz => by rw [hlr]; exact mem_append_left _ hz
    have hright := hother r fun z hz => by rw [hlr]; exact mem_append_right _ hz
    simp only [map_append, map_cons, update_self, hleft, hright]
    rw [insertPacket, takeWhile_map, dropWhile_map, hl, hr]
    rfl

lemma ending_shift (c d : ℕ) (pack : Packet) : (pack.shift c d).ending = add32 pack.ending c := by
  rw [Packet.ending, Packet.ending, shift_seqnum, shift_data, add32_right_comm]

def Endpoint.taken (tep : Endpoint) (rx : RingBuffer.Ring Byte) (n : ℕ) : Endpoint :=
  ⟨tep.remotePort, tep.recvQueue, tep.packets, tep.waiting, tep.state, tep.finSent, tep.finRecv,
    tep.txLastSeq, add32 tep.rxLastSeq n, tep.txAcksRepeated, rx, tep.tx⟩

lemma taken_shift (tep : Endpoint) (rx : RingBuffer.Ring Byte) (n c d : ℕ) :
    (tep.shift c d).taken rx n = (tep.taken rx n).shift c d := by
  rw [Endpoint.taken, Endpoint.shift, Endpoint.shift, Endpoint.taken, add32_right_comm]

def putNew (tep : Endpoint) (pack : Packet) : RingBuffer.Ring Byte × ℕ :=
  bufPut tep.rx (pack.data.drop (sub32 tep.rxLastSeq pack.seqnum))
    (toShort (pack.data.length - (sub32 tep.rxLastSeq pack.seqnum : ℕ)))

lemma deliver_new (h : tep.rxLastSeq < pack.ending) :
    deliver tep pack = (tep.taken (putNew tep pack).1 (putNew tep pack).2,
      decide (¬ ((putNew tep pack).2 : ℤ) <
        pack.data.length - (sub32 tep.rxLastSeq pack.seqnum : ℕ))) := if_pos h

lemma deliver_old (h : ¬ tep.rxLastSeq < pack.ending) : deliver tep pack = (tep, true) := if_neg h

section
variable (c d : ℕ) (hrx : tep.rxLastSeq < 2 ^ 32)
  (hfits : pack.Fits)
include hrx hfits

lemma putNew_shift : putNew (tep.shift c d) (pack.shift c d) = putNew tep pack := by
  rw [putNew, putNew, shift_rxLastSeq, shift_seqnum, sub32_add32_add32 hrx hfits.seqnum, shift_rx,
    shift_data]

lemma deliver_shift (horder : SameOrder c tep.rxLastSeq pack.ending) :
    deliver (tep.shift c d) (pack.shift c d) =
      ((deliver tep pack).1.shift c d, (deliver tep pack).2) := by
  by_cases hnew : tep.rxLastSeq < pack.ending
  · have hnew' : (tep.shift c d).rxLastSeq < (pack.shift c d).ending := by
      rw [ending_shift]
      exact horder.mp hnew
    rw [deliver_new hnew, deliver_new hnew', putNew_shift c d hrx hfits, taken_shift, shift_data,
      shift_rxLastSeq, shift_seqnum, sub32_add32_add32 hrx hfits.seqnum]
  · have hold : ¬ (tep.shift c d).rxLastSeq < (pack.shift c d).ending := by
      rw [ending_shift]
      exact fun h => hnew (horder.mpr h)
    rw [deliver_old hnew, deliver_old hold]
end

lemma deliver_rxLastSeq_lt (hrx : tep.rxLastSeq < 2 ^ 32) (pack : Packet) :
    (deliver tep pack).1.rxLastSeq < 2 ^ 32 := by
  by_cases hnew : tep.rxLastSeq < pack.ending
  · rw [deliver_new hnew]
    exact add32_lt _ _
  · rw [deliver_old hnew]
    exact hrx

/-- What is put into the ring depends on nothing but the ring and the number expected. -/
lemma deliver_congr {tep' : Endpoint} (hrx : tep'.rx = tep.rx)
    (hseq : tep'.rxLastSeq = tep.rxLastSeq) (pack : Packet) :
    (deliver tep' pack).1.rx = (deliver tep pack).1.rx ∧
      (deliver tep' pack).1.rxLastSeq = (deliver tep pack).1.rxLastSeq ∧
      (deliver tep' pack).2 = (deliver tep pack).2 := by
  have hput : putNew tep' pack = putNew tep pack := by rw [putNew, putNew, hrx, hseq]
  by_cases hnew : tep.rxLastSeq < pack.ending
  · have hnew' : tep'.rxLastSeq < pack.ending := hseq ▸ hnew
    rw [deliver_new hnew, deliver_new hnew', hput, hseq]
    exact ⟨rfl, congrArg (add32 · _) hseq, rfl⟩
  · have hold : ¬ tep'.rxLastSeq < pack.ending := hseq ▸ hnew
    rw [deliver_old hnew, deliver_old hold]
    exact ⟨hrx, hseq, rfl⟩

lemma ScanOrder.congr {c : ℕ} {tep' : Endpoint} {qs : List Packet} (h : ScanOrder c tep qs)
    (hrx : tep'.rx = tep.rx) (hseq : tep'.rxLastSeq = tep.rxLastSeq) : ScanOrder c tep' qs := by
  induction qs generalizing tep tep' with
  | nil => trivial
  | cons q qs ih =>
    obtain ⟨hring, hnext, hused⟩ := deliver_congr hrx hseq q
    refine ⟨hseq ▸ h.1, fun hle => ?_⟩
    obtain ⟨hend, hrest⟩ := h.2 (hseq ▸ hle)
    exact ⟨hseq ▸ hend, fun hfit => ih (hrest (hused ▸ hfit)) hring hnext⟩

lemma checkLoop_shift (c d : ℕ) (hq : Queued tep xs) (hrx : tep.rxLastSeq < 2 ^ 32)
    (hfits : ∀ p ∈ xs, (tep.packets p).Fits)
    (horder : ScanOrder c tep (xs.map tep.packets)) {fuel : ℕ} (hfuel : xs.length < fuel) :
    checkLoop fuel (tep.shift c d) xs.head? =
      (checkLoop fuel tep xs.head?).map fun r => (r.1.shift c d, r.2) := by
  induction xs generalizing tep fuel with
  | nil =>
    obtain _ | fuel := fuel
    · omega
    rfl
  | cons cur xs ih =>
    obtain _ | fuel := fuel
    · omega
    obtain ⟨hhere, hrest⟩ := horder
    have hcur := hfits cur mem_cons_self
    rw [List.head?_cons, checkLoop, checkLoop, shift_packets, shift_rxLastSeq, shift_seqnum]
    by_cases hlater : tep.rxLastSeq < (tep.packets cur).seqnum
    · rw [if_pos hlater, if_pos (hhere.mp hlater)]
      rfl
    · obtain ⟨hend, hscan⟩ := hrest hlater
      rw [if_neg hlater, if_neg fun h => hlater (hhere.mpr h), deliver_shift c d hrx hcur hend]
      dsimp only
      cases hused : (deliver tep (tep.packets cur)).2 with
      | false =>
        simp only [Bool.false_eq_true, if_false]
        rfl
      | true =>
        simp only [if_true]
        have hnext : tep.recvQueue.next cur = xs.head? := by
          have hl := hq.holds.linked ()
          simpa using hl.2.1
        have hpackets : (removePacket (deliver tep (tep.packets cur)).1 cur).packets = tep.packets :=
          (deliver_frame tep (tep.packets cur)).2.1
        have hgo := ih (hq.deliver (tep.packets cur)).removePacket ?_ ?_ ?_ (by simpa using hfuel)
        · rw [shift_recvQueue, hnext]
          exact hgo
        · exact deliver_rxLastSeq_lt hrx _
        · rw [hpackets]
          exact fun p hp => hfits p (mem_cons_of_mem _ hp)
        · rw [hpackets]
          exact (hscan hused).congr rfl rfl

lemma receive_shift (c d : ℕ) (xs : List ℕ) (hq : Queued o.1 xs) {p : ℕ} (hp : p ∉ o.1.waiting)
    (hrx : o.1.rxLastSeq < 2 ^ 32) (hpack : pack.Fits) (hfits : ∀ q ∈ xs, (o.1.packets q).Fits)
    (hinsert : InsertOrder c pack.seqnum (xs.map o.1.packets))
    (hscan : ScanOrder c o.1 (insertPacket pack (xs.map o.1.packets))) :
    receive (shiftOutcome c d o) p (pack.shift c d) =
      (receive o p pack).map (shiftOutcome c d) := by
  obtain ⟨tep, ys, hrun, hrun', hq', hpackets, hseq, hring⟩ := tcpQueuePacket_shift c d hq hp hinsert
  have hall : ∀ q ∈ ys, (tep.packets q).Fits := by
    intro q hin
    have hmem : tep.packets q ∈ insertPacket pack (xs.map o.1.packets) := by
      rw [← hpackets]
      exact List.mem_map_of_mem hin
    rw [insertPacket, mem_append, mem_cons] at hmem
    have hold : ∀ q ∈ xs.map o.1.packets, q.Fits := by
      intro q hq
      obtain ⟨x, hx, rfl⟩ := List.mem_map.mp hq
      exact hfits x hx
    rcases hmem with hl | he | hr
    · exact hold _ (takeWhile_subset _ hl)
    · rw [he]
      exact hpack
    · exact hold _ (dropWhile_subset _ hr)
  replace hscan := hscan.congr hring hseq
  rw [← hpackets] at hscan
  rw [← hseq] at hrx
  have hcheck : tcpCheckWaitingPacket (tep.shift c d) =
      (tcpCheckWaitingPacket tep).map fun r => (r.1.shift c d, r.2) := by
    rw [tcpCheckWaitingPacket, tcpCheckWaitingPacket, shift_recvQueue, shift_waiting,
      hq'.holds.head ()]
    exact checkLoop_shift c d hq' hrx hall hscan hq'.length_lt
  have hpair : ∀ tep' : Endpoint, (tep'.shift c d, (shiftOutcome c d o).2) =
      shiftOutcome c d (tep', o.2) := fun _ => rfl
  change ((tcpQueuePacket (o.1.shift c d) p (pack.shift c d)).bind fun tep =>
    (tcpCheckWaitingPacket tep).bind fun r =>
      if r.2 then reply (r.1, (shiftOutcome c d o).2) flagAck 0 0 true
      else some (r.1, (shiftOutcome c d o).2.1, true)) = _
  rw [receive, hrun, hrun', bind_some, bind_some, hcheck]
  cases tcpCheckWaitingPacket tep with
  | none => rfl
  | some r =>
    rw [map_some, bind_some, bind_some]
    cases hr : r.2 with
    | true =>
      rw [if_pos rfl, if_pos rfl, hpair, reply_shift c d _ (by decide)]
    | false =>
      rw [if_neg (by simp), if_neg (by simp)]
      rfl

/-- Handling a segment commutes with a translation that keeps the answer of each comparison. -/
theorem established_translation_invariant (c d : ℕ) {tep : Endpoint} {xs : List ℕ}
    (hq : Queued tep xs) (hrx : tep.rxLastSeq < 2 ^ 32) (htx : tep.txLastSeq < 2 ^ 32)
    (hfits : ∀ q ∈ xs, (tep.packets q).Fits) {p : ℕ} (hp : p ∉ tep.waiting) {pack : Packet}
    (hpack : pack.Fits) (hkeeps : KeepsOrder c d tep xs pack) :
    tcpForwardEstablished (tep.shift c d) p (pack.shift c d) =
      (tcpForwardEstablished tep p pack).map (shiftOutcome c d) := by
  obtain ⟨o, ho, hsame, hdone, -, -, -⟩ := tcpCheckClose_spec tep pack
  rw [tcpForwardEstablished, tcpForwardEstablished, tcpCheckClose_shift c d hrx htx hpack, ho,
    map_some, bind_some, bind_some]
  by_cases hcloses : Closes tep pack
  · have hd := hdone.mpr hcloses
    have hd' : (shiftOutcome c d o).2.2 = true := hd
    rw [if_pos hd, if_pos hd', map_some]
  · have hd : ¬ o.2.2 = true := fun hd => hcloses (hdone.mp hd)
    have hd' : ¬ (shiftOutcome c d o).2.2 = true := hd
    have hseq := tcpCheckClose_expected ho hcloses
    have hword : o.1.rxLastSeq < 2 ^ 32 := by
      rw [hseq, expected]
      split_ifs
      · exact add32_lt _ _
      · exact hrx
    have hlast : lastAcked o.1 = lastAcked tep := by
      rw [lastAcked, hsame.txLastSeq, hsame.tx, lastAcked]
    rw [if_neg hd, if_neg hd']
    have hacks : (if (pack.shift c d).has flagAck
        then acknowledge (shiftOutcome c d o) (pack.shift c d) else some (shiftOutcome c d o)) =
        (if pack.has flagAck then acknowledge o pack else some o).map (shiftOutcome c d) := by
      by_cases hack : pack.has flagAck
      · rw [if_pos hack, if_pos ((shift_has pack c d flagAck).mpr hack)]
        apply acknowledge_shift c d hpack
        · rw [hlast]
          exact hkeeps.acked hcloses hack
        · rw [hlast, hsame.txLastSeq]
          exact hkeeps.missing hcloses hack
      · rw [if_neg hack, if_neg fun h => hack ((shift_has pack c d flagAck).mp h), map_some]
    rw [hacks]
    cases hnext : (if pack.has flagAck then acknowledge o pack else some o) with
    | none => rfl
    | some o1 =>
      obtain ⟨n, tx, hframe⟩ : ∃ n tx, o1.1 = { o.1 with txAcksRepeated := n, tx := tx } := by
        by_cases hack : pack.has flagAck
        · rw [if_pos hack] at hnext
          exact acknowledge_frame hword hnext
        · rw [if_neg hack] at hnext
          cases hnext
          exact ⟨_, _, rfl⟩
      have hpackets : o1.1.packets = tep.packets := by
        rw [hframe]
        exact hsame.packets
      have hseq1 : o1.1.rxLastSeq = expected tep pack := by
        rw [hframe]
        exact hseq
      have hring : o1.1.rx = tep.rx := by
        rw [hframe]
        exact hsame.rx
      have hwait : o1.1.waiting = tep.waiting := by
        rw [hframe]
        exact hsame.waiting
      have hqueue : o1.1.recvQueue = tep.recvQueue := by
        rw [hframe]
        exact hsame.recvQueue
      rw [map_some, bind_some, bind_some, shift_data]
      by_cases hdata : 0 < pack.data.length
      · have hne : pack.data ≠ [] := ne_nil_of_length_pos hdata
        rw [if_pos hdata, if_pos hdata]
        refine receive_shift c d xs ⟨hqueue ▸ hq.holds, hwait ▸ hq.waiting⟩ (hwait ▸ hp) ?_
          hpack ?_ ?_ ?_
        · rw [hseq1, ← hseq]
          exact hword
        · rw [hpackets]
          exact hfits
        · rw [hpackets]
          exact hkeeps.insert hcloses hne
        · rw [hpackets]
          exact (hkeeps.scan hcloses hne).congr hring hseq1
      · rw [if_neg hdata, if_neg hdata]
        rfl

def atZero : Endpoint :=
  established 80 7 0 (fun _ => ⟨0, 0, 0, []⟩) (fun _ => 0) (fun _ => 0)

/-- The end of the data wraps to 0 and counts as old. -/
theorem translation_loses_byte : ∃ o o',
    tcpForwardEstablished atZero 1 ⟨flagAck, 0, 7, [1]⟩ = some o ∧ o.1.rx.inPos = 1 ∧
    tcpForwardEstablished (atZero.shift (2 ^ 32 - 1) 0) 1
      (Packet.shift ⟨flagAck, 0, 7, [1]⟩ (2 ^ 32 - 1) 0) = some o' ∧ o'.1.rx.inPos = 0 := by
  obtain ⟨o, ho, hin⟩ : ∃ o ∈ tcpForwardEstablished atZero 1 ⟨flagAck, 0, 7, [1]⟩,
      o.1.rx.inPos = 1 := by decide +kernel
  obtain ⟨o', ho', hin'⟩ : ∃ o ∈ tcpForwardEstablished (atZero.shift (2 ^ 32 - 1) 0) 1
      (Packet.shift ⟨flagAck, 0, 7, [1]⟩ (2 ^ 32 - 1) 0), o.1.rx.inPos = 0 := by decide +kernel
  exact ⟨o, o', ho, hin, ho', hin'⟩

/-- The endpoint with the byte after the next one waiting in its queue. -/
def oneWaiting : Endpoint :=
  { atZero with
    recvQueue := queueInsertAfter atZero.recvQueue () 2 none
    packets := update atZero.packets 2 ⟨flagAck, 1, 7, [2]⟩
    waiting := [2] }

lemma oneWaiting_queued : Queued oneWaiting [2] := by
  have hempty : Queued atZero [] := ⟨holds_init, .refl _⟩
  have hfree : 2 ∉ atZero.waiting := not_mem_nil
  obtain ⟨-, hholds, hperm⟩ :=
    hempty.tcpQueuePacket_at hfree ⟨flagAck, 1, 7, [2]⟩ (l := []) (r := []) rfl rfl
  exact ⟨hholds, hperm⟩

theorem established_translation_invariant_thousand :
    tcpForwardEstablished (oneWaiting.shift 1000 5) 1 (Packet.shift ⟨flagAck, 0, 7, [1]⟩ 1000 5) =
      (tcpForwardEstablished oneWaiting 1 ⟨flagAck, 0, 7, [1]⟩).map (shiftOutcome 1000 5) := by
  refine established_translation_invariant 1000 5 oneWaiting_queued
    (by decide +kernel) (by decide +kernel) ?_ (by simp [oneWaiting])
    ⟨by decide, by decide, by decide⟩ ⟨?_, ?_, ?_, ?_⟩
  · intro q hq
    rw [mem_singleton.mp hq]
    exact ⟨by decide, by decide, by decide⟩
  · exact fun _ _ => by decide +kernel
  · exact fun _ _ => by decide +kernel
  · exact fun _ _ => ⟨by decide +kernel, fun h => absurd (by decide +kernel) h⟩
  · exact fun _ _ => ⟨by decide +kernel, fun _ => ⟨by decide +kernel, fun _ =>
      ⟨by decide +kernel, fun _ => ⟨by decide +kernel, fun _ => trivial⟩⟩⟩⟩

end Gloworm.Tcp
