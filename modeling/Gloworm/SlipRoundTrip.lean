import Gloworm.TransitionRuns

/-! The serial-line framing of `slip.c`. A device has a buffer for each direction; a packet is its
bytes, and the queues of packets are lists. The receiver's buffer holds the bytes since the last
end of a frame, however they come in. -/
namespace Gloworm.Slip
open List Function Transition

abbrev Byte := UInt8

def slipMtuMax : ℕ := 1500

def slipFrameEnd : Byte := 0xC0
def slipFrameEsc : Byte := 0xDB
def slipFrameEscEnd : Byte := 0xDC
def slipFrameEscEsc : Byte := 0xDD

structure Device where
  rxQueue : List (List Byte)
  rxRead : ℕ
  rxWrite : ℕ
  rxBuffer : ℕ → Byte
  txQueue : List (List Byte)
  txRead : ℕ
  txWrite : ℕ
  txBuffer : ℕ → Byte

def store (buf : ℕ → Byte) (at_ : ℕ) : List Byte → ℕ → Byte
  | [] => buf
  | b :: bs => store (update buf at_ b) (at_ + 1) bs

def memcpy (buf : ℕ → Byte) (dest src : ℕ) : ℕ → ℕ → Byte
  | 0 => buf
  | num + 1 => memcpy (update buf dest (buf src)) (dest + 1) (src + 1) num

def escapeByte (b : Byte) : List Byte :=
  if b = slipFrameEnd then [slipFrameEsc, slipFrameEscEnd]
  else if b = slipFrameEsc then [slipFrameEsc, slipFrameEscEsc]
  else [b]

def encodeLoop : List Byte → (ℕ → Byte) → ℕ → (ℕ → Byte) × ℕ
  | [], buf, j => (buf, j)
  | b :: bs, buf, j => encodeLoop bs (store buf j (escapeByte b)) (j + (escapeByte b).length)

def slipEncodePacket (d : Device) : Device :=
  match d.txQueue with
  | [] => d
  | pack :: queue =>
    let r := encodeLoop pack (update d.txBuffer 0 slipFrameEnd) 1
    { d with
      txQueue := queue
      txBuffer := update r.1 r.2 slipFrameEnd
      txRead := 0
      txWrite := r.2 + 1 }

def unescapeByte (b : Byte) : Byte :=
  if b = slipFrameEscEnd then slipFrameEnd
  else if b = slipFrameEscEsc then slipFrameEsc
  else 0

def decodeLoop (buf : ℕ → Byte) (length : ℕ) : ℕ → ℕ → List Byte
  | 0, _ => []
  | fuel + 1, i =>
    if length ≤ i then []
    else if buf i = slipFrameEnd then []
    else if buf i = slipFrameEsc then
      unescapeByte (buf (i + 1)) :: decodeLoop buf length fuel (i + 2)
    else buf i :: decodeLoop buf length fuel (i + 1)

def slipDecodePacket (d : Device) (length : ℕ) : Device :=
  { d with rxQueue := d.rxQueue ++ [decodeLoop d.rxBuffer length length 0] }

def dropFrame (d : Device) : Device :=
  let rxRead := d.rxRead + 1
  { d with
    rxBuffer := if rxRead < d.rxWrite then memcpy d.rxBuffer 0 rxRead (d.rxWrite - rxRead)
      else d.rxBuffer
    rxWrite := d.rxWrite - rxRead
    rxRead := 0 }

def readLoop : ℕ → Device → Device
  | 0, d => d
  | read + 1, d =>
    if d.rxBuffer d.rxRead = slipFrameEnd then
      readLoop read (dropFrame (if d.rxRead ≠ 0 then slipDecodePacket d d.rxRead else d))
    else readLoop read { d with rxRead := d.rxRead + 1 }

def slipIfReadData (d : Device) (answer : Option (List Byte)) : Device :=
  match answer with
  | none => d
  | some bytes =>
    let d := readLoop bytes.length { d with
      rxBuffer := store d.rxBuffer d.rxWrite bytes
      rxWrite := d.rxWrite + bytes.length }
    { d with rxRead := d.rxWrite }

def slipIfInit : Device := ⟨[], 0, 0, fun _ => 0, [], 0, 0, fun _ => 0⟩

def ReadStep (d : Device) (answer : Option (List Byte)) (d' : Device) : Prop :=
  (answer.getD []).length ≤ slipMtuMax - d.rxWrite ∧ slipIfReadData d answer = d'

lemma store_eq (buf : ℕ → Byte) (at_ : ℕ) (bs : List Byte) (i : ℕ) :
    store buf at_ bs i = if at_ ≤ i then bs.getD (i - at_) (buf i) else buf i := by
  induction bs generalizing buf at_ with
  | nil => simp [store]
  | cons b bs ih =>
    rw [store, ih]
    rcases lt_trichotomy i at_ with hlt | rfl | hgt
    · rw [if_neg (by omega), if_neg (by omega), update_of_ne (by omega)]
    · simp
    · rw [if_pos (by omega), if_pos (by omega), update_of_ne (by omega)]
      obtain ⟨n, hn⟩ : ∃ n, i - at_ = n + 1 := ⟨i - at_ - 1, by omega⟩
      rw [hn, (by omega : i - (at_ + 1) = n), List.getD_cons_succ]

lemma memcpy_eq (buf : ℕ → Byte) {dest src : ℕ} (h : dest ≤ src) (num i : ℕ) :
    memcpy buf dest src num i =
      if dest ≤ i ∧ i < dest + num then buf (src + (i - dest)) else buf i := by
  induction num generalizing buf dest src with
  | zero => rw [memcpy, if_neg (by omega)]
  | succ num ih =>
    rw [memcpy, ih _ (by omega)]
    by_cases hin : dest + 1 ≤ i ∧ i < dest + 1 + num
    · rw [if_pos hin, if_pos (by omega), update_of_ne (by omega)]
      congr 1
      omega
    · rw [if_neg hin]
      by_cases hd : i = dest
      · subst hd
        rw [if_pos (by omega), update_self]
        simp
      · rw [if_neg (by omega), update_of_ne hd]

def escape (pack : List Byte) : List Byte := pack.flatMap escapeByte

def frame (pack : List Byte) : List Byte := slipFrameEnd :: (escape pack ++ [slipFrameEnd])

lemma escape_cons (b : Byte) (pack : List Byte) :
    escape (b :: pack) = escapeByte b ++ escape pack := by simp [escape]

lemma escapeByte_ne_nil (b : Byte) : escapeByte b ≠ [] := by
  unfold escapeByte
  split_ifs <;> simp

lemma end_not_mem_escape (pack : List Byte) : slipFrameEnd ∉ escape pack := by
  induction pack with
  | nil => simp [escape]
  | cons b pack ih =>
    rw [escape_cons, mem_append, not_or]
    refine ⟨?_, ih⟩
    unfold escapeByte
    split_ifs with hend hesc
    · decide
    · decide
    · simpa using fun he => hend he.symm

lemma store_append (buf : ℕ → Byte) (at_ : ℕ) (as bs : List Byte) :
    store (store buf at_ as) (at_ + as.length) bs = store buf at_ (as ++ bs) := by
  induction as generalizing buf at_ with
  | nil => rfl
  | cons a as ih =>
    rw [store, cons_append, store, ← ih, length_cons]
    congr 1
    omega

lemma encodeLoop_eq (pack : List Byte) (buf : ℕ → Byte) (j : ℕ) :
    encodeLoop pack buf j = (store buf j (escape pack), j + (escape pack).length) := by
  induction pack generalizing buf j with
  | nil => simp [encodeLoop, escape, store]
  | cons b pack ih =>
    rw [encodeLoop, ih, store_append, escape_cons, length_append, Nat.add_assoc]

def pendingFrame (d : Device) : List Byte := (List.range d.txWrite).map d.txBuffer

def encodedFrame (d : Device) (pack : List Byte) : List Byte :=
  pendingFrame (slipEncodePacket { d with txQueue := [pack] })

lemma map_store_range (buf : ℕ → Byte) (bs : List Byte) :
    (List.range bs.length).map (store buf 0 bs) = bs := by
  apply ext_getElem (by simp)
  intro i h1 h2
  rw [getElem_map, getElem_range, store_eq, if_pos (Nat.zero_le i), Nat.sub_zero,
    getD_eq_getElem _ _ h2]

lemma length_frame (pack : List Byte) : (frame pack).length = 1 + (escape pack).length + 1 := by
  simp [frame]
  omega

variable {d : Device} {pack : List Byte}

lemma slipEncodePacket_eq {queue : List (List Byte)}
    (h : d.txQueue = pack :: queue) : slipEncodePacket d = { d with
        txQueue := queue
        txBuffer := store d.txBuffer 0 (frame pack)
        txRead := 0
        txWrite := (frame pack).length } := by
  have hbuf : update (store (update d.txBuffer 0 slipFrameEnd) 1 (escape pack))
      (1 + (escape pack).length) slipFrameEnd = store d.txBuffer 0 (frame pack) := by
    have happ := store_append d.txBuffer 0 [slipFrameEnd] (escape pack ++ [slipFrameEnd])
    have hend := store_append (update d.txBuffer 0 slipFrameEnd) 1 (escape pack)
      [slipFrameEnd]
    exact hend.trans happ
  simp only [slipEncodePacket, h, encodeLoop_eq, hbuf, length_frame]

lemma encodedFrame_eq (d : Device) (pack : List Byte) : encodedFrame d pack = frame pack := by
  rw [encodedFrame, pendingFrame, slipEncodePacket_eq rfl]
  exact map_store_range d.txBuffer (frame pack)

/-- The bytes that stand for two bytes of a frame. -/
def NeedsEscape (b : Byte) : Prop := b = slipFrameEnd ∨ b = slipFrameEsc
deriving Decidable

lemma length_escape (pack : List Byte) :
    (escape pack).length = pack.length + pack.countP (NeedsEscape ·) := by
  induction pack with
  | nil => rfl
  | cons b pack ih =>
    have hbyte : (escapeByte b).length = 1 + if NeedsEscape b then 1 else 0 := by
      unfold escapeByte NeedsEscape
      split_ifs with hend hesc <;> simp_all
    rw [escape_cons, length_append, ih, hbyte, length_cons, countP_cons]
    simp only [decide_eq_true_eq]
    omega

/-- Nothing is written outside the buffer, and the bytes left to be sent are those of the frame. -/
def EncodesInside (pack : List Byte) : Prop :=
  ∀ (d : Device) (queue : List (List Byte)), d.txQueue = pack :: queue →
    (∀ i, slipMtuMax ≤ i → (slipEncodePacket d).txBuffer i = d.txBuffer i) ∧
    (slipEncodePacket d).txWrite = (frame pack).length

/-- A packet is encoded inside the buffer exactly when two more bytes and one for each escaped byte
have room. -/
theorem encodesInside_iff (pack : List Byte) :
    EncodesInside pack ↔ pack.length + pack.countP (NeedsEscape ·) + 2 ≤ slipMtuMax := by
  have hlength : (frame pack).length = pack.length + pack.countP (NeedsEscape ·) + 2 := by
    rw [length_frame, length_escape]
    omega
  rw [← hlength]
  constructor
  · intro hinside
    by_contra hlong
    have hlt : slipMtuMax < (frame pack).length := by omega
    -- a buffer that holds something else where the first byte behind it is written
    obtain ⟨b, hb⟩ : ∃ b, b ≠ (frame pack).get ⟨slipMtuMax, hlt⟩ := by
      by_cases hzero : (frame pack).get ⟨slipMtuMax, hlt⟩ = 0
      · exact ⟨1, by rw [hzero]; decide⟩
      · exact ⟨0, Ne.symm hzero⟩
    have hkept := (hinside { slipIfInit with txQueue := [pack], txBuffer := fun _ => b } [] rfl).1
      slipMtuMax le_rfl
    rw [slipEncodePacket_eq rfl] at hkept
    change store (fun _ => b) 0 (frame pack) slipMtuMax = b at hkept
    rw [store_eq, if_pos (Nat.zero_le _), Nat.sub_zero, getD_eq_getElem _ _ hlt] at hkept
    exact hb hkept.symm
  · intro hroom d queue hqueue
    rw [slipEncodePacket_eq hqueue]
    refine ⟨fun i hi => ?_, rfl⟩
    change store d.txBuffer 0 (frame pack) i = _
    rw [store_eq, if_pos (Nat.zero_le _), Nat.sub_zero, getD_eq_default _ _ (by omega)]

theorem frame_end_outside : ∃ pack : List Byte, pack.length = 1499 ∧
    (slipEncodePacket { slipIfInit with txQueue := [pack] }).txBuffer 1500 ≠
      slipIfInit.txBuffer 1500 := by
  refine ⟨List.replicate 1499 1, length_replicate, ?_⟩
  decide +kernel

def decodeBytes (held : List Byte) : List Byte :=
  decodeLoop (fun i => held.getD i slipFrameEnd) held.length held.length 0

lemma decodeLoop_congr {buf buf' : ℕ → Byte} {length : ℕ}
    (h : ∀ i, i ≤ length → buf i = buf' i) (fuel i : ℕ) :
    decodeLoop buf length fuel i = decodeLoop buf' length fuel i := by
  induction fuel generalizing i with
  | zero => rfl
  | succ fuel ih =>
    by_cases hi : length ≤ i
    · simp only [decodeLoop, if_pos hi]
    · simp only [decodeLoop, if_neg hi, h i (by omega), h (i + 1) (by omega), ih]

lemma decodeLoop_escape (pack : List Byte) {buf : ℕ → Byte} {at_ fuel length : ℕ}
    (hbuf : ∀ k b, (escape pack)[k]? = some b → buf (at_ + k) = b)
    (hlen : length = at_ + (escape pack).length) (hfuel : (escape pack).length ≤ fuel) :
    decodeLoop buf length fuel at_ = pack := by
  induction pack generalizing at_ fuel with
  | nil =>
    have hend : length ≤ at_ := by simp [hlen, escape]
    cases fuel with
    | zero => rfl
    | succ fuel => rw [decodeLoop, if_pos hend]
  | cons b pack ih =>
    rw [escape_cons, length_append] at hlen hfuel
    rw [escape_cons] at hbuf
    have hpos := length_pos_of_ne_nil (escapeByte_ne_nil b)
    obtain _ | fuel := fuel
    · omega
    have hrest : ∀ k c, (escape pack)[k]? = some c → buf (at_ + (escapeByte b).length + k) = c := by
      intro k c hc
      rw [Nat.add_assoc]
      apply hbuf
      rw [List.getElem?_append_right (by omega), Nat.add_sub_cancel_left]
      exact hc
    have hhere : ∀ k c, (escapeByte b)[k]? = some c → buf (at_ + k) = c := by
      intro k c hc
      apply hbuf
      rw [List.getElem?_append_left (List.getElem?_eq_some_iff.mp hc).1]
      exact hc
    have hgo := ih hrest (by omega : length = at_ + (escapeByte b).length + (escape pack).length)
      (by omega : (escape pack).length ≤ fuel)
    rw [decodeLoop, if_neg (by omega)]
    unfold escapeByte at hhere hgo
    split_ifs at hhere hgo with hend hesc
    · have h0 : buf at_ = slipFrameEsc := hhere 0 _ rfl
      have h1 : buf (at_ + 1) = slipFrameEscEnd := hhere 1 _ rfl
      rw [h0, h1, if_neg (by decide), if_pos rfl, hend]
      exact congrArg (slipFrameEnd :: ·) hgo
    · have h0 : buf at_ = slipFrameEsc := hhere 0 _ rfl
      have h1 : buf (at_ + 1) = slipFrameEscEsc := hhere 1 _ rfl
      rw [h0, h1, if_neg (by decide), if_pos rfl, hesc]
      exact congrArg (slipFrameEsc :: ·) hgo
    · have h0 : buf at_ = b := hhere 0 _ rfl
      rw [h0, if_neg hend, if_neg hesc]
      exact congrArg (b :: ·) hgo

lemma decodeBytes_escape (pack : List Byte) : decodeBytes (escape pack) = pack := by
  refine decodeLoop_escape pack ?_ (Nat.zero_add _).symm le_rfl
  intro k b hb
  rw [Nat.zero_add, List.getD_eq_getElem?_getD, hb]
  rfl

abbrev Line := List Byte × List (List Byte)

def feed (s : Line) (b : Byte) : Line :=
  if b = slipFrameEnd then ([], if s.1 = [] then s.2 else s.2 ++ [decodeBytes s.1])
  else (s.1 ++ [b], s.2)

/-- The buffer holds the bytes of an unfinished frame, all of them seen, and bytes not yet seen. -/
structure Represents (d : Device) (held rest : List Byte) : Prop where
  rxRead : d.rxRead = held.length
  rxWrite : d.rxWrite = held.length + rest.length
  buffer : ∀ i b, (held ++ rest)[i]? = some b → d.rxBuffer i = b

namespace Represents
variable {held rest : List Byte}

lemma next (h : Represents d held (b :: rest)) : d.rxBuffer d.rxRead = b := by
  apply h.buffer
  rw [h.rxRead, List.getElem?_append_right le_rfl, Nat.sub_self]
  rfl

lemma decode (h : Represents d held (slipFrameEnd :: rest)) :
    decodeLoop d.rxBuffer d.rxRead d.rxRead 0 = decodeBytes held := by
  rw [h.rxRead]
  apply decodeLoop_congr
  intro i hi
  apply h.buffer
  by_cases hlt : i < held.length
  · rw [List.getElem?_append_left hlt, getD_eq_getElem _ _ hlt, List.getElem?_eq_getElem hlt]
  · obtain rfl : i = held.length := by omega
    rw [List.getElem?_append_right le_rfl, Nat.sub_self, getD_eq_default _ _ le_rfl]
    rfl

lemma dropFrame (h : Represents d held (slipFrameEnd :: rest)) :
    Represents (dropFrame d) [] rest := by
  have hw := h.rxWrite
  rw [length_cons] at hw
  have hr := h.rxRead
  refine ⟨rfl, ?_, ?_⟩
  · simp only [Slip.dropFrame, length_nil]
    omega
  · intro i b hb
    rw [nil_append] at hb
    have hi := (List.getElem?_eq_some_iff.mp hb).1
    simp only [Slip.dropFrame]
    rw [if_pos (by omega), memcpy_eq _ (Nat.zero_le _), if_pos (by omega)]
    apply h.buffer
    rw [List.getElem?_append_right (by omega), ← hb]
    obtain ⟨k, hk⟩ : ∃ k, d.rxRead + 1 + (i - 0) - held.length = k + 1 := ⟨i, by omega⟩
    rw [hk, List.getElem?_cons_succ]
    congr 1
    omega

lemma seen {b : Byte} (h : Represents d held (b :: rest)) :
    Represents { d with rxRead := d.rxRead + 1 } (held ++ [b]) rest := by
  have hw := h.rxWrite
  rw [length_cons] at hw
  refine ⟨?_, ?_, ?_⟩
  · rw [length_append, h.rxRead]
    rfl
  · rw [length_append, length_singleton]
    change d.rxWrite = _
    omega
  · intro i c hc
    apply h.buffer
    rw [append_assoc] at hc
    exact hc

lemma readLoop (h : Represents d held rest) :
    Represents (readLoop rest.length d) (rest.foldl feed (held, d.rxQueue)).1 [] ∧
      (readLoop rest.length d).rxQueue = (rest.foldl feed (held, d.rxQueue)).2 := by
  induction rest generalizing d held with
  | nil => exact ⟨h, rfl⟩
  | cons b rest ih =>
    rw [length_cons, Slip.readLoop, h.next, foldl_cons]
    by_cases hend : b = slipFrameEnd
    · subst hend
      rw [if_pos rfl]
      have hqueue : feed (held, d.rxQueue) slipFrameEnd =
          ([], (if d.rxRead ≠ 0 then slipDecodePacket d d.rxRead else d).rxQueue) := by
        by_cases hnil : held = []
        · have hzero : ¬ d.rxRead ≠ 0 := by simp [h.rxRead, hnil]
          rw [feed, if_pos rfl, if_pos hnil, if_neg hzero]
        · have hpos : d.rxRead ≠ 0 := by simp [h.rxRead, hnil]
          rw [feed, if_pos rfl, if_neg hnil, if_pos hpos, slipDecodePacket, h.decode]
      have hdrop : Represents
          (Slip.dropFrame (if d.rxRead ≠ 0 then slipDecodePacket d d.rxRead else d)) [] rest := by
        split_ifs
        · exact dropFrame ⟨h.rxRead, h.rxWrite, h.buffer⟩
        · exact h.dropFrame
      rw [hqueue]
      exact ih hdrop
    · rw [if_neg hend, feed, if_neg hend]
      exact ih h.seen
end Represents

lemma slipIfReadData_spec {held : List Byte} (h : Represents d held [])
    (answer : Option (List Byte)) :
    Represents (slipIfReadData d answer) ((answer.getD []).foldl feed (held, d.rxQueue)).1 [] ∧
      (slipIfReadData d answer).rxQueue = ((answer.getD []).foldl feed (held, d.rxQueue)).2 := by
  cases answer with
  | none => exact ⟨h, rfl⟩
  | some bytes =>
    have hw := h.rxWrite
    rw [length_nil, Nat.add_zero] at hw
    have hin : Represents { d with
        rxBuffer := store d.rxBuffer d.rxWrite bytes
        rxWrite := d.rxWrite + bytes.length } held bytes := by
      refine ⟨h.rxRead, by simp [hw], ?_⟩
      intro i b hb
      dsimp only
      rw [store_eq, hw]
      by_cases hlt : i < held.length
      · rw [if_neg (by omega)]
        apply h.buffer
        rw [append_nil]
        rw [List.getElem?_append_left hlt] at hb
        exact hb
      · rw [List.getElem?_append_right (by omega)] at hb
        rw [if_pos (by omega), List.getD_eq_getElem?_getD, hb]
        rfl
    obtain ⟨hrep, hqueue⟩ := hin.readLoop
    refine ⟨⟨?_, hrep.rxWrite, hrep.buffer⟩, hqueue⟩
    have hend := hrep.rxWrite
    rw [length_nil, Nat.add_zero] at hend
    exact hend

lemma represents_run {answers : List (Option (List Byte))}
    (hrun : Run ReadStep slipIfInit answers d) : ∃ held, Represents d held [] ∧
      (held, d.rxQueue) = (answers.flatMap (·.getD [])).foldl feed ([], []) := by
  refine hrun.invariant (I := fun answers d => ∃ held, Represents d held [] ∧
    (held, d.rxQueue) = (answers.flatMap (·.getD [])).foldl feed ([], [])) ?_ ?_
  · exact ⟨[], ⟨rfl, rfl, by simp⟩, rfl⟩
  · rintro answers d answer d' ⟨held, hrep, hline⟩ ⟨-, rfl⟩
    obtain ⟨hrep', hqueue⟩ := slipIfReadData_spec hrep answer
    rw [hline] at hrep' hqueue
    refine ⟨_, hrep', ?_⟩
    rw [flatMap_append, foldl_append, flatMap_singleton, hqueue]

variable {bs : List Byte}

lemma foldl_feed_held (h : slipFrameEnd ∉ bs) (held : List Byte)
    (queue : List (List Byte)) : bs.foldl feed (held, queue) = (held ++ bs, queue) := by
  induction bs generalizing held with
  | nil => simp
  | cons b bs ih =>
    rw [mem_cons, not_or] at h
    rw [foldl_cons, feed, if_neg (Ne.symm h.1), ih h.2, append_assoc]
    rfl

lemma foldl_feed_escape (pack : List Byte) (queue : List (List Byte)) :
    (slipFrameEnd :: escape pack).foldl feed ([], queue) = (escape pack, queue) := by
  rw [foldl_cons, feed, if_pos rfl, if_pos rfl, foldl_feed_held (end_not_mem_escape pack)]
  rfl

lemma foldl_feed_frame (h : pack ≠ []) (queue : List (List Byte)) :
    (frame pack).foldl feed ([], queue) = ([], queue ++ [pack]) := by
  have hne : escape pack ≠ [] := by
    cases pack with
    | nil => exact absurd rfl h
    | cons b pack =>
      rw [escape_cons]
      exact append_ne_nil_of_left_ne_nil (escapeByte_ne_nil b) _
  rw [frame, ← cons_append, foldl_append, foldl_feed_escape, foldl_cons, feed,
    if_pos rfl, if_neg hne, decodeBytes_escape]
  rfl

variable {packets : List (List Byte)}

lemma foldl_feed_frames (h : ∀ pack ∈ packets, pack ≠ []) (queue : List (List Byte)) :
    (packets.flatMap frame).foldl feed ([], queue) = ([], queue ++ packets) := by
  induction packets generalizing queue with
  | nil => simp
  | cons pack packets ih =>
    rw [flatMap_cons, foldl_append, foldl_feed_frame (h pack mem_cons_self),
      ih fun p hp => h p (mem_cons_of_mem _ hp), append_assoc]
    rfl

lemma held_lt_of_frame (hsize : (frame pack).length ≤ slipMtuMax)
    (hpre : bs <+: frame pack) (hne : bs ≠ frame pack) (queue : List (List Byte)) :
    (bs.foldl feed ([], queue)).1.length < slipMtuMax := by
  have hlen : (escape pack).length + 2 ≤ slipMtuMax := by
    simpa [frame, Nat.succ_le_iff] using hsize
  rw [frame, ← cons_append] at hpre hne
  rcases prefix_concat_iff.mp hpre with he | hpre
  · exact absurd he hne
  · cases bs with
    | nil =>
      rw [foldl_nil, length_nil]
      omega
    | cons b bs =>
      obtain ⟨rfl, htail⟩ := cons_prefix_cons.mp hpre
      have hno : slipFrameEnd ∉ bs := fun hin => end_not_mem_escape pack (htail.subset hin)
      have hle := htail.length_le
      rw [foldl_cons, feed, if_pos rfl, foldl_feed_held hno, nil_append]
      change bs.length < slipMtuMax
      omega

lemma held_lt (hne : ∀ pack ∈ packets, pack ≠ [])
    (hsize : ∀ pack ∈ packets, (frame pack).length ≤ slipMtuMax)
    (hpre : bs <+: packets.flatMap frame) (queue : List (List Byte)) :
    (bs.foldl feed ([], queue)).1.length < slipMtuMax := by
  induction packets generalizing bs queue with
  | nil =>
    rw [flatMap_nil, prefix_nil] at hpre
    subst hpre
    exact Nat.zero_lt_succ _
  | cons pack packets ih =>
    have hmore : ∀ more, bs = frame pack ++ more →
        (bs.foldl feed ([], queue)).1.length < slipMtuMax := by
      rintro more rfl
      rw [flatMap_cons, prefix_append_right_inj] at hpre
      rw [foldl_append, foldl_feed_frame (hne pack mem_cons_self)]
      exact ih (fun p hp => hne p (mem_cons_of_mem _ hp))
        (fun p hp => hsize p (mem_cons_of_mem _ hp)) hpre _
    rw [flatMap_cons] at hpre
    rcases prefix_or_prefix_of_prefix hpre (prefix_append _ _) with hin | ⟨more, hout⟩
    · by_cases hwhole : bs = frame pack
      · exact hmore [] (by rw [append_nil, hwhole])
      · exact held_lt_of_frame (hsize pack mem_cons_self) hin hwhole queue
    · exact hmore more hout.symm

lemma foldl_feed_queue (bs : List Byte) (s : Line) : s.2 <+: (bs.foldl feed s).2 := by
  induction bs generalizing s with
  | nil => exact prefix_rfl
  | cons b bs ih =>
    refine List.IsPrefix.trans ?_ (ih (feed s b))
    unfold feed
    split_ifs
    · exact prefix_rfl
    · exact prefix_append _ _
    · exact prefix_rfl

/-- The frames of packets, delivered in any division into reads, give back the packets. -/
theorem slip_round_trip (sender : Device) {packets : List (List Byte)}
    (hne : ∀ pack ∈ packets, pack ≠ [])
    (hsize : ∀ pack ∈ packets, (encodedFrame sender pack).length ≤ slipMtuMax)
    {answers : List (Option (List Byte))} {d : Device} (hrun : Run ReadStep slipIfInit answers d) :
    (answers.flatMap (·.getD []) = packets.flatMap (encodedFrame sender) → d.rxQueue = packets) ∧
    (answers.flatMap (·.getD []) <+: packets.flatMap (encodedFrame sender) →
      d.rxWrite < slipMtuMax ∧ d.rxQueue <+: packets) := by
  have hframe : encodedFrame sender = frame := funext (encodedFrame_eq sender)
  rw [hframe] at hsize ⊢
  obtain ⟨held, hrep, hline⟩ := represents_run hrun
  refine ⟨fun hall => ?_, fun hpre => ⟨?_, ?_⟩⟩
  · rw [hall, foldl_feed_frames hne] at hline
    exact congrArg Prod.snd hline
  · rw [hrep.rxWrite, length_nil, Nat.add_zero]
    have hheld := congrArg Prod.fst hline
    dsimp only at hheld
    rw [hheld]
    exact held_lt hne hsize hpre []
  · obtain ⟨more, hmore⟩ := hpre
    have hall := foldl_feed_frames hne []
    rw [← hmore, foldl_append, ← hline, nil_append] at hall
    have hgrow := foldl_feed_queue more (held, d.rxQueue)
    rw [hall] at hgrow
    exact hgrow

theorem slip_round_trip_split : ∃ d, Run ReadStep slipIfInit
    [some [0xC0, 0xDB], none, some [0xDC, 1, 0xC0, 0xC0], some [0xDB, 0xDD, 0xC0]] d ∧
    d.rxQueue = [[0xC0, 1], [0xDB]] := by
  have hrun : Run ReadStep slipIfInit
      [some [0xC0, 0xDB], none, some [0xDC, 1, 0xC0, 0xC0], some [0xDB, 0xDD, 0xC0]] _ :=
    .snoc (.snoc (.snoc (.one ⟨by decide, rfl⟩) ⟨by decide, rfl⟩) ⟨by decide +kernel, rfl⟩)
      ⟨by decide +kernel, rfl⟩
  exact ⟨_, hrun, (slip_round_trip slipIfInit (by decide) (by decide +kernel) hrun).1
    (by decide +kernel)⟩

lemma splitOn_cons (b : Byte) (bs : List Byte) : (b :: bs).splitOn slipFrameEnd =
    if b = slipFrameEnd then [] :: bs.splitOn slipFrameEnd
    else (bs.splitOn slipFrameEnd).modifyHead (b :: ·) := by
  rw [splitOn, splitOnP_cons_eq_if_modifyHead]
  simp [splitOn]

/-- An END byte closes the bytes held, which make a packet unless there are none. -/
lemma foldl_feed_splitOn (bs held : List Byte) (queue : List (List Byte)) :
    bs.foldl feed (held, queue) = (((bs.splitOn slipFrameEnd).modifyHead (held ++ ·)).getLastD [],
        queue ++ ((((bs.splitOn slipFrameEnd).modifyHead (held ++ ·)).dropLast.filter
          (· ≠ [])).map decodeBytes)) := by
  induction bs generalizing held queue with
  | nil => simp [splitOn, splitOnP_nil]
  | cons b bs ih =>
    obtain ⟨piece, pieces, hpieces⟩ := exists_cons_of_ne_nil (splitOnP_ne_nil (· == slipFrameEnd) bs)
    change bs.splitOn slipFrameEnd = _ at hpieces
    rw [foldl_cons, feed, splitOn_cons]
    by_cases hend : b = slipFrameEnd
    · rw [if_pos hend, if_pos hend, ih, hpieces]
      by_cases hnil : held = []
      · simp [hnil]
      · simp [hnil]
    · rw [if_neg hend, if_neg hend, ih, hpieces]
      simp

/-- The buffer has room for the next byte exactly as long as fewer bytes than it has places came
since the last END byte. What stood before an END byte has been decoded. -/
theorem slip_reception {answers : List (Option (List Byte))} {d : Device}
    (hrun : Run ReadStep slipIfInit answers d) {stream : List Byte}
    (hstream : answers.flatMap (·.getD []) = stream) : d.rxRead ≤ d.rxWrite ∧
    (d.rxWrite < slipMtuMax ↔
      ((stream.splitOn slipFrameEnd).getLastD []).length < slipMtuMax) ∧
    d.rxQueue = (((stream.splitOn slipFrameEnd).dropLast.filter (· ≠ [])).map decodeBytes) ∧
    ∀ pack, decodeBytes (escape pack) = pack := by
  obtain ⟨held, hrep, hline⟩ := represents_run hrun
  have hid : (stream.splitOn slipFrameEnd).modifyHead ([] ++ ·) = stream.splitOn slipFrameEnd := by
    cases stream.splitOn slipFrameEnd <;> rfl
  rw [hstream, foldl_feed_splitOn, hid, Prod.mk.injEq, nil_append] at hline
  obtain ⟨hheld, hqueue⟩ := hline
  have hwrite := hrep.rxWrite
  rw [length_nil, Nat.add_zero] at hwrite
  refine ⟨?_, ?_, hqueue, decodeBytes_escape⟩
  · rw [hrep.rxRead, hwrite]
  · rw [hwrite, hheld]

theorem slip_reception_noise : ∃ d, Run ReadStep slipIfInit
    [some [7, 0xC0, 0xDB], some [0xDC, 1, 0xC0, 0xC0, 9]] d ∧ d.rxWrite < slipMtuMax ∧
    d.rxQueue = [[7], [0xC0, 1]] := by
  have hrun : Run ReadStep slipIfInit [some [7, 0xC0, 0xDB], some [0xDC, 1, 0xC0, 0xC0, 9]] _ :=
    .snoc (.one ⟨by decide, rfl⟩) ⟨by decide +kernel, rfl⟩
  obtain ⟨-, hroom, hqueue, -⟩ := slip_reception hrun rfl
  exact ⟨_, hrun, hroom.mpr (by decide +kernel), hqueue.trans (by decide +kernel)⟩

theorem slip_reception_jams : ∃ d, Run ReadStep slipIfInit [some (List.replicate 1500 1)] d ∧
    ¬ d.rxWrite < slipMtuMax ∧ ∀ answer d', ReadStep d answer d' → answer.getD [] = [] := by
  have hrun : Run ReadStep slipIfInit [some (List.replicate 1500 1)] _ :=
    .one ⟨by rw [Option.getD_some, length_replicate]; exact le_rfl, rfl⟩
  obtain ⟨held, hrep, hline⟩ := represents_run hrun
  rw [flatMap_singleton, Option.getD_some,
    foldl_feed_held (fun h => absurd (eq_of_mem_replicate h) (by decide)), Prod.mk.injEq] at hline
  have hfull := hrep.rxWrite
  rw [hline.1, nil_append, length_replicate] at hfull
  refine ⟨_, hrun, Nat.not_lt.mpr (le_of_eq hfull.symm), fun answer d' hstep => ?_⟩
  have hroom := hstep.1
  rw [hfull] at hroom
  exact length_eq_zero_iff.mp (Nat.le_zero.mp hroom)

end Gloworm.Slip
