import Gloworm.RingBufferContents
import Gloworm.TransitionRuns

/-! The byte operations of a ring as a bounded first-in first-out queue, and its two bulk transfers
compared with single bytes. -/
namespace Gloworm.RingBuffer
open List Function CircularCells Word Transition
variable {α : Type}

structure Traffic (α : Type) where
  ring : Ring α
  accepted : List α
  removed : List α

inductive Op (α : Type)
  | putChar (ch : α)
  | getChar
  | put (data : List α)
  | get (size : ℕ)
  | drop (size : ℕ)

def Permitted : Op α → Prop
  | .put data => data.length < 32768
  | .get size => size < 32768
  | .drop size => size < 32768
  | _ => True

def perform (s : Traffic α) : Op α → Traffic α
  | .putChar ch =>
    let res := bufPutChar s.ring ch
    { s with ring := res.1, accepted := s.accepted ++ res.2.toList }
  | .getChar =>
    let res := bufGetChar s.ring
    { s with ring := res.1, removed := s.removed ++ res.2.toList }
  | .put data =>
    let res := bufPut s.ring data data.length
    { s with ring := res.1, accepted := s.accepted ++ data.take res.2 }
  | .get size =>
    let res := bufGet s.ring size
    { s with ring := res.1, removed := s.removed ++ res.2 }
  | .drop size =>
    { s with
      ring := bufDrop s.ring size
      removed := s.removed ++ s.ring.contents.take (bufDropCount s.ring size).toNat }

def Step (s : Traffic α) (op : Op α) (t : Traffic α) : Prop := Permitted op ∧ perform s op = t

def DropFits (s : Traffic α) : Op α → Prop
  | .drop size => s.ring.outPos + min (size : ℤ) (bufUsedSpace s.ring) < 32768
  | _ => True

instance (s : Traffic α) (op : Op α) : Decidable (DropFits s op) :=
  match op with
  | .drop _ | .putChar _ | .getChar | .put _ | .get _ => by dsimp only [DropFits]; infer_instance

namespace Ring.Ok
variable {r : Ring α}

section
variable (h : r.Ok)
include h

lemma bufNextOut_eq : bufNextOut r = wrap r.max (r.outPos + (1 : ℕ)) := by
  obtain ⟨h1, h2, h3, h4, h5⟩ := h
  rw [bufNextOut, toShort_of_mem (by omega) (by omega)]
  unfold wrap
  push_cast
  split_ifs <;> omega

lemma isFull_iff : bufIsFull r ↔ r.used = r.max - 1 := by
  obtain ⟨h1, h2, h3, h4, h5⟩ := h
  unfold bufIsFull bufNextIn Ring.used
  split_ifs <;> omega

lemma contents_cons (hne : r.outPos ≠ r.inPos) :
    r.contents = r.buffer r.outPos :: r.contents.drop 1 := by
  have hnn := h.used_nonneg
  have hzero : r.used ≠ 0 := fun hz => hne (h.used_eq_zero.mp hz).symm
  have hload := h.take_eq_load (n := 1) (by push_cast; omega) (by have := h.out_lt; push_cast; omega)
  have hone : load r.buffer r.outPos 1 = [r.buffer r.outPos] := by simp [load]
  rw [hone] at hload
  calc r.contents = r.contents.take 1 ++ r.contents.drop 1 := (take_append_drop 1 _).symm
    _ = r.buffer r.outPos :: r.contents.drop 1 := by rw [← hload, singleton_append]

lemma advance_out (hne : r.outPos ≠ r.inPos) : ({ r with outPos := bufNextOut r } : Ring α).Ok ∧
    ({ r with outPos := bufNextOut r } : Ring α).contents = r.contents.drop 1 := by
  have hnn := h.used_nonneg
  have hzero : r.used ≠ 0 := fun hz => hne (h.used_eq_zero.mp hz).symm
  obtain ⟨ok, cont, _⟩ := h.drop (n := 1) (by push_cast; omega) h.bufNextOut_eq
  exact ⟨ok, cont⟩

lemma getLoop_spec (n : ℕ) :
    (getLoop n r).1.Ok ∧ (getLoop n r).1.max = r.max ∧ (getLoop n r).2 = r.contents.take n ∧
      (getLoop n r).1.contents = r.contents.drop n := by
  induction n generalizing r with
  | zero => exact ⟨h, rfl, by simp [getLoop], by simp [getLoop]⟩
  | succ n ih =>
    by_cases hempty : r.outPos = r.inPos
    · have hnil : r.contents = [] := h.contents_eq_nil.mpr hempty.symm
      have hstop : getLoop (n + 1) r = (r, []) := if_pos hempty
      rw [hstop]
      exact ⟨h, rfl, by simp [hnil], by simp [hnil]⟩
    · obtain ⟨ok, cont⟩ := h.advance_out hempty
      obtain ⟨iok, imax, iread, ileft⟩ := ih ok
      have hgo : getLoop (n + 1) r = ((getLoop n { r with outPos := bufNextOut r }).1,
          r.buffer r.outPos :: (getLoop n { r with outPos := bufNextOut r }).2) := if_neg hempty
      rw [hgo]
      refine ⟨iok, imax, ?_, ?_⟩
      · rw [iread, cont, h.contents_cons hempty]
        simp
      · rw [ileft, cont, drop_drop, add_comm]

lemma bufDropCount_eq (size : ℤ) : bufDropCount r size = min size r.used := by
  rw [bufDropCount, h.bufUsedSpace_eq]
  split_ifs <;> omega

lemma bufDrop_eq (size : ℕ) : bufDrop r size = bufDrop r ((min (size : ℤ) r.used).toNat : ℕ) := by
  have hnn := h.used_nonneg
  have hcount : bufDropCount r ((min (size : ℤ) r.used).toNat : ℕ) = bufDropCount r size := by
    rw [h.bufDropCount_eq, h.bufDropCount_eq]
    omega
  simp only [bufDrop, hcount]

lemma bufDrop_outPos {n : ℕ} (hn : (n : ℤ) ≤ r.used) :
    (bufDrop r n).outPos = if r.max ≤ toShort (r.outPos + n)
      then toShort (toShort (r.outPos + n) - r.max) else toShort (r.outPos + n) := by
  simp only [bufDrop, h.bufDropCount_eq, min_eq_left hn]

lemma bufPutChar_spec (ch : α) : (bufPutChar r ch).1.Ok ∧ (bufPutChar r ch).1.max = r.max ∧
    (bufPutChar r ch).2 = (if 0 < bufFreeSpace r then some ch else none) ∧
    (bufPutChar r ch).1.contents = r.contents ++ (bufPutChar r ch).2.toList := by
  have hlt := h.used_lt
  have hfull := h.isFull_iff
  rw [bufIsFull] at hfull
  rw [h.bufFreeSpace_eq]
  by_cases hf : bufNextIn r = r.outPos
  · have hstop : bufPutChar r ch = (r, none) := if_pos hf
    rw [hstop, if_neg (by have := hfull.mp hf; omega)]
    exact ⟨h, rfl, rfl, by simp⟩
  · have hgo : bufPutChar r ch = ({ r with
        buffer := update r.buffer r.inPos ch, inPos := bufNextIn r }, some ch) := if_neg hf
    have hroom : r.used + 1 < r.max := by
      have hne : r.used ≠ r.max - 1 := fun he => hf (hfull.mpr he)
      omega
    obtain ⟨ok, cont, _⟩ := h.append [ch] (bufNextIn r) hroom
      (by simpa using h.in_lt) (by simp [bufNextIn])
    rw [store_singleton] at ok cont
    rw [hgo, if_pos (by omega)]
    exact ⟨ok, rfl, rfl, cont⟩

lemma bufPut_count (data : List α) :
    ((bufPut r data data.length).2 : ℤ) = min (data.length : ℤ) (bufFreeSpace r) := by
  have hcount := (h.putLoop_spec data).2.2.1
  rw [bufPut, Int.toNat_natCast, take_length, hcount, h.bufFreeSpace_eq]
end
end Ring.Ok

structure Fifo (max : ℤ) (s : Traffic α) : Prop where
  ok : s.ring.Ok
  max_eq : s.ring.max = max
  order : s.removed ++ s.ring.contents = s.accepted

namespace Fifo
variable {max : ℤ} {s : Traffic α}

lemma step (h : Fifo max s) {op : Op α} {t : Traffic α}
    (hstep : Guarded DropFits Step s op t) : Fifo max t := by
  obtain ⟨hfits, _, rfl⟩ := hstep
  obtain ⟨hok, hmax, horder⟩ := h
  cases op with
  | putChar ch =>
    obtain ⟨ok, kmax, _, cont⟩ := hok.bufPutChar_spec ch
    refine ⟨ok, kmax.trans hmax, ?_⟩
    simp only [perform, cont, ← horder, append_assoc]
  | getChar =>
    by_cases hempty : s.ring.outPos = s.ring.inPos
    · have hstop : bufGetChar s.ring = (s.ring, none) := if_pos hempty
      simp only [perform, hstop, Option.toList_none, append_nil]
      exact ⟨hok, hmax, horder⟩
    · have hgo : bufGetChar s.ring = ({ s.ring with outPos := bufNextOut s.ring },
          some (s.ring.buffer s.ring.outPos)) := if_neg hempty
      obtain ⟨ok, cont⟩ := hok.advance_out hempty
      simp only [perform, hgo]
      refine ⟨ok, hmax, ?_⟩
      rw [cont, Option.toList_some, append_assoc, singleton_append, ← hok.contents_cons hempty]
      exact horder
  | put data =>
    have htake : data.take ((data.length : ℕ) : ℤ).toNat = data := by
      rw [Int.toNat_natCast, take_length]
    obtain ⟨ok, kmax, _, cont⟩ := hok.putLoop_spec data
    simp only [perform, bufPut, htake]
    refine ⟨ok, kmax.trans hmax, ?_⟩
    rw [cont, ← horder, append_assoc]
  | get size =>
    obtain ⟨ok, kmax, read, left⟩ := hok.getLoop_spec size
    simp only [perform, bufGet, Int.toNat_natCast]
    refine ⟨ok, kmax.trans hmax, ?_⟩
    rw [read, left, append_assoc, take_append_drop]
    exact horder
  | drop size =>
    have hnn := hok.used_nonneg
    have hfits' : s.ring.outPos + min (size : ℤ) (bufUsedSpace s.ring) < 32768 := hfits
    rw [hok.bufUsedSpace_eq] at hfits'
    obtain ⟨ok, kmax, cont, _⟩ := hok.bufDrop_spec (n := (min (size : ℤ) s.ring.used).toNat)
      (by omega) (by omega)
    rw [← hok.bufDrop_eq size] at ok kmax cont
    simp only [perform, hok.bufDropCount_eq]
    refine ⟨ok, kmax.trans hmax, ?_⟩
    rw [cont, append_assoc, take_append_drop]
    exact horder
end Fifo

lemma fifo_init {totalSize : ℤ} {mem : ℤ → α} (hcap : 2 ≤ (bufInit totalSize mem).max) :
    Fifo (bufInit totalSize mem).max ⟨bufInit totalSize mem, [], []⟩ := by
  have hmax : (bufInit totalSize mem).max ≤ 32767 := by
    rw [bufInit]
    simp only
    split_ifs
    · have := toShort_le (totalSize - 6)
      omega
    · decide
  refine ⟨⟨le_rfl, ?_, le_rfl, ?_, hmax⟩, rfl, ?_⟩
  · exact (by decide : (0 : ℤ) < 2).trans_le hcap
  · exact (by decide : (0 : ℤ) < 2).trans_le hcap
  · simp [Ring.contents, Ring.used, bufInit]

/-- In every history of byte operations whose drops compute a position that fits a `short`, the ring
is a bounded queue. -/
theorem ring_refines_fifo {totalSize : ℤ} {mem : ℤ → α}
    (hcap : 2 ≤ (bufInit totalSize mem).max) {ops : List (Op α)} {s : Traffic α}
    (hrun : Run (Guarded DropFits Step) ⟨bufInit totalSize mem, [], []⟩ ops s) :
    s.ring.max = (bufInit totalSize mem).max ∧ (0 ≤ s.ring.inPos ∧ s.ring.inPos < s.ring.max) ∧
    (0 ≤ s.ring.outPos ∧ s.ring.outPos < s.ring.max) ∧
    bufUsedSpace s.ring + bufFreeSpace s.ring = s.ring.max - 1 ∧
    (bufIsEmpty s.ring ↔ bufUsedSpace s.ring = 0) ∧
    (bufIsFull s.ring ↔ bufUsedSpace s.ring = s.ring.max - 1) ∧
    (s.removed ++ s.ring.contents = s.accepted ∧
      (s.ring.contents.length : ℤ) = bufUsedSpace s.ring) ∧ (∀ data : List α, data.length < 32768 →
      ((bufPut s.ring data data.length).2 : ℤ) = min (data.length : ℤ) (bufFreeSpace s.ring)) ∧
    ∀ ch, (bufPutChar s.ring ch).2 = if 0 < bufFreeSpace s.ring then some ch else none := by
  obtain ⟨hok, hmax, horder⟩ : Fifo (bufInit totalSize mem).max s :=
    hrun.preserves (fifo_init hcap) fun _ _ _ h hstep => h.step hstep
  have hused := hok.bufUsedSpace_eq
  refine ⟨hmax, ⟨hok.in_nonneg, hok.in_lt⟩, ⟨hok.out_nonneg, hok.out_lt⟩, ?_, ?_, ?_, ⟨horder, ?_⟩,
    fun data _ => hok.bufPut_count data, fun ch => (hok.bufPutChar_spec ch).2.2.1⟩
  · rw [hused, hok.bufFreeSpace_eq]
    omega
  · rw [hused, hok.used_eq_zero]
  · rw [hused, hok.isFull_iff]
  · rw [hused, hok.length_contents]

lemma putLoop_outPos (data : List α) (r : Ring α) : (putLoop data r).1.outPos = r.outPos := by
  induction data generalizing r with
  | nil => rfl
  | cons d data ih =>
    by_cases hfull : bufNextIn r = r.outPos
    · rw [putLoop_full hfull]
    · rw [putLoop_more hfull, ih]

lemma run_foldl (ops : List (Op α)) (s : Traffic α) (h : ∀ op ∈ ops, Permitted op) :
    Run Step s ops (ops.foldl perform s) := by
  induction ops generalizing s with
  | nil => exact .nil s
  | cons op ops ih =>
    exact (Run.one (e := op) ⟨h op (by simp), rfl⟩).trans
      (ih (perform s op) fun op' hop => h op' (by simp [hop]))

def fillAndDrop (n : ℕ) : List (Op ℕ) := [.put (List.replicate n 0), .drop n]

lemma fillAndDrop_ring {s : Traffic ℕ} (h : s.ring.Ok) (hempty : s.ring.used = 0) {n : ℕ}
    (hn : (n : ℤ) ≤ s.ring.max - 1) : ((fillAndDrop n).foldl perform s).ring.max = s.ring.max ∧
    ((fillAndDrop n).foldl perform s).ring.outPos = (if s.ring.max ≤ toShort (s.ring.outPos + n)
        then toShort (toShort (s.ring.outPos + n) - s.ring.max)
        else toShort (s.ring.outPos + n)) ∧
    (s.ring.outPos + n < 32768 → ((fillAndDrop n).foldl perform s).ring.Ok ∧
      ((fillAndDrop n).foldl perform s).ring.used = 0) := by
  obtain ⟨ok, kmax, count, cont⟩ := h.putLoop_spec (List.replicate n 0)
  have hout := putLoop_outPos (List.replicate n 0) s.ring
  have hlen := h.length_contents
  have hused : (putLoop (List.replicate n 0) s.ring).1.used = n := by
    rw [← ok.length_contents, cont, length_append, length_take]
    rw [length_replicate] at count ⊢
    omega
  have hring : ((fillAndDrop n).foldl perform s).ring =
      bufDrop (putLoop (List.replicate n 0) s.ring).1 n := by
    rw [fillAndDrop, foldl_cons, foldl_cons, foldl_nil, perform, perform, bufPut,
      Int.toNat_natCast, take_length]
  rw [hring]
  refine ⟨kmax, ?_, fun hfit => ?_⟩
  · rw [ok.bufDrop_outPos hused.ge, hout, kmax]
  · obtain ⟨ok', _, cont', _⟩ := ok.bufDrop_spec (n := n) hused.ge (by rw [hout]; exact hfit)
    refine ⟨ok', ?_⟩
    have hlen' := ok.length_contents
    rw [← ok'.length_contents, cont', length_drop]
    omega

/-- The sum of two shorts overflows. -/
theorem drop_overflows : ∃ s, Run Step ⟨bufInit 32767 fun _ => (0 : ℕ), [], []⟩
    (fillAndDrop 32000 ++ fillAndDrop 1500) s ∧ s.ring.outPos < 0 := by
  have hinit := (bufInit_ok (by decide : (6 : ℤ) < 32767) (by decide) fun _ => (0 : ℕ)).1
  have hmax : (bufInit 32767 fun _ => (0 : ℕ)).max = 32761 := by
    rw [bufInit, if_pos (by decide)]
    exact toShort_of_mem (by decide) (by decide)
  have hpermitted : ∀ n < 32768, ∀ op ∈ fillAndDrop n, Permitted op := by
    intro n hn op hop
    rcases mem_cons.mp hop with rfl | hop
    · rw [Permitted, length_replicate]
      exact hn
    · obtain rfl := mem_singleton.mp hop
      exact hn
  obtain ⟨max1, out1, next1⟩ := fillAndDrop_ring
    (s := ⟨bufInit 32767 fun _ => 0, [], []⟩) hinit rfl (n := 32000) (by rw [hmax]; norm_num)
  obtain ⟨ok1, used1⟩ := next1 (by simp only [bufInit]; norm_num)
  have hout1 : ((fillAndDrop 32000).foldl perform
      ⟨bufInit 32767 fun _ => 0, [], []⟩).ring.outPos = 32000 := by
    rw [out1, hmax]
    decide +kernel
  simp only [hmax] at max1
  obtain ⟨_, out2, _⟩ := fillAndDrop_ring ok1 used1 (n := 1500) (by rw [max1]; norm_num)
  rw [max1, hout1] at out2
  refine ⟨_, (run_foldl _ _ (hpermitted 32000 (by decide))).trans
    (run_foldl _ _ (hpermitted 1500 (by decide))), ?_⟩
  rw [out2]
  decide +kernel

theorem ring_refines_fifo_wrapped : ∃ s, Run (Guarded DropFits Step)
    ⟨bufInit 12 fun _ => (0 : ℕ), [], []⟩
    [.put [1, 2, 3, 4, 5], .get 4, .putChar 6, .put [7, 8], .drop 1] s ∧
    s.removed ++ s.ring.contents = s.accepted := by
  have hcap : (2 : ℤ) ≤ (bufInit 12 fun _ => (0 : ℕ)).max := by decide +kernel
  have hfits : DropFits (perform (perform (perform (perform ⟨bufInit 12 fun _ => (0 : ℕ), [], []⟩
      (.put [1, 2, 3, 4, 5])) (.get 4)) (.putChar 6)) (.put [7, 8])) (.drop 1) := by
    decide +kernel
  have hrun : Run (Guarded DropFits Step) ⟨bufInit 12 fun _ => (0 : ℕ), [], []⟩
      [.put [1, 2, 3, 4, 5], .get 4, .putChar 6, .put [7, 8], .drop 1] _ :=
    ((((Run.one ⟨trivial, by simp [Permitted], rfl⟩).trans
      (Run.one ⟨trivial, by simp [Permitted], rfl⟩)).trans
      (Run.one ⟨trivial, trivial, rfl⟩)).trans
      (Run.one ⟨trivial, by simp [Permitted], rfl⟩)).trans
      (Run.one ⟨hfits, by simp [Permitted], rfl⟩)
  exact ⟨_, hrun, (ring_refines_fifo hcap hrun).2.2.2.2.2.2.1.1⟩

/-- The indices that are read: what is stored from cells that hold their own index. -/
def peekIndices (r : Ring α) (offset size : ℤ) : List ℤ :=
  bufPeek ⟨r.max, r.inPos, r.outPos, id⟩ offset size

def PeekRight (r : Ring α) (offset size : ℤ) : Prop :=
  ((bufPeek r offset size).length : ℤ) = min size (bufUsedSpace r - offset) ∧
  bufPeek r offset size = (bufGet (bufDrop r offset) size).2 ∧
  ∀ i ∈ peekIndices r offset size, 0 ≤ i ∧ i < r.max

lemma contents_indices {r : Ring ℤ} (h : r.Ok) (hid : r.buffer = id) :
    ∀ i ∈ r.contents, 0 ≤ i ∧ i < r.max := by
  intro i hi
  obtain ⟨k, hk, rfl⟩ := mem_map.mp hi
  have hlt := h.used_lt
  have hpos := h.out_nonneg
  have hout := h.out_lt
  have hin := mem_range.mp hk
  rw [hid, id]
  exact ⟨wrap_nonneg (by omega), wrap_lt (by omega)⟩

/-- The first index is wrong when it is the bound itself, and when it does not fit a `short`. -/
lemma first_index {r : Ring α} (h : r.Ok) {k n : ℕ} (hk : (k : ℤ) ≤ r.used)
    (hbad : 32768 ≤ r.outPos + k ∨ r.outPos + k = r.max) :
    ∃ i ∈ peekIndices r k (n + 1 : ℕ), i < 0 ∨ i = r.max := by
  have hlt := h.used_lt
  have hj : ∃ j, (if r.max < toShort (r.outPos + k) then toShort (toShort (r.outPos + k) - r.max)
      else toShort (r.outPos + k)) = j ∧ (j < 0 ∨ j = r.max) := by
    obtain ⟨h1, h2, h3, h4, h5⟩ := h
    refine ⟨_, rfl, ?_⟩
    unfold toShort
    split_ifs <;> omega
  obtain ⟨j, hj, hout⟩ := hj
  have hne : j ≠ r.inPos := by
    have h1 := h.in_nonneg
    have h2 := h.in_lt
    omega
  have hspace : bufUsedSpace (⟨r.max, r.inPos, r.outPos, id⟩ : Ring ℤ) = r.used := h.bufUsedSpace_eq
  refine ⟨j, ?_, hout⟩
  simp only [peekIndices, bufPeek, hspace, if_neg (not_lt.mpr hk), hj, Int.toNat_natCast, peekLoop,
    if_neg hne]
  exact mem_cons_self

/-- The start of a peek must not be the end of the buffer. -/
theorem peek_right_iff {r : Ring α} (h : r.Ok) {offset size : ℤ} (hoffset : 0 ≤ offset)
    (hused : offset ≤ bufUsedSpace r) (hsize : 0 ≤ size) : PeekRight r offset size ↔
      size = 0 ∨ r.outPos + offset < 32768 ∧ r.outPos + offset ≠ r.max := by
  obtain ⟨k, rfl⟩ := Int.eq_ofNat_of_zero_le hoffset
  obtain ⟨n, rfl⟩ := Int.eq_ofNat_of_zero_le hsize
  rw [h.bufUsedSpace_eq] at hused
  constructor
  · rintro ⟨-, -, hinside⟩
    by_contra! hno
    obtain ⟨m, rfl⟩ : ∃ m, n = m + 1 := ⟨n - 1, by omega⟩
    obtain ⟨i, hi, hout⟩ := first_index h (n := m) hused (by omega)
    have := hinside i hi
    omega
  · rintro (hzero | ⟨hshort, hbound⟩)
    · obtain rfl : n = 0 := by omega
      refine ⟨?_, rfl, nofun⟩
      rw [h.bufUsedSpace_eq, min_eq_left (by omega)]
      rfl
    · have hid : (⟨r.max, r.inPos, r.outPos, id⟩ : Ring ℤ).Ok := ⟨h.1, h.2, h.3, h.4, h.5⟩
      obtain ⟨ok, -, cont, -⟩ := h.bufDrop_spec hused hshort
      refine ⟨?_, ?_, fun i hi => contents_indices hid rfl i ?_⟩
      · have hlen := h.length_contents
        rw [h.bufPeek_spec hused hshort hbound, length_take, length_drop, h.bufUsedSpace_eq]
        omega
      · rw [h.bufPeek_spec hused hshort hbound, bufGet, Int.toNat_natCast, (ok.getLoop_spec n).2.2.1,
          cont]
      · rw [peekIndices, hid.bufPeek_spec hused hshort hbound] at hi
        exact mem_of_mem_drop (mem_of_mem_take hi)

theorem peek_right_wrapped : bufPeek ⟨4, 1, 3, fun i => i⟩ 0 5 = [3, 0] ∧
    PeekRight ⟨4, 1, 3, fun i => i⟩ 0 5 :=
  ⟨by decide +kernel, (peek_right_iff ⟨by decide, by decide, by decide, by decide, by decide⟩
    (by decide) (by decide +kernel) (by decide)).mpr (.inr ⟨by decide, by decide⟩)⟩

/-- A peek that starts at the end reads behind it. -/
theorem peek_reads_bound : ¬ PeekRight ⟨4, 1, 3, fun i => i⟩ 1 1 ∧
    bufPeek ⟨4, 1, 3, fun i => i⟩ 1 1 = [4] ∧
    (bufGet (bufDrop ⟨4, 1, 3, fun i => i⟩ 1) 1).2 = [0] := by
  have hread : bufPeek ⟨4, 1, 3, fun i => i⟩ 1 1 = [4] := by decide +kernel
  have hdropped : (bufGet (bufDrop ⟨4, 1, 3, fun i => i⟩ 1) 1).2 = [0] := by decide +kernel
  refine ⟨fun hright => ?_, hread, hdropped⟩
  have hsame := hright.2.1
  rw [hread, hdropped] at hsame
  cases hsame

variable {r : Ring α} {data : List α}

def putChars (r : Ring α) (data : List α) : Ring α := data.foldl (fun r ch => (bufPutChar r ch).1) r

def getChars : ℕ → Ring α → Ring α × List α
  | 0, r => (r, [])
  | n + 1, r =>
    let first := bufGetChar r
    let rest := getChars n first.1
    (rest.1, first.2.toList ++ rest.2)

structure PutAgrees (r : Ring α) (data : List α) : Prop where
  count : (bufPutIter r data).2 = min (data.length : ℤ) (bufFreeSpace r)
  contents : (bufPutIter r data).1.contents =
    (putChars r (data.take (bufFreeSpace r).toNat)).contents

structure GetAgrees (r : Ring α) (size : ℕ) : Prop where
  count : ((bufGetIter r size).2.length : ℤ) = min (size : ℤ) (bufUsedSpace r)
  bytes : (bufGetIter r size).2 = (getChars (min size (bufUsedSpace r).toNat) r).2
  contents : (bufGetIter r size).1.contents =
    (getChars (min size (bufUsedSpace r).toNat) r).1.contents

lemma putChars_contents (h : r.Ok) (hroom : (data.length : ℤ) ≤ r.max - 1 - r.used) :
    (putChars r data).contents = r.contents ++ data := by
  induction data generalizing r with
  | nil => simp [putChars]
  | cons ch data ih =>
    rw [length_cons] at hroom
    obtain ⟨hok, hmax, hanswer, hcontents⟩ := h.bufPutChar_spec ch
    rw [h.bufFreeSpace_eq, if_pos (by omega)] at hanswer
    rw [hanswer] at hcontents
    have hlength := congrArg (fun l => (l.length : ℤ)) hcontents
    simp only [length_append, Option.toList_some, length_singleton, Nat.cast_add,
      hok.length_contents, h.length_contents] at hlength
    have hrest := ih hok (by push_cast at hroom hlength ⊢; omega)
    rw [putChars, foldl_cons]
    exact hrest.trans (by simp [hcontents])

lemma getChars_eq (n : ℕ) (r : Ring α) : getChars n r = getLoop n r := by
  induction n generalizing r with
  | zero => rfl
  | succ n ih =>
    by_cases hempty : r.outPos = r.inPos
    · have hstay : bufGetChar r = (r, none) := if_pos hempty
      have hnone : ∀ m, getLoop m r = (r, []) := by
        intro m
        cases m with
        | zero => rfl
        | succ m => exact if_pos hempty
      simp only [getChars, hstay, ih, hnone, Option.toList_none, nil_append]
    · have hone : bufGetChar r = ({ r with outPos := bufNextOut r }, some (r.buffer r.outPos)) :=
        if_neg hempty
      have hstep : getLoop (n + 1) r = ((getLoop n { r with outPos := bufNextOut r }).1,
          r.buffer r.outPos :: (getLoop n { r with outPos := bufNextOut r }).2) := if_neg hempty
      simp only [getChars, hone, ih, hstep, Option.toList_some, singleton_append]

/-- Bytes for which there is no room do not matter, except when they would bring the position of a
ring that starts at its first cell back to that cell. -/
lemma bufPutIter_take (h : r.Ok) (hlong : r.max - 1 - r.used < data.length)
    (hbad : ¬(r.outPos = 0 ∧ (data.length : ℤ) = r.max - r.inPos)) (hsize : data.length < 2 ^ 32) :
    bufPutIter r data = bufPutIter r (data.take (r.max - 1 - r.used).toNat) := by
  obtain ⟨h1, h2, h3, h4, h5⟩ := id h
  have hlt := h.used_lt
  have hshort : ((data.take (r.max - 1 - r.used).toNat).length : ℤ) = r.max - 1 - r.used := by
    rw [length_take]
    omega
  generalize hn : (r.max - 1 - r.used).toNat = n at *
  have hroom : 0 ≤ firstRoom r ∧ firstRoom r ≤ n := by
    unfold firstRoom
    unfold Ring.used at hn
    split_ifs at hn ⊢ <;> omega
  have hused : r.used = if r.outPos ≤ r.inPos then r.inPos - r.outPos
    else r.max - r.outPos + r.inPos := rfl
  rw [bufPutIter_eq, bufPutIter_eq, firstPut_eq h hsize hbad,
    firstPut_eq h (by omega) (by split_ifs at hused <;> omega), min_eq_right (by omega),
    min_eq_right (by omega)]
  have htake : (data.take n).take (firstRoom r).toNat = data.take (firstRoom r).toNat := by
    rw [take_take, min_eq_left (by omega)]
  simp only [putAfter, htake, toShort_of_mem (z := r.inPos + firstRoom r) (by omega)
    (by unfold firstRoom; split_ifs <;> omega)]
  by_cases hwrap : r.inPos < r.outPos ∨ r.outPos = 0
  · -- the first piece ends in front of `out`
    have hnext : (if r.max ≤ r.inPos + firstRoom r then 0 else r.inPos + firstRoom r) =
        r.inPos + firstRoom r := if_neg (by unfold firstRoom; split_ifs <;> omega)
    have hstop : r.inPos + firstRoom r + 1 = r.outPos ∨ r.inPos + firstRoom r + 1 = r.max := by
      unfold firstRoom
      split_ifs <;> omega
    rw [hnext, if_pos (.inr hstop), if_pos (.inr hstop)]
  · -- the second one starts at the first cell, and it ends there
    have hfirst : firstRoom r = r.max - r.inPos := by
      unfold firstRoom
      split_ifs <;> omega
    have hn' : (n : ℤ) - firstRoom r = r.outPos - 1 := by split_ifs at hused <;> omega
    have hnext : (if r.max ≤ r.inPos + firstRoom r then 0 else r.inPos + firstRoom r) = 0 :=
      if_pos (by omega)
    rw [hnext, toUnsigned_of_mem (by omega) (by omega), toUnsigned_of_mem (by omega) (by omega)]
    by_cases hone : r.outPos = 1
    · rw [if_pos (by omega), if_pos (by omega)]
    · rw [if_neg (by omega), if_neg (by omega), chunk_eq (by omega) (by omega),
        chunk_eq (by omega) (by omega), min_eq_left (by omega), min_eq_left (by omega), drop_take,
        take_take, min_eq_left (by omega)]

lemma putAgrees_of_fits (h : r.Ok) (hbad : ¬(r.outPos = 0 ∧ (data.length : ℤ) = r.max - r.inPos))
    (hsize : data.length < 2 ^ 32) : PutAgrees r data := by
  have hlt := h.used_lt
  have hfree := h.bufFreeSpace_eq
  rcases lt_or_ge (r.max - 1 - r.used) data.length with hlong | hroom
  · have hlength : ((data.take (r.max - 1 - r.used).toNat).length : ℤ) = r.max - 1 - r.used := by
      rw [length_take]
      omega
    obtain ⟨-, -, hcontents, hcount, -⟩ := h.bufPutIter_spec _ hlength.le
    rw [← bufPutIter_take h hlong hbad hsize] at hcontents hcount
    refine ⟨by omega, ?_⟩
    rw [hcontents, hfree, putChars_contents h hlength.le]
  · obtain ⟨-, -, hcontents, hcount, -⟩ := h.bufPutIter_spec data hroom
    refine ⟨by omega, ?_⟩
    rw [hcontents, hfree, take_of_length_le (by omega), putChars_contents h hroom]

lemma not_putAgrees (h : r.Ok) (hzero : r.outPos = 0)
    (hlength : (data.length : ℤ) = r.max - r.inPos) : ¬ PutAgrees r data := by
  obtain ⟨h1, h2, h3, h4, h5⟩ := id h
  have hfree := h.bufFreeSpace_eq
  have hused : r.used = r.inPos - r.outPos := if_pos (by omega)
  have hfirst : toShort (if toUnsigned (r.max - r.inPos) < data.length
      then r.max - r.inPos - (if r.outPos ≠ 0 then 0 else 1) else data.length) = data.length := by
    rw [toUnsigned_of_mem (by omega) (by omega), if_neg (by omega),
      toShort_of_mem (by omega) (by omega)]
  have hleft : toUnsigned ((data.length : ℤ) - data.length) = 0 := by
    rw [sub_self, toUnsigned_of_mem le_rfl (by omega), Int.toNat_zero]
  intro hagrees
  have hcount := hagrees.count
  simp only [bufPutIter, if_neg (by omega : ¬ r.inPos < r.outPos), hfirst, hleft, true_or,
    if_true] at hcount
  omega

lemma getAgrees_of_filled (h : r.Ok) {size : ℕ} (hne : ¬ bufIsEmpty r) (hsize : size < 2 ^ 32) :
    GetAgrees r size := by
  have hused := h.bufUsedSpace_eq
  have hlength := h.length_contents
  obtain ⟨-, -, hbytes, hcontents⟩ := h.bufGetIter_spec hne hsize
  obtain ⟨-, -, hbytes', hcontents'⟩ := h.getLoop_spec (min size (bufUsedSpace r).toNat)
  obtain ⟨htake, hdrop⟩ := Ring.Ok.take_drop_of_end (l := r.contents)
    (by omega : min size (bufUsedSpace r).toNat = size ∨
      r.contents.length ≤ min size (bufUsedSpace r).toNat ∧ min size (bufUsedSpace r).toNat ≤ size)
  refine ⟨?_, ?_, ?_⟩
  · rw [hbytes, length_take]
    omega
  · rw [hbytes, getChars_eq, hbytes', htake]
  · rw [hcontents, getChars_eq, hcontents', hdrop]

lemma getAgrees_empty_iff (h : r.Ok) {size : ℕ} (hempty : bufIsEmpty r) (hsize : size < 2 ^ 32) :
    GetAgrees r size ↔ size = 0 := by
  obtain ⟨h1, h2, h3, h4, h5⟩ := id h
  have hempty' : r.inPos = r.outPos := hempty
  have hzero : bufUsedSpace r = 0 := by
    rw [h.bufUsedSpace_eq]
    exact h.used_eq_zero.mpr hempty
  have hchunk : chunk (r.max - r.outPos) size = min (r.max - r.outPos) size :=
    chunk_eq (by omega) (by omega)
  constructor
  · intro hagrees
    have hcount := hagrees.count
    have hfirst : (min (r.max - r.outPos) size).toNat ≤ (bufGetIter r size).2.length := by
      simp only [bufGetIter, if_neg (by omega : ¬ r.outPos < r.inPos), hchunk]
      split_ifs <;> simp
    omega
  · rintro rfl
    have hfirst : min (r.max - r.outPos) ((0 : ℕ) : ℤ) = 0 := by omega
    have hget : bufGetIter r 0 = (r, []) := by
      have hout : (if r.max ≤ toShort (r.outPos + 0) then 0 else toShort (r.outPos + 0)) =
          r.outPos := by
        rw [toShort_of_mem (by omega) (by omega), if_neg (by omega), add_zero]
      simp only [bufGetIter, if_neg (by omega : ¬ r.outPos < r.inPos), hchunk, hfirst, hout]
      rw [if_pos (.inr hempty'.symm)]
      rfl
    exact ⟨by simp [hget, hzero], by simp [hget, getChars], by simp [hget, getChars]⟩

/-- The bulk transfers agree with the byte operations, except for a put that exactly fills a ring
with `out` 0 to its last cell, and for a get from an empty ring. -/
theorem bulk_transfers_agree_iff (h : r.Ok) : (∀ data : List α, data.length < 2 ^ 32 →
      (PutAgrees r data ↔ ¬(r.outPos = 0 ∧ (data.length : ℤ) = r.max - r.inPos))) ∧
    ∀ size < 2 ^ 32, (GetAgrees r size ↔ size = 0 ∨ ¬ bufIsEmpty r) := by
  refine ⟨fun data hsize => ⟨?_, fun hbad => putAgrees_of_fits h hbad hsize⟩, fun size hsize => ?_⟩
  · rintro hagrees ⟨hzero, hlength⟩
    exact not_putAgrees h hzero hlength hagrees
  · by_cases hempty : bufIsEmpty r
    · simp [getAgrees_empty_iff h hempty hsize, hempty]
    · simp [getAgrees_of_filled h hempty hsize, hempty]

def smallRing : Ring ℕ := ⟨4, 0, 0, fun _ => 0⟩

def wrappedRing : Ring ℕ := ⟨4, 1, 3, fun i => i.toNat⟩

theorem bulk_transfers_agree_wrapped : (bufGetIter wrappedRing 5).2 = [3, 0] ∧
    GetAgrees wrappedRing 5 ∧ PutAgrees wrappedRing [7] ∧ PutAgrees smallRing [1, 2, 3, 4, 5] :=
  have h : wrappedRing.Ok := ⟨by decide, by decide, by decide, by decide, by decide⟩
  have h₀ : smallRing.Ok := ⟨by decide, by decide, by decide, by decide, by decide⟩
  ⟨by decide +kernel, ((bulk_transfers_agree_iff h).2 5 (by decide)).mpr (.inr (by decide)),
    ((bulk_transfers_agree_iff h).1 _ (by decide)).mpr (by decide),
    ((bulk_transfers_agree_iff h₀).1 _ (by decide)).mpr (by decide)⟩

theorem bulk_transfers_differ : (bufGetIter smallRing 2).2 = [0, 0] ∧
    (bufPutIter smallRing [1, 2, 3, 4]).2 = 4 ∧
    (bufPutIter smallRing [1, 2, 3, 4]).1.inPos = (bufPutIter smallRing [1, 2, 3, 4]).1.outPos := by
  decide +kernel

end Gloworm.RingBuffer
