import Gloworm.RingBufferModel

/-! What a ring holds: the bytes from `out` to `in` in circular order. Each operation is
described by what it does to that list. -/
namespace Gloworm.RingBuffer
open List Function CircularCells Word
variable {α : Type} {r : Ring α}

lemma putLoop_full (hfull : bufNextIn r = r.outPos) (d : α) (data : List α) :
    putLoop (d :: data) r = ({ r with buffer := update r.buffer r.inPos d }, 0) := if_pos hfull

lemma putLoop_more (hroom : ¬ bufNextIn r = r.outPos) (d : α) (data : List α) :
    putLoop (d :: data) r =
      ((putLoop data { r with buffer := update r.buffer r.inPos d, inPos := bufNextIn r }).1,
        (putLoop data { r with buffer := update r.buffer r.inPos d, inPos := bufNextIn r }).2 + 1) :=
  if_neg hroom

structure Ring.Ok (r : Ring α) : Prop where
  in_nonneg : 0 ≤ r.inPos
  in_lt : r.inPos < r.max
  out_nonneg : 0 ≤ r.outPos
  out_lt : r.outPos < r.max
  max_le : r.max ≤ 32767

def Ring.used (r : Ring α) : ℤ :=
  if r.outPos ≤ r.inPos then r.inPos - r.outPos else r.max - r.outPos + r.inPos

def Ring.contents (r : Ring α) : List α := cells r.buffer r.max r.outPos r.used.toNat

lemma bufInit_ok {totalSize : ℤ} (hlo : 6 < totalSize) (hhi : totalSize ≤ 32767)
    (mem : ℤ → α) : (bufInit totalSize mem).Ok ∧ (bufInit totalSize mem).contents = [] := by
  have hmax : (bufInit totalSize mem).max = totalSize - 6 := by
    simp only [bufInit, if_pos (by omega : totalSize ≠ 0)]
    exact toShort_of_mem (by omega) (by omega)
  constructor
  · have hpos : 0 < (bufInit totalSize mem).max := by omega
    exact ⟨le_rfl, hpos, le_rfl, hpos, by omega⟩
  · simp [Ring.contents, Ring.used, bufInit]

namespace Ring.Ok
section
variable {n k : ℕ} (h : r.Ok)
include h

lemma used_nonneg : 0 ≤ r.used := by
  obtain ⟨h1, h2, h3, h4, h5⟩ := h
  unfold Ring.used
  split_ifs <;> omega

lemma used_lt : r.used < r.max := by
  obtain ⟨h1, h2, h3, h4, h5⟩ := h
  unfold Ring.used
  split_ifs <;> omega

lemma bufUsedSpace_eq : bufUsedSpace r = r.used := by
  have h1 := h.used_nonneg
  have h2 := h.used_lt
  have h3 := h.max_le
  rw [bufUsedSpace, ← Ring.used]
  exact toShort_of_mem (by omega) (by omega)

lemma bufFreeSpace_eq : bufFreeSpace r = r.max - 1 - r.used := by
  obtain ⟨h1, h2, h3, h4, h5⟩ := h
  unfold bufFreeSpace Ring.used
  rw [toShort_of_mem (by split_ifs <;> omega) (by split_ifs <;> omega)]
  split_ifs <;> omega

lemma length_contents : (r.contents.length : ℤ) = r.used := by
  have := h.used_nonneg
  rw [Ring.contents, length_cells]
  omega

lemma wrap_used : wrap r.max (r.outPos + r.used) = r.inPos := by
  obtain ⟨h1, h2, h3, h4, h5⟩ := h
  unfold wrap Ring.used
  split_ifs <;> omega

lemma used_eq_zero : r.used = 0 ↔ bufIsEmpty r := by
  obtain ⟨h1, h2, h3, h4, h5⟩ := h
  unfold Ring.used bufIsEmpty
  split_ifs <;> omega

lemma contents_eq_nil : r.contents = [] ↔ bufIsEmpty r := by
  rw [← h.used_eq_zero, ← length_eq_zero_iff, ← h.length_contents]
  omega

lemma append (data : List α) (into : ℤ) (hfit : r.used + data.length < r.max)
    (hflat : r.inPos + data.length ≤ r.max)
    (hinto : into = if r.inPos + data.length < r.max then r.inPos + data.length else 0) :
    ({ r with buffer := store r.buffer r.inPos data, inPos := into } : Ring α).Ok ∧
    ({ r with buffer := store r.buffer r.inPos data, inPos := into } : Ring α).contents =
      r.contents ++ data ∧
    ({ r with buffer := store r.buffer r.inPos data, inPos := into } : Ring α).used =
      r.used + data.length := by
  have hused : ({ r with buffer := store r.buffer r.inPos data, inPos := into } : Ring α).used =
      r.used + data.length := by
    obtain ⟨h1, h2, h3, h4, h5⟩ := h
    unfold Ring.used at hfit ⊢
    simp only at hfit ⊢
    subst hinto
    split_ifs at hfit ⊢ <;> omega
  have hnn := h.used_nonneg
  refine ⟨?_, ?_, hused⟩
  · obtain ⟨h1, h2, h3, h4, h5⟩ := h
    refine ⟨?_, ?_, h3, h4, h5⟩ <;> subst hinto <;> simp only <;> split_ifs <;> omega
  · have hcast : ((r.used.toNat : ℕ) : ℤ) = r.used := Int.toNat_of_nonneg hnn
    have hwrap := h.wrap_used
    rw [← hcast] at hwrap
    have hstore := cells_store r.buffer r.used.toNat data h.out_lt
      (by omega) (by rw [hwrap]; exact hflat)
    rw [hwrap] at hstore
    rw [Ring.contents, hused, Int.toNat_add hnn (by omega), Int.toNat_natCast]
    exact hstore

lemma drop {out : ℤ} (hn : (n : ℤ) ≤ r.used) (hout : out = wrap r.max (r.outPos + n)) :
    ({ r with outPos := out } : Ring α).Ok ∧
    ({ r with outPos := out } : Ring α).contents = r.contents.drop n ∧
    ({ r with outPos := out } : Ring α).used = r.used - n := by
  have hlt := h.used_lt
  have hused : ({ r with outPos := out } : Ring α).used = r.used - n := by
    obtain ⟨h1, h2, h3, h4, h5⟩ := h
    unfold Ring.used wrap at *
    simp only at hn ⊢
    subst hout
    split_ifs at hn hlt ⊢ <;> omega
  refine ⟨?_, ?_, hused⟩
  · obtain ⟨h1, h2, h3, h4, h5⟩ := h
    refine ⟨h1, h2, ?_, ?_, h5⟩
    · rw [hout]
      exact wrap_nonneg (by omega)
    · rw [hout]
      exact wrap_lt (by omega)
  · have hsplit : r.used.toNat = n + (r.used - n).toNat := by omega
    rw [Ring.contents, Ring.contents, hused, hsplit, cells_append n h.out_lt (by omega), hout]
    simp

lemma take_eq_load (hn : (n : ℤ) ≤ r.used) (hflat : r.outPos + n ≤ r.max) :
    load r.buffer r.outPos n = r.contents.take n := by
  have hlt := h.used_lt
  have hsplit : r.used.toNat = n + (r.used - n).toNat := by omega
  rw [Ring.contents, hsplit, cells_append n h.out_lt (by omega), ← cells_eq_load hflat]
  simp

lemma scratch (d : α) : ({ r with buffer := update r.buffer r.inPos d } : Ring α).contents =
      r.contents := by
  have hnn := h.used_nonneg
  have hlt := h.used_lt
  have hwrap := h.wrap_used
  apply cells_congr
  intro i hi
  apply update_of_ne
  intro he
  rw [← hwrap] at he
  have hi' : (i : ℤ) < r.used := by
    have : i < r.used.toNat := hi
    omega
  obtain ⟨h1, h2, h3, h4, h5⟩ := h
  unfold wrap at he
  simp only at he
  split_ifs at he <;> omega

lemma putLoop_spec (data : List α) : (putLoop data r).1.Ok ∧ (putLoop data r).1.max = r.max ∧
    ((putLoop data r).2 : ℤ) = min (data.length : ℤ) (r.max - 1 - r.used) ∧
    (putLoop data r).1.contents = r.contents ++ data.take (putLoop data r).2 := by
  induction data generalizing r with
  | nil =>
    have := h.used_lt
    refine ⟨h, rfl, ?_, by simp [putLoop]⟩
    simp only [putLoop, length_nil, Nat.cast_zero]
    omega
  | cons d data ih =>
    have hlt := h.used_lt
    by_cases hfull : bufNextIn r = r.outPos
    · have hroom : r.max - 1 - r.used = 0 := by
        obtain ⟨h1, h2, h3, h4, h5⟩ := h
        unfold Ring.used
        unfold bufNextIn at hfull
        split_ifs at hfull ⊢ <;> omega
      rw [putLoop_full hfull]
      refine ⟨⟨h.in_nonneg, h.in_lt, h.out_nonneg, h.out_lt, h.max_le⟩, rfl, ?_, ?_⟩
      · rw [hroom, Nat.cast_zero, min_eq_right (Nat.cast_nonneg _)]
      · rw [h.scratch d]
        simp
    · have hroom : r.used + 1 < r.max := by
        obtain ⟨h1, h2, h3, h4, h5⟩ := h
        unfold Ring.used
        unfold bufNextIn at hfull
        split_ifs at hfull ⊢ <;> omega
      obtain ⟨hok, hcont, hused⟩ := h.append [d] (bufNextIn r) hroom
        (by simpa using h.in_lt) (by simp [bufNextIn])
      rw [store_singleton] at hok hcont hused
      obtain ⟨iok, imax, icount, icont⟩ := ih hok
      rw [putLoop_more hfull]
      refine ⟨iok, imax, ?_, ?_⟩
      · rw [hused] at icount
        simp only [length_cons, length_nil] at icount ⊢
        push_cast at icount ⊢
        omega
      · rw [icont, hcont]
        simp

lemma bufDrop_spec (hn : (n : ℤ) ≤ r.used) (hshort : r.outPos + n < 32768) :
    (bufDrop r n).Ok ∧ (bufDrop r n).max = r.max ∧
      (bufDrop r n).contents = r.contents.drop n ∧ (bufDrop r n).buffer = r.buffer ∧
      (bufDrop r n).inPos = r.inPos := by
  have hlt := h.used_lt
  have hout : (bufDrop r n).outPos = wrap r.max (r.outPos + n) := by
    obtain ⟨h1, h2, h3, h4, h5⟩ := id h
    simp only [bufDrop, bufDropCount, h.bufUsedSpace_eq, if_neg (not_lt.mpr hn)]
    unfold wrap toShort
    split_ifs <;> omega
  obtain ⟨hok, hcont, _⟩ := h.drop hn hout
  exact ⟨hok, rfl, hcont, rfl, rfl⟩

lemma peekLoop_spec (n : ℕ) (hk : (k : ℤ) ≤ r.used) :
    peekLoop r n (wrap r.max (r.outPos + k)) = (r.contents.drop k).take n := by
  induction n generalizing k with
  | zero => simp [peekLoop]
  | succ n ih =>
    have hlt := h.used_lt
    have hlen := h.length_contents
    rw [peekLoop]
    by_cases hend : (k : ℤ) = r.used
    · rw [if_pos (by rw [hend, h.wrap_used]), drop_of_length_le (by omega)]
      simp
    · have hlt' : k < r.contents.length := by omega
      have hne : wrap r.max (r.outPos + k) ≠ r.inPos := by
        obtain ⟨h1, h2, h3, h4, h5⟩ := h
        unfold wrap
        unfold Ring.used at hk hend
        split_ifs at hk hend ⊢ <;> omega
      have hnext : (if r.max ≤ toShort (wrap r.max (r.outPos + k) + 1) then 0
          else toShort (wrap r.max (r.outPos + k) + 1)) =
          wrap r.max (r.outPos + ((k + 1 : ℕ) : ℤ)) := by
        obtain ⟨h1, h2, h3, h4, h5⟩ := h
        push_cast
        unfold wrap toShort
        split_ifs <;> omega
      simp only [if_neg hne, hnext]
      rw [ih (by push_cast; omega), drop_eq_getElem_cons hlt', take_succ_cons]
      congr 1
      simp [Ring.contents, cells]

lemma bufPeek_spec (hk : (k : ℤ) ≤ r.used) (hshort : r.outPos + k < 32768)
    (hj : r.outPos + k ≠ r.max) : bufPeek r k n = (r.contents.drop k).take n := by
  have hlt := h.used_lt
  have hpos : (if r.max < toShort (r.outPos + k) then toShort (toShort (r.outPos + k) - r.max)
      else toShort (r.outPos + k)) = wrap r.max (r.outPos + k) := by
    obtain ⟨h1, h2, h3, h4, h5⟩ := h
    unfold wrap toShort
    split_ifs <;> omega
  simp only [bufPeek, h.bufUsedSpace_eq, if_neg (not_lt.mpr hk), hpos, Int.toNat_natCast]
  exact h.peekLoop_spec n hk
end
end Ring.Ok

variable {size : ℕ}

lemma chunk_eq {distance : ℤ} (hlo : 0 ≤ distance) (hhi : distance ≤ 32767) :
    chunk distance size = min distance size := by
  rw [chunk, toUnsigned_of_mem hlo (by omega)]
  split_ifs
  · rw [toShort_of_mem (by omega) (by omega)]
    omega
  · rw [toShort_of_mem (by omega) (by omega)]
    omega

/-- The first piece that `_buf_put_iter` copies, and the rest of the call. -/
def firstPut (r : Ring α) (size : ℕ) : ℤ :=
  if r.inPos < r.outPos then chunk (r.outPos - r.inPos - 1) size
  else toShort (if toUnsigned (r.max - r.inPos) < size
    then r.max - r.inPos - (if r.outPos ≠ 0 then 0 else 1) else size)

def putAfter (r : Ring α) (data : List α) (first : ℤ) : Ring α × ℤ :=
  let into := toShort (r.inPos + first)
  let r := { r with
    buffer := store r.buffer r.inPos (data.take first.toNat)
    inPos := if r.max ≤ into then 0 else into }
  let size := toUnsigned (data.length - first)
  if size = 0 ∨ r.inPos + 1 = r.outPos ∨ r.inPos + 1 = r.max then (r, first)
  else
    let second := chunk (r.outPos - r.inPos - 1) size
    ({ r with
      buffer := store r.buffer r.inPos ((data.drop first.toNat).take second.toNat)
      inPos := toShort (r.inPos + second) }, toShort (first + second))

lemma bufPutIter_eq (r : Ring α) (data : List α) :
    bufPutIter r data = putAfter r data (firstPut r data.length) := rfl

def firstRoom (r : Ring α) : ℤ :=
  if r.inPos < r.outPos then r.outPos - r.inPos - 1
  else if r.outPos = 0 then r.max - r.inPos - 1 else r.max - r.inPos

lemma firstPut_eq (h : r.Ok) (hsize : size < 2 ^ 32)
    (hbad : ¬(r.outPos = 0 ∧ (size : ℤ) = r.max - r.inPos)) :
    firstPut r size = min (size : ℤ) (firstRoom r) := by
  obtain ⟨h1, h2, h3, h4, h5⟩ := id h
  unfold firstPut firstRoom
  by_cases hwrap : r.inPos < r.outPos
  · rw [if_pos hwrap, if_pos hwrap, chunk_eq (by omega) (by omega), min_comm]
  · rw [if_neg hwrap, if_neg hwrap, toUnsigned_of_mem (by omega) (by omega)]
    split_ifs <;> rw [toShort_of_mem (by omega) (by omega)] <;> omega

namespace Ring.Ok

def firstPiece (r : Ring α) : ℤ :=
  if r.outPos < r.inPos then r.inPos - r.outPos else r.max - r.outPos

lemma chunk_first (h : r.Ok) (size : ℕ) :
    (if r.outPos < r.inPos then chunk (r.inPos - r.outPos) size
      else chunk (r.max - r.outPos) size) = min (firstPiece r) size := by
  obtain ⟨h1, h2, h3, h4, h5⟩ := h
  unfold firstPiece
  split_ifs
  · exact chunk_eq (by omega) (by omega)
  · exact chunk_eq (by omega) (by omega)

lemma take_drop_of_end {l : List α} {n : ℕ}
    (h : n = size ∨ l.length ≤ n ∧ n ≤ size) : l.take n = l.take size ∧ l.drop n = l.drop size := by
  rcases h with rfl | ⟨hle, hle'⟩
  · exact ⟨rfl, rfl⟩
  · rw [take_of_length_le hle, take_of_length_le (hle.trans hle'),
      drop_of_length_le hle, drop_of_length_le (hle.trans hle')]
    exact ⟨rfl, rfl⟩

lemma bufGetIter_eq (h : r.Ok) (hne : ¬ bufIsEmpty r) (hsize : size < 2 ^ 32) :
    ∃ n : ℕ, (n : ℤ) = min (firstPiece r) size ∧ (n : ℤ) ≤ r.used ∧ r.outPos + n ≤ r.max ∧
      bufGetIter r size =
        if size - n = 0 ∨ wrap r.max (r.outPos + n) = r.inPos then
          ({ r with outPos := wrap r.max (r.outPos + n) }, load r.buffer r.outPos n)
        else ({ r with outPos := toShort (wrap r.max (r.outPos + n) +
              chunk (r.inPos - wrap r.max (r.outPos + n)) (size - n)) },
            load r.buffer r.outPos n ++ load r.buffer (wrap r.max (r.outPos + n))
              (chunk (r.inPos - wrap r.max (r.outPos + n)) (size - n)).toNat) := by
  obtain ⟨h1, h2, h3, h4, h5⟩ := id h
  have hfirst : 0 < firstPiece r ∧ firstPiece r ≤ r.used ∧ r.outPos + firstPiece r ≤ r.max := by
    unfold firstPiece Ring.used
    unfold bufIsEmpty at hne
    split_ifs <;> omega
  have hcast : ((min (firstPiece r) size).toNat : ℤ) = min (firstPiece r) size := by omega
  refine ⟨(min (firstPiece r) size).toNat, hcast, by omega, by omega, ?_⟩
  have hout : (if r.max ≤ toShort (r.outPos + min (firstPiece r) size) then 0
      else toShort (r.outPos + min (firstPiece r) size)) =
      wrap r.max (r.outPos + (min (firstPiece r) size).toNat) := by
    rw [hcast, toShort_of_mem (by omega) (by omega)]
    unfold wrap
    split_ifs <;> omega
  have hrest : toUnsigned ((size : ℤ) - min (firstPiece r) size) =
      size - (min (firstPiece r) size).toNat := by
    rw [toUnsigned_of_mem (by omega) (by omega)]
    omega
  simp only [bufGetIter, h.chunk_first, hout, hrest]

lemma bufGetIter_spec (h : r.Ok) (hne : ¬ bufIsEmpty r) (hsize : size < 2 ^ 32) :
    (bufGetIter r size).1.Ok ∧ (bufGetIter r size).1.max = r.max ∧
      (bufGetIter r size).2 = r.contents.take size ∧
      (bufGetIter r size).1.contents = r.contents.drop size := by
  obtain ⟨h1, h2, h3, h4, h5⟩ := id h
  obtain ⟨n, hn, hin, hflat, hget⟩ := h.bufGetIter_eq hne hsize
  have hlen := h.length_contents
  obtain ⟨ok1, cont1, used1⟩ := h.drop hin rfl
  have load1 := h.take_eq_load hin hflat
  rw [hget]
  by_cases hdone : size - n = 0 ∨ wrap r.max (r.outPos + n) = r.inPos
  · have hn' : n = size ∨ r.contents.length ≤ n ∧ n ≤ size := by
      rcases hdone with hd | hd
      · exact .inl (by omega)
      · have hzero := ok1.used_eq_zero.mpr hd.symm
        exact .inr ⟨by omega, by omega⟩
    rw [if_pos hdone]
    obtain ⟨htake, hdrop⟩ := take_drop_of_end hn'
    exact ⟨ok1, rfl, load1.trans htake, cont1.trans hdrop⟩
  · have hzero : wrap r.max (r.outPos + n) = 0 := by
      unfold firstPiece at hn
      unfold wrap at hdone ⊢
      split_ifs at hn hdone ⊢ <;> omega
    rw [if_neg hdone]
    rw [hzero] at ok1 cont1 used1 hdone ⊢
    have hused : r.used - n = r.inPos := by
      rw [← used1]
      simp only [Ring.used]
      split_ifs
      omega
    obtain ⟨m, hm⟩ : ∃ m : ℕ, (m : ℤ) = min r.inPos (size - n : ℕ) :=
      ⟨(min r.inPos (size - n : ℕ)).toNat, by omega⟩
    have hchunk : chunk (r.inPos - 0) (size - n) = m := by
      rw [chunk_eq (by omega) (by omega), hm, sub_zero]
    have hpos : toShort (0 + (m : ℤ)) = wrap r.max (0 + m) := by
      rw [wrap_of_lt (by omega), toShort_of_mem (by omega) (by omega)]
    obtain ⟨ok2, cont2, _⟩ := ok1.drop (n := m) (by omega) rfl
    have load2 := ok1.take_eq_load (n := m) (by omega) (by simp only; omega)
    simp only [hchunk, hpos, Int.toNat_natCast]
    obtain ⟨htake, hdrop⟩ := take_drop_of_end
      (by omega : n + m = size ∨ r.contents.length ≤ n + m ∧ n + m ≤ size)
    refine ⟨ok2, trivial, ?_, ?_⟩
    · rw [load1, load2, cont1, ← take_add, htake]
    · rw [cont2, cont1, drop_drop, hdrop]

lemma toShort_add_sub {n m : ℕ} (hle : n ≤ m) (hm : m < 32768) :
    toShort ((n : ℤ) + ((m - n : ℕ) : ℤ)) = m := by
  rw [← Nat.cast_add, Nat.add_sub_cancel' hle, toShort_of_mem (by omega) (by omega)]

lemma bufPutIter_spec (h : r.Ok) (data : List α) (hroom : (data.length : ℤ) ≤ r.max - 1 - r.used) :
    (bufPutIter r data).1.Ok ∧ (bufPutIter r data).1.max = r.max ∧
      (bufPutIter r data).1.contents = r.contents ++ data ∧ (bufPutIter r data).2 = data.length ∧
      (bufPutIter r data).1.outPos = r.outPos := by
  obtain ⟨h1, h2, h3, h4, h5⟩ := id h
  have hnn := h.used_nonneg
  have hused : r.used = if r.outPos ≤ r.inPos then r.inPos - r.outPos
    else r.max - r.outPos + r.inPos := rfl
  have hfirst : firstPut r data.length = min (data.length : ℤ) (firstRoom r) :=
    firstPut_eq h (by omega) (by split_ifs at hused <;> omega)
  by_cases hpiece : r.inPos + data.length ≤ r.max
  · have hall : min (data.length : ℤ) (firstRoom r) = data.length := by
      unfold firstRoom
      split_ifs at hused ⊢ <;> omega
    have hinto : (if r.max ≤ toShort (r.inPos + data.length) then 0
        else toShort (r.inPos + data.length)) =
        if r.inPos + data.length < r.max then r.inPos + data.length else 0 := by
      rw [toShort_of_mem (by omega) (by omega)]
      split_ifs <;> omega
    have hleft : toUnsigned ((data.length : ℤ) - data.length) = 0 := by
      rw [sub_self, toUnsigned_of_mem le_rfl (by omega), Int.toNat_zero]
    obtain ⟨ok1, cont1, _⟩ := h.append _ _ (by omega) hpiece rfl
    simp only [bufPutIter_eq, hfirst, hall, putAfter, hinto, hleft, Int.toNat_natCast, take_length,
      true_or, if_true]
    exact ⟨ok1, trivial, cont1, trivial, trivial⟩
  · have hout : ¬ r.inPos < r.outPos ∧ r.outPos ≠ 0 := by split_ifs at hused <;> omega
    obtain ⟨n, hn⟩ : ∃ n : ℕ, (n : ℤ) = r.max - r.inPos := ⟨(r.max - r.inPos).toNat, by omega⟩
    have hle : n ≤ data.length := by omega
    have hlt : data.length < 32768 := by omega
    have hall : min (data.length : ℤ) (firstRoom r) = n := by
      rw [firstRoom, if_neg hout.1, if_neg hout.2]
      omega
    have hinto : (if r.max ≤ toShort (r.inPos + n) then 0 else toShort (r.inPos + n)) = 0 := by
      rw [toShort_of_mem (by omega) (by omega)]
      exact if_pos (by omega)
    have hlen1 : (data.take n).length = n := by
      rw [length_take]
      omega
    have hlen2 : (data.drop n).length = data.length - n := length_drop
    obtain ⟨ok1, cont1, used1⟩ := h.append (data.take n) 0
      (by rw [hlen1]; omega) (by rw [hlen1]; omega) (by rw [hlen1, if_neg (by omega)])
    have hrest : (data.length - n : ℤ) < r.outPos := by
      rw [if_pos (by omega)] at hused
      omega
    have hleft : toUnsigned ((data.length : ℤ) - n) = data.length - n := by
      rw [toUnsigned_of_mem (by omega) (by omega)]
      omega
    have hmore : ¬ (data.length - n = 0 ∨ (0 : ℤ) + 1 = r.outPos ∨ (0 : ℤ) + 1 = r.max) := by
      omega
    have hchunk2 : chunk (r.outPos - 0 - 1) (data.length - n) = (data.length - n : ℕ) := by
      rw [chunk_eq (by omega) (by omega)]
      omega
    obtain ⟨ok2, cont2, _⟩ := ok1.append (data.drop n) (data.length - n : ℕ)
      (by rw [used1, hlen1, hlen2]; simp only; omega) (by rw [hlen2]; simp only; omega)
      (by
        rw [hlen2]
        simp only
        rw [if_pos (by omega)]
        omega)
    have hpos : toShort (0 + ((data.length - n : ℕ) : ℤ)) = (data.length - n : ℕ) := by
      rw [zero_add, toShort_of_mem (by omega) (by omega)]
    simp only [bufPutIter_eq, hfirst, hall, putAfter, hinto, hleft, Int.toNat_natCast,
      if_neg hmore, hchunk2, hpos, toShort_add_sub hle hlt, take_of_length_le hlen2.le]
    refine ⟨ok2, trivial, ?_, trivial, trivial⟩
    rw [cont2, cont1, append_assoc, take_append_drop]
end Ring.Ok
end Gloworm.RingBuffer
