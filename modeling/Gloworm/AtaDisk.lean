import Mathlib

/-! Byte access to a partition through the sectors of an ATA drive. -/
namespace Gloworm.Ata
open List

abbrev Byte := UInt8

structure Partition where
  base : ℕ
  size : ℕ

/-- The drive keeps the sector numbers of the commands it was given in `log`; a command on a sector
in `fails` is answered with the error bit. -/
structure Drive where
  data : ℕ → Byte
  fails : ℕ → Bool
  log : List ℕ

structure Iter where
  length : ℕ
  bytes : List Byte

inductive Errno
  | enxio
  | einval

def memcpyIntoIter (iter : Iter) (buffer : ℕ → Byte) (nbytes : ℕ) : Iter :=
  { iter with bytes := iter.bytes ++
      (range (min nbytes (iter.length - iter.bytes.length))).map buffer }

def memcpyOutOfIter (iter : List Byte) (buffer : ℕ → Byte) (nbytes : ℕ) :
    List Byte × (ℕ → Byte) :=
  (iter.drop nbytes, fun i => if i < nbytes then iter.getD i (buffer i) else buffer i)

-- The three address registers hold 24 bits of the sector number.
def ataReadSector (d : Drive) (sector : ℕ) (buffer : ℕ → Byte) : ℕ × Drive × (ℕ → Byte) :=
  let n := sector % 2 ^ 24
  (if d.fails n then 0 else 512, { d with log := d.log ++ [n] },
    fun i => if d.fails n = false ∧ i < 512 then d.data (512 * n + i) else buffer i)

def ataWriteSector (d : Drive) (sector : ℕ) (buffer : ℕ → Byte) : ℕ × Drive :=
  let n := sector % 2 ^ 24
  (if d.fails n then 0 else 512, { d with
    log := d.log ++ [n]
    data := fun a => if d.fails n = false ∧ a / 512 = n then buffer (a % 512) else d.data a })

def ataGetDevice (parts : ℕ → Partition) (minor : ℕ) : Option Partition :=
  if 1 ≤ minor / 16 ∨ 4 < minor % 16 ∨ (parts (minor % 16)).size = 0 then none
  else some (parts (minor % 16))

def clip (parts : ℕ → Partition) (minor offset size : ℕ) : Except Errno (Partition × ℕ) :=
  match ataGetDevice parts minor with
  | none => .error .enxio
  | some device =>
    let bytes := device.size * 512 % 2 ^ 32
    if bytes < offset then .error .einval
    else .ok (device, if bytes < (offset + size) % 2 ^ 32 then bytes - offset else size)

def readLoop : ℕ → ℕ → Drive → (ℕ → Byte) → Iter → Drive × Iter
  | 0, _, d, _, iter => (d, iter)
  | count + 1, sector, d, buffer, iter =>
    let r := ataReadSector d sector buffer
    readLoop count (sector + 1) r.2.1 r.2.2 (memcpyIntoIter iter r.2.2 512)

def writeLoop : ℕ → ℕ → Drive → (ℕ → Byte) → List Byte → Drive × List Byte
  | 0, _, d, _, iter => (d, iter)
  | count + 1, sector, d, buffer, iter =>
    let r := memcpyOutOfIter iter buffer 512
    writeLoop count (sector + 1) (ataWriteSector d sector r.2).2 r.2 r.1

def ataRead (parts : ℕ → Partition) (minor offset : ℕ) (d : Drive) (buffer : ℕ → Byte)
    (iter : Iter) : Except Errno (ℤ × Drive × Iter) :=
  (clip parts minor offset (iter.length - iter.bytes.length)).map fun r =>
    (Int.bmod r.2 (2 ^ 32), readLoop (r.2 / 512) (r.1.base + offset / 512) d buffer iter)

def ataWrite (parts : ℕ → Partition) (minor offset : ℕ) (d : Drive) (buffer : ℕ → Byte)
    (iter : List Byte) : Except Errno (ℤ × Drive × List Byte) :=
  (clip parts minor offset iter.length).map fun r =>
    (Int.bmod r.2 (2 ^ 32), writeLoop (r.2 / 512) (r.1.base + offset / 512) d buffer iter)

def ataSeek (parts : ℕ → Partition) (minor position whence offset : ℕ) : Except Errno ℕ :=
  match ataGetDevice parts minor with
  | none => .error .enxio
  | some device =>
    (match whence with
      | 0 => .ok position
      | 1 => .ok ((offset + position) % 2 ^ 32)
      | 2 => .ok ((device.size + position) % 2 ^ 32)
      | _ => .error .einval : Except Errno ℕ).map fun position =>
        if device.size < position then device.size else position

section
variable {count sector : ℕ} {d : Drive} {buffer : ℕ → Byte} {iter : Iter}

lemma readLoop_log : (readLoop count sector d buffer iter).1.log =
    d.log ++ (range' sector count).map (· % 2 ^ 24) := by
  induction count generalizing sector d buffer iter with
  | zero => simp [readLoop]
  | succ count ih =>
    rw [readLoop, ih]
    simp [ataReadSector, range'_succ]

lemma writeLoop_log {iter : List Byte} : (writeLoop count sector d buffer iter).1.log =
    d.log ++ (range' sector count).map (· % 2 ^ 24) := by
  induction count generalizing sector d buffer iter with
  | zero => simp [writeLoop]
  | succ count ih =>
    rw [writeLoop, ih]
    simp [ataWriteSector, range'_succ]

lemma readLoop_length (hroom : iter.bytes.length + 512 * count ≤ iter.length) :
    (readLoop count sector d buffer iter).2.bytes.length = iter.bytes.length + 512 * count := by
  induction count generalizing sector d buffer iter with
  | zero => rfl
  | succ count ih =>
    have hlen : ∀ b, (memcpyIntoIter iter b 512).bytes.length = iter.bytes.length + 512 := by
      intro b
      simp only [memcpyIntoIter, length_append, length_map, length_range]
      omega
    rw [readLoop, ih (by rw [hlen]; show _ ≤ iter.length; omega), hlen]
    omega

/-- What is delivered depends on the sectors that were asked for and answered, and on no others. -/
lemma readLoop_congr {d' : Drive} (hfails : d'.fails = d.fails)
    (hdata : ∀ a k, k < count → a / 512 = (sector + k) % 2 ^ 24 → d.fails (a / 512) = false →
      d'.data a = d.data a) :
    (readLoop count sector d' buffer iter).2 = (readLoop count sector d buffer iter).2 := by
  induction count generalizing sector d d' buffer iter with
  | zero => rfl
  | succ count ih =>
    have hnew : (ataReadSector d' sector buffer).2.2 = (ataReadSector d sector buffer).2.2 := by
      funext i
      simp only [ataReadSector, hfails]
      by_cases hread : d.fails (sector % 2 ^ 24) = false ∧ i < 512
      · have hdiv : (512 * (sector % 2 ^ 24) + i) / 512 = sector % 2 ^ 24 := by omega
        rw [if_pos hread, if_pos hread]
        exact hdata _ 0 (Nat.succ_pos _) hdiv (hdiv.symm ▸ hread.1)
      · rw [if_neg hread, if_neg hread]
    rw [readLoop, readLoop, hnew]
    refine ih hfails fun a k hk ha => hdata a (k + 1) (by omega) (ha.trans ?_)
    rw [Nat.add_right_comm, Nat.add_assoc]

variable (hin : sector + count ≤ 2 ^ 24) (hsound : ∀ s, sector ≤ s → s < sector + count →
  d.fails s = false)
include hin hsound

lemma readLoop_spec (hroom : iter.bytes.length + 512 * count ≤ iter.length) :
    (readLoop count sector d buffer iter).2.bytes =
      iter.bytes ++ (range' (512 * sector) (512 * count)).map d.data := by
  induction count generalizing sector d buffer iter with
  | zero => simp [readLoop]
  | succ count ih =>
    have hmod : sector % 2 ^ 24 = sector := Nat.mod_eq_of_lt (by omega)
    have hok := hsound sector le_rfl (by omega)
    have hcopy : (memcpyIntoIter iter (ataReadSector d sector buffer).2.2 512).bytes =
        iter.bytes ++ (range' (512 * sector) 512).map d.data := by
      have hmin : min 512 (iter.length - iter.bytes.length) = 512 := by omega
      rw [memcpyIntoIter, hmin, range'_eq_map_range, map_map]
      refine congrArg (iter.bytes ++ ·) (map_congr_left fun i hi => ?_)
      simp only [ataReadSector, hmod, hok, mem_range.mp hi, and_self, if_true, Function.comp_apply]
    rw [readLoop, ih (by omega) ?_ ?_, hcopy, append_assoc, Nat.mul_succ 512 sector,
      Nat.mul_succ 512 count, Nat.add_comm (512 * count), ← range'_append_1, map_append]
    · rfl
    · exact fun s hs hs' => hsound s (by omega) (by omega)
    · rw [hcopy, length_append, length_map, length_range']
      show _ ≤ iter.length
      omega

lemma writeLoop_spec {iter : List Byte} (hlen : 512 * count ≤ iter.length) (a : ℕ) :
    (writeLoop count sector d buffer iter).1.data a =
      if 512 * sector ≤ a ∧ a < 512 * sector + 512 * count then iter.getD (a - 512 * sector) 0
      else d.data a := by
  induction count generalizing sector d buffer iter with
  | zero =>
    rw [if_neg (by omega)]
    rfl
  | succ count ih =>
    have hmod : sector % 2 ^ 24 = sector := Nat.mod_eq_of_lt (by omega)
    have hok := hsound sector le_rfl (by omega)
    rw [writeLoop, ih (by omega) ?_
      (by simp only [memcpyOutOfIter, length_drop]; omega)]
    swap
    · exact fun s hs hs' => hsound s (by omega) (by omega)
    by_cases hlater : 512 * (sector + 1) ≤ a ∧ a < 512 * (sector + 1) + 512 * count
    · rw [if_pos hlater, if_pos (by omega), memcpyOutOfIter, getD_eq_getElem?_getD,
        getD_eq_getElem?_getD, getElem?_drop,
        show 512 + (a - 512 * (sector + 1)) = a - 512 * sector by omega]
    · simp only [if_neg hlater, ataWriteSector, memcpyOutOfIter, hmod, hok, true_and]
      by_cases hhere : a / 512 = sector
      · rw [if_pos hhere, if_pos (by omega), if_pos (by omega),
          show a - 512 * sector = a % 512 by omega, getD_eq_getElem _ _ (by omega),
          getD_eq_getElem _ _ (by omega)]
      · rw [if_neg hhere, if_neg (by omega)]
end
section
variable {parts : ℕ → Partition} {minor offset length : ℕ} {device : Partition}

/-- The bytes a transfer may move. -/
def room (device : Partition) (offset length : ℕ) : ℕ := min length (512 * device.size - offset)

def Inside (device : Partition) (d : Drive) : Prop :=
  ∀ s ∈ d.log, device.base ≤ s ∧ s < device.base + device.size

/-- Reading and writing at this place move the bytes they count, whatever the drive holds. -/
def Right (parts : ℕ → Partition) (minor : ℕ) (device : Partition) (fails : ℕ → Bool)
    (buffer : ℕ → Byte) (offset length : ℕ) : Prop :=
  ∀ (data : ℕ → Byte) (iter : List Byte), iter.length = length →
    ∃ c : ℕ, c ≤ room device offset length ∧
      (∃ d r, ataRead parts minor offset ⟨data, fails, []⟩ buffer ⟨length, []⟩ = .ok (c, d, r) ∧
        r.bytes = (range' (512 * device.base + offset) c).map data ∧ Inside device d) ∧
      ∃ d r, ataWrite parts minor offset ⟨data, fails, []⟩ buffer iter = .ok (c, d, r) ∧
        Inside device d ∧ ∀ a, d.data a =
          if 512 * device.base + offset ≤ a ∧ a < 512 * device.base + offset + c then
            iter.getD (a - (512 * device.base + offset)) 0 else data a

structure Served (device : Partition) (fails : ℕ → Bool) (offset length : ℕ) : Prop where
  /-- The 32-bit sum of offset and length does not fall back into the partition. -/
  sum : offset + length < 2 ^ 32 ∨ 2 ^ 32 + 512 * device.size < offset + length
  counted : room device offset length < 2 ^ 31
  whole : 512 ∣ room device offset length
  aligned : room device offset length ≠ 0 → 512 ∣ offset
  reached : ∀ s, device.base + offset / 512 ≤ s →
    s < device.base + (offset + room device offset length) / 512 → s < 2 ^ 24 ∧ fails s = false

variable (hdevice : ataGetDevice parts minor = some device) (hsize : device.size < 2 ^ 23)
  (hoffset : offset ≤ 512 * device.size) (hlength : length < 2 ^ 32)
include hdevice hsize hoffset hlength

lemma clip_spec : ∃ size, clip parts minor offset length = .ok (device, size) ∧ size < 2 ^ 32 ∧
    (size = room device offset length ↔
      offset + length < 2 ^ 32 ∨ 2 ^ 32 + 512 * device.size < offset + length) ∧
    room device offset length ≤ size := by
  have hbytes : device.size * 512 % 2 ^ 32 = 512 * device.size := by omega
  simp only [clip, hdevice, hbytes, if_neg hoffset.not_gt, room]
  refine ⟨_, rfl, ?_, ?_, ?_⟩ <;> split_ifs <;> omega

variable {fails : ℕ → Bool}

lemma served_right (h : Served device fails offset length)
    (buffer : ℕ → Byte) : Right parts minor device fails buffer offset length := by
  intro data iter hiter
  obtain ⟨_, hclip, -, hmoved, -⟩ := clip_spec hdevice hsize hoffset hlength
  obtain rfl := hmoved.mpr h.sum
  obtain ⟨q, hq⟩ := h.whole
  obtain ⟨hbound, hbound'⟩ := le_min_iff.mp hq.ge
  have hcount : Int.bmod (512 * q : ℕ) (2 ^ 32) = (512 * q : ℕ) :=
    Int.bmod_eq_of_le (by omega) (by have := hq ▸ h.counted; omega)
  generalize hs : device.base + offset / 512 = sector
  have hreach : ∀ s, sector ≤ s → s < sector + q → s < 2 ^ 24 ∧ fails s = false :=
    fun s hlo hhi => h.reached s (by omega) (by rw [hq]; omega)
  have hlog : ∀ s ∈ (range' sector q).map (· % 2 ^ 24),
      device.base ≤ s ∧ s < device.base + device.size := by
    intro s hs
    obtain ⟨x, hx, rfl⟩ := mem_map.mp hs
    have hrange := mem_range'_1.mp hx
    have := (hreach x hrange.1 hrange.2).1
    omega
  have hread : ataRead parts minor offset ⟨data, fails, []⟩ buffer ⟨length, []⟩ = .ok
      ((512 * q : ℕ), readLoop q sector ⟨data, fails, []⟩ buffer ⟨length, []⟩) := by
    rw [ataRead, length_nil, Nat.sub_zero, hclip, hq, Except.map, hcount,
      Nat.mul_div_cancel_left _ (by decide), hs]
  have hwrite : ataWrite parts minor offset ⟨data, fails, []⟩ buffer iter = .ok
      ((512 * q : ℕ), writeLoop q sector ⟨data, fails, []⟩ buffer iter) := by
    rw [ataWrite, hiter, hclip, hq, Except.map, hcount, Nat.mul_div_cancel_left _ (by decide), hs]
  refine ⟨512 * q, hq.ge, ⟨_, _, hread, ?_, by rwa [Inside, readLoop_log]⟩, _, _, hwrite,
    by rwa [Inside, writeLoop_log], fun a => ?_⟩
  all_goals rcases Nat.eq_zero_or_pos q with rfl | hpos
  · rfl
  · have haligned := h.aligned (by omega)
    have hlast := (hreach (sector + q - 1) (by omega) (by omega)).1
    rw [readLoop_spec (by omega) (fun s hlo hhi => (hreach s hlo hhi).2) (by simpa using hbound),
      show 512 * device.base + offset = 512 * sector by omega]
    rfl
  · rw [if_neg (by omega)]
    rfl
  · have haligned := h.aligned (by omega)
    have hlast := (hreach (sector + q - 1) (by omega) (by omega)).1
    rw [writeLoop_spec (by omega) (fun s hlo hhi => (hreach s hlo hhi).2) (by omega),
      show 512 * device.base + offset = 512 * sector by omega]

lemma right_served {buffer : ℕ → Byte} (h : Right parts minor device fails buffer offset length) :
    Served device fails offset length := by
  obtain ⟨size, hclip, hword, hmoved, hlow⟩ := clip_spec hdevice hsize hoffset hlength
  generalize hs : device.base + offset / 512 = sector
  have hread : ∀ data, size = room device offset length ∧ size < 2 ^ 31 ∧
      (readLoop (size / 512) sector ⟨data, fails, []⟩ buffer ⟨length, []⟩).2.bytes =
        (range' (512 * device.base + offset) size).map data := by
    intro data
    obtain ⟨c, hc, ⟨d, r, hrun, hbytes, -⟩, -⟩ := h data (replicate length 0) (by simp)
    rw [ataRead, length_nil, Nat.sub_zero, hclip, Except.map, Except.ok.injEq, Prod.mk.injEq,
      hs] at hrun
    have hc' : size = c ∧ size < 2 ^ 31 := by
      have := hrun.1
      rw [Int.bmod_def] at this
      split_ifs at this <;> omega
    rw [hrun.2, hc'.1]
    exact ⟨by omega, hc'.1 ▸ hc'.2, hbytes⟩
  obtain ⟨hroom, hint, hzero⟩ := hread fun _ => 0
  have hle : size ≤ length := hroom.trans_le (min_le_left _ _)
  have hwhole : size = 512 * (size / 512) := by
    have hlen := congrArg List.length hzero
    rw [readLoop_length (by simp only [length_nil]; omega), length_map, length_range'] at hlen
    simpa using hlen.symm
  -- A byte no answered command asked for could be changed without a change in what is delivered.
  have htouched : ∀ i < size, ∃ k < size / 512, (512 * device.base + offset + i) / 512 =
      (sector + k) % 2 ^ 24 ∧ fails ((512 * device.base + offset + i) / 512) = false := by
    intro i hi
    by_contra! hnone
    have hsame : (readLoop (size / 512) sector ⟨Function.update (fun _ => 0)
        (512 * device.base + offset + i) 1, fails, []⟩ buffer ⟨length, []⟩).2 =
        (readLoop (size / 512) sector ⟨fun _ => 0, fails, []⟩ buffer ⟨length, []⟩).2 := by
      refine readLoop_congr rfl fun a k hk ha hok => ?_
      have hne : a ≠ 512 * device.base + offset + i := by
        rintro rfl
        exact hnone k hk ha hok
      simp [Function.update_of_ne hne]
    have heq := (hread _).2.2.symm.trans ((congrArg Iter.bytes hsame).trans hzero)
    have hget := congrArg (·[i]?) heq
    simp [hi] at hget
  have hfacts : size ≠ 0 → 512 ∣ offset ∧ sector + size / 512 ≤ 2 ^ 24 := by
    intro hne
    obtain ⟨k, hk, hlast, -⟩ := htouched (size - 1) (by omega)
    omega
  refine ⟨hmoved.mp hroom, hroom ▸ hint, ⟨_, hroom ▸ hwhole⟩, fun hne => (hfacts (hroom ▸ hne)).1,
    fun s hlo hhi => ?_⟩
  rw [← hroom] at hhi
  have hne : size ≠ 0 := by
    rintro rfl
    omega
  obtain ⟨haligned, hfits⟩ := hfacts hne
  obtain ⟨k, -, -, hok⟩ := htouched (512 * (s - sector)) (by omega)
  rw [show (512 * device.base + offset + 512 * (s - sector)) / 512 = s by omega] at hok
  exact ⟨by omega, hok⟩

omit hsize hoffset hlength in
lemma ataSeek_le {position whence current r : ℕ}
    (h : ataSeek parts minor position whence current = .ok r) : r ≤ 512 * device.size := by
  simp only [ataSeek, hdevice] at h
  split at h <;> simp only [Except.map, Except.ok.injEq, reduceCtorEq] at h <;> split_ifs at h <;> omega

/-- Access byte by byte is right exactly if it is served in full. -/
theorem ata_byte_access_iff (fails : ℕ → Bool) (buffer : ℕ → Byte) :
    (Right parts minor device fails buffer offset length ↔ Served device fails offset length) ∧
    ∀ position whence current r, ataSeek parts minor position whence current = .ok r →
      r ≤ 512 * device.size :=
  ⟨⟨right_served hdevice hsize hoffset hlength,
    fun h => served_right hdevice hsize hoffset hlength h buffer⟩,
    fun _ _ _ _ => ataSeek_le hdevice⟩
end

theorem ata_byte_access_two_sectors :
    Right (fun _ => ⟨2048, 100⟩) 0 ⟨2048, 100⟩ (fun _ => false) (fun _ => 0) 512 1024 :=
  (ata_byte_access_iff rfl (by decide) (by decide) (by decide) _ _).1.mpr
    ⟨by decide, by decide, by decide, by decide, fun s _ hs => ⟨hs.trans (by decide), rfl⟩⟩

/-- One hundred bytes are counted and none moved; bytes from the middle of a sector are taken from
its start. -/
theorem ata_counts_unmoved :
    ¬ Right (fun _ => ⟨2048, 100⟩) 0 ⟨2048, 100⟩ (fun _ => false) (fun _ => 0) 0 100 ∧
    ¬ Right (fun _ => ⟨2048, 100⟩) 0 ⟨2048, 100⟩ (fun _ => false) (fun _ => 0) 256 512 :=
  ⟨fun h => absurd (right_served rfl (by decide) (by decide) (by decide) h).whole (by decide),
    fun h => absurd ((right_served rfl (by decide) (by decide) (by decide) h).aligned (by decide))
      (by decide)⟩

end Gloworm.Ata
