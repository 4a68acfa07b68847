import Gloworm.MinixBitmaps

/-! The zones of a new minix file system: the bitmap that `minix_mkfs` writes, and the zone numbers
that `minix_alloc_zone` makes of its bits. -/
namespace Gloworm.MinixBitmap
open Function Word Bitmap Transition List Option

structure Super where
  imapBlocks : ℕ
  zmapBlocks : ℕ
  firstZone : ℕ

def Super.zoneBitmapStart (super : Super) : ℕ := 2 + super.imapBlocks

def minixAllocZone (super : Super) (readable : ℕ → Bool) (disk : Disk) : ℕ × Disk :=
  let (bit, disk) := bitAlloc disk super.zoneBitmapStart super.zmapBlocks
  if bit = 0 then (0, disk)
  else
    let zone := toUnsigned (bit + super.firstZone - 1)
    if readable zone then (zone, update disk zone fun _ => 0#8) else (0, disk)

def minixFreeZone (super : Super) (disk : Disk) (zone : ℕ) : Option Disk :=
  bitFree disk super.zoneBitmapStart (toSigned ((zone + 2 ^ 32 - super.firstZone + 1) % 2 ^ 32))

def initZone (numEntries : ℕ) (block : ℕ → Byte) : ℕ → Byte := fun i =>
  if numEntries < minixV1ZoneSize * 8 then
    if i < numEntries / 8 then 0#8
    else if i = numEntries / 8 ∧ numEntries % 8 ≠ 0 then ~~~lowMask (numEntries % 8)
    else if i < minixV1ZoneSize then 0xFF#8
    else block i
  else if i < minixV1ZoneSize then 0#8
  else block i

def initZones (disk : Disk) : ℕ → ℕ → ℕ → Disk
  | 0, _, _ => disk
  | left + 1, block, numEntries =>
    let next := update disk block (initZone numEntries (disk block))
    if numEntries < minixV1ZoneSize * 8 then next
    else initZones next left (block + 1) (numEntries - minixV1ZoneSize * 8)

def bitmapInit (disk : Disk) (start size numEntries reserve : ℕ) : Disk :=
  let disk := initZones disk size start numEntries
  update disk start fun i =>
    if i < reserve / 8 then 0xFF#8
    else if i = reserve / 8 then lowMask (reserve % 8)
    else disk start i

def mkfsSuper : Super := ⟨1, 1, 6⟩

/-- `later` is what the other blocks hold in the end. -/
def minixMkfs (blocks : ℕ) (disk later : Disk) : Disk :=
  let disk := bitmapInit disk 2 mkfsSuper.imapBlocks 64 2
  let disk := bitmapInit disk mkfsSuper.zoneBitmapStart mkfsSuper.zmapBlocks (blocks % 2 ^ 16) 2
  fun block => if block = 2 ∨ block = mkfsSuper.zoneBitmapStart then disk block else later block

structure Zones where
  disk : Disk
  held : List ℕ
  returned : List ℕ

inductive ZoneCall
  | alloc
  | free (zone : ℕ)

def zoneCall (readable : ℕ → Bool) (s : Zones) : ZoneCall → Option Zones
  | .alloc =>
    let (zone, disk) := minixAllocZone mkfsSuper readable s.disk
    if zone = 0 then some { s with disk := disk }
    else some ⟨disk, zone :: s.held, zone :: s.returned⟩
  | .free zone =>
    if zone ∈ s.held then
      (minixFreeZone mkfsSuper s.disk zone).map fun disk => ⟨disk, s.held.erase zone, s.returned⟩
    else none

def ZoneStep (readable : ℕ → Bool) (s : Zones) (call : ZoneCall) (t : Zones) : Prop :=
  zoneCall readable s call = some t

/-- The zones handed out lie on the disk behind the root directory, until all are in use. -/
def ZonesRight (blocks : ℕ) (readable : ℕ → Bool) (disk later : Disk) : Prop :=
  ∀ calls s, Run (ZoneStep readable) ⟨minixMkfs blocks disk later, [], []⟩ calls s →
    (∀ zone ∈ s.returned, mkfsSuper.firstZone ≤ zone ∧ zone < blocks ∧ zone ≠ mkfsSuper.firstZone) ∧
      ((minixAllocZone mkfsSuper readable s.disk).1 = 0 →
        ∀ zone, mkfsSuper.firstZone ≤ zone → zone < blocks → zone ≠ mkfsSuper.firstZone →
          zone ∈ s.held)

section Bits
variable {n : ℕ}

lemma bit_eq_bitAt (disk : Disk) (hn : n < 8192) : bit disk 3 n = bitAt (disk 3) n := by
  rw [bit, Nat.div_eq_of_lt hn, Nat.mod_eq_of_lt hn]
  rfl

lemma initZones_one (disk : Disk) (block numEntries : ℕ) : initZones disk 1 block numEntries =
      update disk block (initZone numEntries (disk block)) := by
  rw [initZones, initZones]
  split_ifs <;> rfl

lemma getLsbD_initZone {numEntries : ℕ} (block : ℕ → Byte) (hn : n < 8192) :
    (initZone numEntries block (n / 8)).getLsbD (n % 8) = decide (numEntries ≤ n) := by
  have hbyte : n / 8 < minixV1ZoneSize := by
    show n / 8 < 1024
    omega
  have hsize : minixV1ZoneSize * 8 = 8192 := rfl
  rw [initZone, hsize]
  split_ifs with hsmall hless hequal
  · rw [BitVec.getLsbD_zero]
    exact (decide_eq_false (by omega)).symm
  · rw [BitVec.getLsbD_not, getLsbD_lowMask, ← decide_not, ← Bool.decide_and, decide_eq_decide]
    omega
  · rw [show (0xFF#8 : Byte) = BitVec.allOnes 8 from rfl, BitVec.getLsbD_allOnes, decide_eq_decide]
    omega
  · rw [BitVec.getLsbD_zero]
    exact (decide_eq_false (by omega)).symm

lemma bitAt_minixMkfs {blocks : ℕ} (hlow : 8 ≤ blocks) (hhigh : blocks ≤ 65535)
    (disk later : Disk) (hn : n < 8192) :
    bitAt (minixMkfs blocks disk later 3) n = decide (n < 2 ∨ blocks ≤ n) := by
  have hstart : mkfsSuper.zoneBitmapStart = 3 := rfl
  have hcount : mkfsSuper.zmapBlocks = 1 := rfl
  have hblocks : blocks % 2 ^ 16 = blocks := Nat.mod_eq_of_lt (by omega)
  simp only [minixMkfs, hstart, hcount, hblocks, or_true, if_true]
  rw [bitmapInit, initZones_one, update_self, bitAt, update_self]
  split_ifs with hnone hfirst
  · omega
  · rw [getLsbD_lowMask, decide_eq_decide]
    omega
  · rw [getLsbD_initZone _ hn, decide_eq_decide]
    omega

lemma minixAllocZone_cases (readable : ℕ → Bool) {disk : Disk} (hzero : bitAt (disk 3) 0 = true) :
    ((∀ n < 8192, bitAt (disk 3) n = true) ∧ minixAllocZone mkfsSuper readable disk = (0, disk)) ∨
    ∃ n < 8192, bitAt (disk 3) n = false ∧ (∀ m < n, bitAt (disk 3) m = true) ∧
      (minixAllocZone mkfsSuper readable disk).1 = (if readable (n + 5) then n + 5 else 0) ∧
      (minixAllocZone mkfsSuper readable disk).2 3 = setBit (disk 3) n := by
  have hstart : mkfsSuper.zoneBitmapStart = 3 := rfl
  have hcount : mkfsSuper.zmapBlocks = 1 := rfl
  rw [minixAllocZone, hstart, hcount]
  rcases bitAlloc_spec disk 3 1 with ⟨n, ⟨hn, hclear, hlow⟩, heq⟩ | ⟨hfull, heq⟩
  · refine .inr ⟨n, by omega, ?_, fun m hm => ?_, ?_⟩
    · rwa [bit_eq_bitAt disk (by omega)] at hclear
    · have hset := hlow m hm
      rwa [bit_eq_bitAt disk (by omega)] at hset
    · have hpositive : n ≠ 0 := by
        rintro rfl
        rw [bit_eq_bitAt disk (by norm_num), hzero] at hclear
        cases hclear
      have hblock : (3 + n / 8192) % 2 ^ 32 = 3 := by omega
      have hanswer : (toSigned (n % 2 ^ 32) : ℤ) = n := toSigned_of_lt (by omega)
      have hzone : toUnsigned ((n : ℤ) + (mkfsSuper.firstZone : ℕ) - 1) = n + 5 := by
        have hfirst : ((mkfsSuper.firstZone : ℕ) : ℤ) = 6 := rfl
        rw [hfirst, toUnsigned_of_mem (by omega) (by omega)]
        omega
      rw [heq, hanswer, hblock, Nat.mod_eq_of_lt (show n < 8192 by omega)]
      simp only [hzone, Nat.cast_eq_zero, hpositive, if_false]
      by_cases hread : readable (n + 5) = true
      · simp [hread]
      · simp [hread]
  · refine .inl ⟨fun n hn => ?_, ?_⟩
    · rw [← bit_eq_bitAt disk hn]
      exact hfull n (by omega)
    · rw [heq]
      rfl
end Bits
section Runs
variable {blocks : ℕ} {readable : ℕ → Bool} {s t : Zones}

/-- A bit is set if it is reserved, belongs to a zone in use, or to one that could not be read. -/
structure Accounted (blocks : ℕ) (readable : ℕ → Bool) (s : Zones) : Prop where
  used : ∀ n < 8192, bitAt (s.disk 3) n = true →
    n < 2 ∨ blocks ≤ n ∨ n + 5 ∈ s.held ∨ readable (n + 5) = false
  set : ∀ n < 8192, n < 2 ∨ blocks ≤ n ∨ n + 5 ∈ s.held → bitAt (s.disk 3) n = true
  handed : ∀ zone ∈ s.returned, ∃ n, 2 ≤ n ∧ n < 8192 ∧ n < blocks ∧ zone = n + 5 ∧ readable zone
  held : ∀ zone ∈ s.held, zone ∈ s.returned
  nodup : s.held.Nodup

lemma accounted_minixMkfs (hlow : 8 ≤ blocks) (hhigh : blocks ≤ 65535) (readable : ℕ → Bool)
    (disk later : Disk) : Accounted blocks readable ⟨minixMkfs blocks disk later, [], []⟩ where
  used n hn hbit := by
    rw [bitAt_minixMkfs hlow hhigh disk later hn, decide_eq_true_eq] at hbit
    omega
  set n hn hcases := by
    rw [bitAt_minixMkfs hlow hhigh disk later hn, decide_eq_true_eq]
    simpa using hcases
  handed := by simp
  held := by simp
  nodup := nodup_nil

section
variable (h : Accounted blocks readable s)
include h

lemma Accounted.zero : bitAt (s.disk 3) 0 = true :=
  h.set 0 (by norm_num) (.inl (by norm_num))

lemma Accounted.alloc (hstep : ZoneStep readable s .alloc t) : Accounted blocks readable t := by
  rw [ZoneStep, zoneCall] at hstep
  rcases minixAllocZone_cases readable h.zero with ⟨-, heq⟩ | ⟨n, hn, hclear, -, hzone, hbits⟩
  · rw [heq] at hstep
    cases hstep
    exact h
  generalize minixAllocZone mkfsSuper readable s.disk = res at hstep hzone hbits
  have hfree : ¬(n < 2 ∨ blocks ≤ n ∨ n + 5 ∈ s.held) := by
    intro hcases
    rw [h.set n hn hcases] at hclear
    cases hclear
  have hbit (m : ℕ) : bitAt (res.2 3) m = true ↔ bitAt (s.disk 3) m = true ∨ m = n := by
    rw [hbits, bitAt_setBit (by norm_num)]
    simp
  by_cases hread : readable (n + 5) = true
  · simp only [hzone, hread, if_true, Nat.add_eq_zero_iff, OfNat.ofNat_ne_zero, and_false, if_false,
      some.injEq] at hstep
    subst hstep
    refine ⟨fun m hm hset => ?_, fun m hm hcases => ?_, ?_, ?_, ?_⟩
    · rcases (hbit m).mp hset with hold | rfl
      · have hused := h.used m hm hold
        simp only [mem_cons]
        tauto
      · simp
    · rw [hbit]
      simp only [mem_cons] at hcases
      by_cases hmn : m = n
      · exact .inr hmn
      · refine .inl (h.set m hm ?_)
        rcases hcases with hres | hend | heq | hheld
        · exact .inl hres
        · exact .inr (.inl hend)
        · omega
        · exact .inr (.inr hheld)
    · intro zone hmem
      rcases mem_cons.mp hmem with rfl | hold
      · exact ⟨n, by omega, hn, by omega, rfl, hread⟩
      · exact h.handed zone hold
    · intro zone hmem
      rcases mem_cons.mp hmem with rfl | hold
      · exact mem_cons_self ..
      · exact mem_cons_of_mem _ (h.held zone hold)
    · exact nodup_cons.mpr ⟨fun hmem => hfree (.inr (.inr hmem)), h.nodup⟩
  · have hlost : readable (n + 5) = false := by simpa using hread
    simp only [hzone, hlost, Bool.false_eq_true, if_false, if_true, some.injEq] at hstep
    subst hstep
    refine ⟨fun m hm hset => ?_, fun m hm hcases => ?_, h.handed, h.held, h.nodup⟩
    · rcases (hbit m).mp hset with hold | rfl
      · exact h.used m hm hold
      · exact .inr (.inr (.inr hlost))
    · exact (hbit m).mpr (.inl (h.set m hm hcases))

lemma Accounted.free {zone : ℕ} (hstep : ZoneStep readable s (.free zone) t) :
    Accounted blocks readable t := by
  rw [ZoneStep, zoneCall] at hstep
  split_ifs at hstep with hmem
  obtain ⟨n, hlow, hn, hblocks, rfl, -⟩ := h.handed zone (h.held zone hmem)
  have hbitnum : toSigned ((n + 5 + 2 ^ 32 - mkfsSuper.firstZone + 1) % 2 ^ 32) = n := by
    have hword : (n + 5 + 2 ^ 32 - mkfsSuper.firstZone + 1) % 2 ^ 32 = n % 2 ^ 32 := by
      have hfirst : mkfsSuper.firstZone = 6 := rfl
      omega
    rw [hword]
    exact toSigned_of_lt (by omega)
  rw [minixFreeZone, hbitnum, show mkfsSuper.zoneBitmapStart = 3 from rfl,
    bitFree_eq _ (by norm_num), if_pos hn, map_some, some.injEq] at hstep
  subst hstep
  have hbit (m : ℕ) : bitAt (update s.disk 3 (clearBit (s.disk 3) n) 3) m = true ↔
      bitAt (s.disk 3) m = true ∧ m ≠ n := by
    rw [update_self, bitAt_clearBit (by norm_num)]
    simp
  refine ⟨fun m hm hset => ?_, fun m hm hcases => ?_, h.handed, ?_, h.nodup.erase _⟩
  · obtain ⟨hold, hne⟩ := (hbit m).mp hset
    rcases h.used m hm hold with hres | hend | hheld | hlost
    · exact .inl hres
    · exact .inr (.inl hend)
    · exact .inr (.inr (.inl ((mem_erase_of_ne (by omega)).mpr hheld)))
    · exact .inr (.inr (.inr hlost))
  · rw [hbit]
    have hne : m ≠ n := by
      rintro rfl
      rcases hcases with hres | hend | hheld
      · omega
      · omega
      · exact h.nodup.not_mem_erase hheld
    refine ⟨h.set m hm ?_, hne⟩
    rcases hcases with hres | hend | hheld
    · exact .inl hres
    · exact .inr (.inl hend)
    · exact .inr (.inr (mem_of_mem_erase hheld))
  · intro zone hheld
    exact h.held zone (mem_of_mem_erase hheld)

lemma Accounted.run {calls : List ZoneCall} (hrun : Run (ZoneStep readable) s calls t) :
    Accounted blocks readable t := by
  refine hrun.preserves h fun s call t hs hstep => ?_
  cases call with
  | alloc => exact hs.alloc hstep
  | free zone => exact hs.free hstep
end

lemma exists_alloc (readable : ℕ → Bool) (s : Zones) : ∃ t, ZoneStep readable s .alloc t ∧
    t.disk = (minixAllocZone mkfsSuper readable s.disk).2 := by
  simp only [ZoneStep, zoneCall]
  generalize minixAllocZone mkfsSuper readable s.disk = res
  by_cases hzero : res.1 = 0
  · exact ⟨_, if_pos hzero, rfl⟩
  · exact ⟨_, if_neg hzero, rfl⟩

lemma exists_full (h : Accounted blocks readable s) : ∃ calls t,
    Run (ZoneStep readable) s calls t ∧ ∀ n < 8192, bitAt (t.disk 3) n = true := by
  induction hcount : clearCount (s.disk 3) 8192 generalizing s with
  | zero =>
    refine ⟨[], s, .nil s, fun n hn => ?_⟩
    by_contra hclear
    have hpos : 0 < clearCount (s.disk 3) 8192 :=
      clearCount_pos_iff.mpr ⟨n, hn, by simpa using hclear⟩
    omega
  | succ count ih =>
    obtain ⟨t, hstep, hdisk⟩ := exists_alloc readable s
    rcases minixAllocZone_cases readable h.zero with ⟨hfull, -⟩ | ⟨n, hn, hclear, -, -, hbits⟩
    · exact ⟨[], s, .nil s, hfull⟩
    · have hless : clearCount (t.disk 3) 8192 = count := by
        rw [hdisk, hbits, clearCount_setBit (by norm_num) hn hclear, hcount]
        rfl
      obtain ⟨calls, u, hrun, hfull⟩ := ih (h.alloc hstep) hless
      exact ⟨[.alloc] ++ calls, u, (Run.one hstep).trans hrun, hfull⟩

/-- On a new file system the zones are right exactly if no bit stands for a readable block behind
the disk, and the bits of the one bitmap block reach its end. -/
theorem zonesRight_iff {disk later : Disk} (hlow : 8 ≤ blocks) (hhigh : blocks ≤ 65535)
    (hreadable : ∀ zone < blocks, readable zone = true) : ZonesRight blocks readable disk later ↔
      blocks ≤ 8197 ∧ ∀ zone, blocks ≤ zone → zone < blocks + 5 → zone < 8197 →
        readable zone = false := by
  have hfirst : mkfsSuper.firstZone = 6 := rfl
  have hinit := accounted_minixMkfs hlow hhigh readable disk later
  constructor
  · intro hright
    obtain ⟨calls, s, hrun, hfull⟩ := exists_full hinit
    have hs := hinit.run hrun
    obtain ⟨hreturned, hheld⟩ := hright calls s hrun
    constructor
    · by_contra hlarge
      have hzero : (minixAllocZone mkfsSuper readable s.disk).1 = 0 := by
        rcases minixAllocZone_cases readable hs.zero with ⟨-, heq⟩ | ⟨n, hn, hclear, -⟩
        · rw [heq]
        · rw [hfull n hn] at hclear
          cases hclear
      have hmem := hheld hzero 8197 (by omega) (by omega) (by omega)
      obtain ⟨n, -, hn, -, heq, -⟩ := hs.handed 8197 (hs.held _ hmem)
      omega
    · intro zone hzone hbound hend
      by_contra hread
      obtain ⟨n, rfl⟩ : ∃ n, zone = n + 5 := ⟨zone - 5, by omega⟩
      rcases hs.used n (by omega) (hfull n (by omega)) with hres | hlast | hmem | hlost
      · omega
      · omega
      · have := hreturned _ (hs.held _ hmem)
        omega
      · exact hread hlost
  · rintro ⟨hsmall, hbehind⟩ calls s hrun
    have hs := hinit.run hrun
    constructor
    · intro zone hmem
      obtain ⟨n, htwo, hn, hblocks, rfl, hread⟩ := hs.handed zone hmem
      refine ⟨by omega, ?_, by omega⟩
      by_contra hlarge
      rw [hbehind (n + 5) (by omega) (by omega) (by omega)] at hread
      cases hread
    · intro hzero zone hfrom hto hroot
      obtain ⟨m, rfl⟩ : ∃ m, zone = m + 5 := ⟨zone - 5, by omega⟩
      have hset : bitAt (s.disk 3) m = true := by
        rcases minixAllocZone_cases readable hs.zero with ⟨hfull, -⟩ | ⟨n, hn, -, hbelow, hanswer, -⟩
        · exact hfull m (by omega)
        · apply hbelow
          by_contra hge
          have hread := hreadable (n + 5) (by omega)
          rw [hzero, hread] at hanswer
          simp at hanswer
      rcases hs.used m (by omega) hset with hres | hlast | hmem | hlost
      · omega
      · omega
      · exact hmem
      · rw [hreadable (m + 5) hto] at hlost
        cases hlost

theorem zones_right_8197 : ZonesRight 8197 (fun _ => true) (fun _ _ => 0#8) fun _ _ => 0#8 := by
  rw [zonesRight_iff (by norm_num) (by norm_num) fun _ _ => rfl]
  exact ⟨le_rfl, fun zone hfrom _ hto => by omega⟩

/-- The last bits of the bitmap stand for no block. -/
theorem zone_behind_disk : ¬ZonesRight 8 (fun _ => true) (fun _ _ => 0#8) fun _ _ => 0#8 := by
  obtain ⟨s, hrun, hreturned⟩ : ∃ s, Run (ZoneStep fun _ => true)
      ⟨minixMkfs 8 (fun _ _ => 0#8) fun _ _ => 0#8, [], []⟩ [.alloc, .alloc] s ∧
        s.returned = [8, 7] :=
    exists_run (fun _ _ _ h => h) (by decide +kernel)
  intro hright
  obtain ⟨-, hinside, -⟩ := (hright _ _ hrun).1 8 (by simp [hreturned])
  exact absurd hinside (by decide)
end Runs
end Gloworm.MinixBitmap
