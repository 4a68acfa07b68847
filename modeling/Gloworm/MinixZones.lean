import Gloworm.MinixMkfs
import Gloworm.ByteOrder
import Gloworm.TableForests

/-! The zones of the files of a minix file system: the way from a zone number of a file through its
indirect tables, and the zones that are taken on it. -/
namespace Gloworm.MinixZone
open Function Word Bitmap ByteOrder MinixBitmap TableForest List

def minixV1Tier1Zonenums : ℕ := 7
def minixV1InodeZonenums : ℕ := 9
def minixV1ZonenumsPerZone : ℕ := 512

structure Store where
  disk : Disk
  zones : ℕ → ℕ → ℕ

inductive Slot
  | inode (file i : ℕ)
  | table (block j : ℕ)

def Store.get (s : Store) : Slot → ℕ
  | .inode file i => s.zones file i
  | .table block j => swap16 (load16 (s.disk block) (2 * j))

def Store.put (s : Store) (zone : ℕ) : Slot → Store
  | .inode file i =>
    { s with zones := update s.zones file (update (s.zones file) i zone) }
  | .table block j =>
    { s with disk := update s.disk block (store16 (s.disk block) (2 * j) (swap16 zone)) }

def zoneCalculateTier (znum : ℕ) : Option (ℕ × List ℕ) :=
  if znum < minixV1Tier1Zonenums then some (znum, [])
  else
    let znum := znum - minixV1Tier1Zonenums
    if znum < minixV1ZonenumsPerZone then some (minixV1Tier1Zonenums, [znum])
    else
      let znum := znum - minixV1ZonenumsPerZone
      if znum < minixV1ZonenumsPerZone * minixV1ZonenumsPerZone then
        some (minixV1Tier1Zonenums + 1, [znum >>> 9, znum &&& (minixV1ZonenumsPerZone - 1)])
      else none

/-- The zone, the tables that were read, and the answers of `minix_alloc_zone`. -/
structure Found where
  zone : ℕ
  store : Store
  read : List ℕ
  taken : List ℕ

section Lookup
variable (super : Super) (readable : ℕ → Bool)

def fillSlot (s : Store) (slot : Slot) : ℕ × Store :=
  let (zone, disk) := minixAllocZone super readable s.disk
  (zone, { s with disk := disk }.put (zone % 2 ^ 16) slot)

def zoneLoop (create : Bool) : List ℕ → Store → Slot → Found
  | [], s, slot =>
    if s.get slot ≠ 0 then ⟨s.get slot, s, [], []⟩
    else if create then
      let (zone, s) := fillSlot super readable s slot
      ⟨zone % 2 ^ 16, s, [], [zone]⟩
    else ⟨0, s, [], []⟩
  | j :: rest, s, slot =>
    if s.get slot ≠ 0 then
      if readable (s.get slot) then
        let found := zoneLoop create rest s (.table (s.get slot) j)
        { found with read := s.get slot :: found.read }
      else ⟨0, s, [], []⟩
    else if create then
      let (zone, s) := fillSlot super readable s slot
      if readable (zone % 2 ^ 16) then
        let found := zoneLoop create rest s (.table (zone % 2 ^ 16) j)
        { found with read := zone % 2 ^ 16 :: found.read, taken := zone :: found.taken }
      else ⟨0, s, [], [zone]⟩
    else ⟨0, s, [], []⟩

def zoneLookup (create : Bool) (s : Store) (file znum : ℕ) : Found :=
  match zoneCalculateTier znum with
  | none => ⟨0, s, [], []⟩
  | some (i, rest) => zoneLoop super readable create rest s (.inode file i)
end Lookup

def Store.forest (s : Store) : Forest (ℕ × ℕ) where
  root r := if r.2 < minixV1InodeZonenums then s.zones r.1 r.2 else 0
  cell block j := swap16 (load16 (s.disk block) (2 * j))

def tierDepth (i : ℕ) : ℕ :=
  if i < minixV1Tier1Zonenums then 0 else i + 1 - minixV1Tier1Zonenums

def shape : Shape (ℕ × ℕ) where
  depth r := tierDepth r.2
  width := minixV1ZonenumsPerZone

def Store.slot (s : Store) (file i : ℕ) (path : List ℕ) : Slot :=
  match path.getLast? with
  | none => .inode file i
  | some j => .table (s.forest.block (file, i) path.dropLast) j

/-- The number of clear bits in the zone bitmap. -/
def freeZones (super : Super) (disk : Disk) : ℕ :=
  ((Finset.range (8192 * super.zmapBlocks)).filter fun n =>
    bit disk super.zoneBitmapStart n = false).card

/-- The zone that bit `n` of the zone bitmap stands for. -/
def zoneOf (super : Super) (n : ℕ) : ℕ := n + super.firstZone - 1

/-- The number of free zones in front of the first one whose block cannot be read. -/
def readyZones (super : Super) (readable : ℕ → Bool) (disk : Disk) : ℕ :=
  ((Finset.range (8192 * super.zmapBlocks)).filter fun n =>
    bit disk super.zoneBitmapStart n = false ∧ ∀ m ≤ n,
      bit disk super.zoneBitmapStart m = false → readable (zoneOf super m) = true).card

/-- The zones of the files are in use and are not shared, and a free one can be named in a table. -/
structure Sound (super : Super) (s : Store) : Prop where
  layout : 2 + super.imapBlocks + super.zmapBlocks ≤ super.firstZone
  first : super.firstZone < 2 ^ 16
  exclusive : Exclusive shape s.forest
  used : ∀ r p, shape.Valid r p → s.forest.block r p ≠ 0 →
    ∃ n, 1 ≤ n ∧ n < 8192 * super.zmapBlocks ∧ bit s.disk super.zoneBitmapStart n = true ∧
      s.forest.block r p = zoneOf super n
  free : ∀ n < 8192 * super.zmapBlocks, bit s.disk super.zoneBitmapStart n = false →
    1 ≤ n ∧ zoneOf super n < 2 ^ 16

section Forest
variable {s : Store} {file i z : ℕ}

lemma forest_put_inode (hi : i < minixV1InodeZonenums) :
    (s.put z (.inode file i)).forest = s.forest.setRoot (file, i) z := by
  rw [Store.put, Store.forest, Forest.setRoot, Forest.mk.injEq]
  refine ⟨?_, rfl⟩
  funext r
  obtain ⟨f, k⟩ := r
  by_cases hf : f = file
  · subst hf
    by_cases hk : k = i
    · subst hk
      simp [hi]
    · simp [Store.forest, hk]
  · simp [Store.forest, hf]

lemma forest_put_table {block j : ℕ} (hz : z < 2 ^ 16) :
    (s.put z (.table block j)).forest = s.forest.setCell block j z := by
  rw [Store.put, Store.forest, Forest.setCell, Forest.mk.injEq]
  refine ⟨rfl, ?_⟩
  funext b k
  by_cases hb : b = block
  · subst hb
    by_cases hk : k = j
    · subst hk
      simp only [update_self]
      rw [load16_store16 (swap16_lt z), swap16_swap16 hz]
    · simp only [update_self, update_of_ne hk]
      rw [load16_store16_of_apart (by omega)]
      rfl
  · simp only [update_of_ne hb]
    rfl

lemma get_slot {p : List ℕ} (hi : i < minixV1InodeZonenums)
    (hp : p = [] ∨ s.forest.block (file, i) p.dropLast ≠ 0) :
    s.get (s.slot file i p) = s.forest.block (file, i) p := by
  rcases eq_nil_or_concat' p with rfl | ⟨q, j, rfl⟩
  · simp [Store.slot, Store.get, Store.forest, hi]
  · have htable : s.forest.block (file, i) q ≠ 0 := by simpa using hp
    rw [block_snoc, if_neg htable, Store.slot, List.getLast?_concat, dropLast_concat]
    rfl

lemma slot_snoc (p : List ℕ) (j : ℕ) :
    s.slot file i (p ++ [j]) = .table (s.forest.block (file, i) p) j := by
  rw [Store.slot, List.getLast?_concat, dropLast_concat]

lemma put_zero {slot : Slot} (h : s.get slot = 0) : s.put 0 slot = s := by
  cases slot with
  | inode file i =>
    have hsame : update (s.zones file) i 0 = s.zones file := by
      rw [update_eq_self_iff]
      exact h.symm
    simp [Store.put, hsame]
  | table block j =>
    have hword : load16 (s.disk block) (2 * j) = swap16 0 := by
      rw [← h, Store.get, swap16_swap16 (load16_lt _ _)]
    have hsame : store16 (s.disk block) (2 * j) (swap16 0) = s.disk block := by
      rw [← hword]
      exact store16_load16 _ _
    simp [Store.put, hsame]
end Forest

variable {m : ℕ} {r : ℕ × ℕ}

section Alloc
variable {super : Super} {s : Store} {readable : ℕ → Bool} {n : ℕ}

lemma zoneOf_ge (super : Super) (hn : 1 ≤ n) : super.firstZone ≤ zoneOf super n := by
  rw [zoneOf]
  omega

lemma zoneOf_inj (hn : 1 ≤ n) (hm : 1 ≤ m) (h : zoneOf super n = zoneOf super m) : n = m := by
  rw [zoneOf, zoneOf] at h
  omega

def marked (super : Super) (disk : Disk) (n : ℕ) : Disk :=
  update disk (super.zoneBitmapStart + n / 8192)
    (setBit (disk (super.zoneBitmapStart + n / 8192)) (n % 8192))

def allocated (super : Super) (disk : Disk) (n : ℕ) : Disk :=
  update (marked super disk n) (zoneOf super n) fun _ => 0#8

lemma readyZones_le (super : Super) (readable : ℕ → Bool) (disk : Disk) :
    readyZones super readable disk ≤ freeZones super disk := by
  apply Finset.card_le_card
  intro n hn
  simp only [Finset.mem_filter] at hn ⊢
  exact ⟨hn.1, hn.2.1⟩

lemma readyZones_true (super : Super) (disk : Disk) :
    readyZones super (fun _ => true) disk = freeZones super disk := by
  simp [readyZones, freeZones]

lemma readyZones_of_unreadable {disk : Disk}
    (hn : FirstClear disk super.zoneBitmapStart super.zmapBlocks n)
    (hread : readable (zoneOf super n) = false) : readyZones super readable disk = 0 := by
  rw [readyZones, Finset.card_eq_zero, Finset.filter_eq_empty_iff]
  rintro m - ⟨hclear, hready⟩
  have hle : n ≤ m := by
    by_contra hlt
    simp [hn.2.2 m (by omega)] at hclear
  simp [hready n hle hn.2.1] at hread

section Counts
variable {disk disk' : Disk} (hbit : ∀ m < 8192 * super.zmapBlocks,
  bit disk' super.zoneBitmapStart m = if m = n then true else bit disk super.zoneBitmapStart m)
  (hn : FirstClear disk super.zoneBitmapStart super.zmapBlocks n)
include hbit hn

/-- Taking the first free zone leaves one ready zone less. -/
lemma readyZones_of_bit (hread : readable (zoneOf super n) = true) :
    readyZones super readable disk' + 1 = readyZones super readable disk := by
  have herase : ((Finset.range (8192 * super.zmapBlocks)).filter fun m =>
        bit disk' super.zoneBitmapStart m = false ∧ ∀ k ≤ m,
          bit disk' super.zoneBitmapStart k = false → readable (zoneOf super k) = true) =
      ((Finset.range (8192 * super.zmapBlocks)).filter fun m =>
        bit disk super.zoneBitmapStart m = false ∧ ∀ k ≤ m,
          bit disk super.zoneBitmapStart k = false → readable (zoneOf super k) = true).erase n := by
    ext m
    simp only [Finset.mem_filter, Finset.mem_erase, Finset.mem_range]
    constructor
    · rintro ⟨hm, hclear, hready⟩
      rw [hbit m hm] at hclear
      split_ifs at hclear with heq
      refine ⟨heq, hm, hclear, ?_⟩
      intro k hk hclear'
      by_cases hkn : k = n
      · rw [hkn]
        exact hread
      · apply hready k hk
        rw [hbit k (by omega), if_neg hkn]
        exact hclear'
    · rintro ⟨hne, hm, hclear, hready⟩
      rw [hbit m hm, if_neg hne]
      refine ⟨hm, hclear, ?_⟩
      intro k hk hclear'
      rw [hbit k (by omega)] at hclear'
      split_ifs at hclear' with hkn
      exact hready k hk hclear'
  have hmem : n ∈ (Finset.range (8192 * super.zmapBlocks)).filter fun m =>
      bit disk super.zoneBitmapStart m = false ∧ ∀ k ≤ m,
        bit disk super.zoneBitmapStart k = false → readable (zoneOf super k) = true := by
    refine Finset.mem_filter.mpr ⟨Finset.mem_range.mpr hn.1, hn.2.1, ?_⟩
    intro k hk hclear
    rcases hk.lt_or_eq with hlt | rfl
    · simp [hn.2.2 k hlt] at hclear
    · exact hread
  rw [readyZones, readyZones, herase, Finset.card_erase_add_one hmem]

lemma freeZones_of_bit : freeZones super disk' + 1 = freeZones super disk := by
  rw [← readyZones_true, ← readyZones_true]
  exact readyZones_of_bit hbit hn rfl
end Counts

variable (hs : Sound super s)
include hs

lemma Sound.bitmap_lt (hm : m < 8192 * super.zmapBlocks) :
    super.zoneBitmapStart + m / 8192 < super.firstZone := by
  have hlayout := hs.layout
  rw [Super.zoneBitmapStart]
  omega

lemma Sound.reached_ge {p : List ℕ} (hp : shape.Valid r p)
    (h : s.forest.block r p ≠ 0) : super.firstZone ≤ s.forest.block r p := by
  obtain ⟨m, hm, -, -, heq⟩ := hs.used r p hp h
  rw [heq]
  exact zoneOf_ge super hm

lemma Sound.fresh (hn : n < 8192 * super.zmapBlocks)
    (hclear : bit s.disk super.zoneBitmapStart n = false) :
    Fresh shape s.forest (zoneOf super n) := by
  have hpos := (hs.free n hn hclear).1
  have hge := zoneOf_ge super hpos
  have hlayout := hs.layout
  refine ⟨by omega, ?_⟩
  intro r p hp heq
  obtain ⟨m, hm, -, hset, hzone⟩ := hs.used r p hp (by omega)
  rw [heq] at hzone
  obtain rfl := zoneOf_inj hpos hm hzone
  rw [hclear] at hset
  cases hset

/-- The first clear bit is set, and its zone is the answer if the block can be read. -/
lemma minixAllocZone_spec (readable : ℕ → Bool) :
    (freeZones super s.disk = 0 ∧ minixAllocZone super readable s.disk = (0, s.disk)) ∨
    ∃ n, FirstClear s.disk super.zoneBitmapStart super.zmapBlocks n ∧
      minixAllocZone super readable s.disk =
        if readable (zoneOf super n) then (zoneOf super n, allocated super s.disk n)
        else (0, marked super s.disk n) := by
  rcases bitAlloc_spec s.disk super.zoneBitmapStart super.zmapBlocks with
    ⟨n, hn, heq⟩ | ⟨hfull, heq⟩
  · obtain ⟨hpos, hlt⟩ := hs.free n hn.1 hn.2.1
    have hblock := hs.bitmap_lt hn.1
    have hfirst := hs.first
    have hword : toSigned (n % 2 ^ 32) = n := by
      rw [zoneOf] at hlt
      exact toSigned_of_lt (by omega)
    have hzone : toUnsigned ((n : ℤ) + super.firstZone - 1) = zoneOf super n := by
      rw [zoneOf] at hlt ⊢
      rw [toUnsigned_of_mem (by omega) (by omega)]
      omega
    have hmod : (super.zoneBitmapStart + n / 8192) % 2 ^ 32 = super.zoneBitmapStart + n / 8192 :=
      Nat.mod_eq_of_lt (by omega)
    refine .inr ⟨n, hn, ?_⟩
    rw [minixAllocZone, heq]
    simp only [hword, hzone, hmod]
    rw [if_neg (by omega), allocated, marked]
  · refine .inl ⟨?_, ?_⟩
    · rw [freeZones, Finset.card_eq_zero, Finset.filter_eq_empty_iff]
      intro m hm
      simp [hfull m (Finset.mem_range.mp hm)]
    · rw [minixAllocZone, heq]
      rfl

lemma bit_marked (hm : m < 8192 * super.zmapBlocks) :
    bit (marked super s.disk n) super.zoneBitmapStart m =
      if m = n then true else bit s.disk super.zoneBitmapStart m := by
  have hmblock := hs.bitmap_lt hm
  have hfirst := hs.first
  have hmod : (super.zoneBitmapStart + m / 8192) % 2 ^ 32 = super.zoneBitmapStart + m / 8192 :=
    Nat.mod_eq_of_lt (by omega)
  rw [bit, bit, hmod, marked]
  by_cases hblock : m / 8192 = n / 8192
  · rw [hblock, update_self, bitAt_setBit (by norm_num)]
    by_cases heq : m = n
    · simp [heq]
    · have hplace : m % 8192 ≠ n % 8192 := by omega
      simp [heq, hplace]
  · rw [update_of_ne (by omega), if_neg (by
      rintro rfl
      exact hblock rfl)]

lemma bit_allocated (hpos : 1 ≤ n) (hm : m < 8192 * super.zmapBlocks) :
    bit (allocated super s.disk n) super.zoneBitmapStart m =
      if m = n then true else bit s.disk super.zoneBitmapStart m := by
  have hmblock := hs.bitmap_lt hm
  have hfirst := hs.first
  have hge := zoneOf_ge super hpos
  have hmod : (super.zoneBitmapStart + m / 8192) % 2 ^ 32 = super.zoneBitmapStart + m / 8192 :=
    Nat.mod_eq_of_lt (by omega)
  rw [← bit_marked hs hm, bit, bit, hmod, allocated, update_of_ne (by omega)]
end Alloc

def InBitmap (super : Super) (block : ℕ) : Prop :=
  super.zoneBitmapStart ≤ block ∧ block < super.zoneBitmapStart + super.zmapBlocks

/-- A zone whose block can be read has been taken for the place `path` of a file. -/
structure Grown (super : Super) (readable : ℕ → Bool) (s s' : Store) (file i : ℕ) (path : List ℕ)
    (zone : ℕ) : Prop where
  valid : shape.Valid (file, i) path
  parent : path = [] ∨ s.forest.block (file, i) path.dropLast ≠ 0
  empty : s.forest.block (file, i) path = 0
  fresh : Fresh shape s.forest zone
  zone_lt : zone < 2 ^ 16
  block : ∀ r q, shape.Valid r q → s'.forest.block r q =
    if r = (file, i) ∧ q = path then zone else s.forest.block r q
  sound : Sound super s'
  readable_zone : readable zone = true
  free : freeZones super s'.disk + 1 = freeZones super s.disk
  ready : readyZones super readable s'.disk + 1 = readyZones super readable s.disk
  clear : s'.disk zone = fun _ => 0#8
  disk : ∀ b, s'.disk b ≠ s.disk b → b = zone ∨ InBitmap super b ∨
    path ≠ [] ∧ b = s.forest.block (file, i) path.dropLast

/-- No zone has been taken. The bit of one that cannot be read is set all the same. -/
structure Spoiled (super : Super) (s s' : Store) : Prop where
  block : ∀ r q, shape.Valid r q → s'.forest.block r q = s.forest.block r q
  sound : Sound super s'
  free : freeZones super s'.disk = freeZones super s.disk - 1
  same : freeZones super s.disk = 0 → s' = s
  disk : ∀ b, s'.disk b ≠ s.disk b → InBitmap super b

section Fill
variable {super : Super} {s : Store} {readable : ℕ → Bool} {file i n : ℕ} {p : List ℕ}

lemma allocated_apply {b : ℕ} (hzone : b ≠ zoneOf super n)
    (hblock : b ≠ super.zoneBitmapStart + n / 8192) : allocated super s.disk n b = s.disk b := by
  rw [allocated, update_of_ne hzone, marked, update_of_ne hblock]

lemma block_of_disk {disk : Disk} (h : ∀ r p, shape.Valid r p → s.forest.block r p ≠ 0 →
      disk (s.forest.block r p) = s.disk (s.forest.block r p)) {q : List ℕ}
    (hq : shape.Valid r q) :
    ({ s with disk := disk } : Store).forest.block r q = s.forest.block r q := by
  refine block_congr (fun _ => rfl) ?_ hq
  intro r p hp hne j _
  change swap16 (load16 (disk (s.forest.block r p)) (2 * j)) = _
  rw [h r p hp.1 hne]
  rfl

lemma block_marked (hs : Sound super s) (hn : n < 8192 * super.zmapBlocks) {q : List ℕ}
    (hq : shape.Valid r q) : ({ s with disk := marked super s.disk n } : Store).forest.block r q =
      s.forest.block r q := by
  refine block_of_disk ?_ hq
  intro r p hp hne
  have hge := hs.reached_ge hp hne
  have hblock := hs.bitmap_lt hn
  rw [marked, update_of_ne (by omega)]

lemma block_allocated (hs : Sound super s) (hn : n < 8192 * super.zmapBlocks)
    (hclear : bit s.disk super.zoneBitmapStart n = false) {q : List ℕ} (hq : shape.Valid r q) :
    ({ s with disk := allocated super s.disk n } : Store).forest.block r q =
      s.forest.block r q := by
  refine block_of_disk ?_ hq
  intro r p hp hne
  have hge := hs.reached_ge hp hne
  have hblock := hs.bitmap_lt hn
  exact allocated_apply ((hs.fresh hn hclear).2 r p hp) (by omega)

lemma cell_allocated (s : Store) (super : Super) (n j : ℕ) :
    ({ s with disk := allocated super s.disk n } : Store).forest.cell (zoneOf super n) j = 0 := by
  have hzero : allocated super s.disk n (zoneOf super n) = fun _ => 0#8 := update_self ..
  simp only [Store.forest, hzero]
  simp [load16, swap16]

/-- The new zone stands at its place, and every other place keeps its own. -/
lemma block_put_allocated (hs : Sound super s) (hn : n < 8192 * super.zmapBlocks)
    (hclear : bit s.disk super.zoneBitmapStart n = false) (hi : i < minixV1InodeZonenums)
    (hp : shape.Valid (file, i) p) (hparent : p = [] ∨ s.forest.block (file, i) p.dropLast ≠ 0)
    (hempty : s.forest.block (file, i) p = 0) {q : List ℕ} (hq : shape.Valid r q) :
    (({ s with disk := allocated super s.disk n } : Store).put (zoneOf super n)
      (s.slot file i p)).forest.block r q =
      if r = (file, i) ∧ q = p then zoneOf super n else s.forest.block r q := by
  have hblock : ∀ r q, shape.Valid r q →
      ({ s with disk := allocated super s.disk n } : Store).forest.block r q =
        s.forest.block r q := fun r q hq => block_allocated hs hn hclear hq
  have hcell := fun j (_ : j < shape.width) => cell_allocated s super n j
  have hfresh := hs.fresh hn hclear
  have hlt := (hs.free n hn hclear).2
  generalize ht : ({ s with disk := allocated super s.disk n } : Store) = t at hblock hcell ⊢
  rcases eq_nil_or_concat' p with rfl | ⟨p, j, rfl⟩
  · have hslot : s.slot file i [] = .inode file i := rfl
    rw [hslot, forest_put_inode hi, block_setRoot ?_ hcell hq, hblock r q hq]
    rw [← block_nil, hblock _ _ hp, hempty]
  · have htable : s.forest.block (file, i) p ≠ 0 := by simpa using hparent
    have hexclusive : Exclusive shape t.forest := by
      intro r₁ p₁ r₂ p₂ h₁ h₂
      rw [hblock r₁ p₁ h₁, hblock r₂ p₂ h₂]
      exact hs.exclusive r₁ p₁ r₂ p₂ h₁ h₂
    have hfresh' : Fresh shape t.forest (zoneOf super n) := by
      refine ⟨hfresh.1, ?_⟩
      intro r q hq
      rw [hblock r q hq]
      exact hfresh.2 r q hq
    rw [slot_snoc, forest_put_table hlt, ← hblock _ _ hp.of_snoc,
      block_setCell hexclusive hfresh' hcell hp ?_ ?_ hq, hblock r q hq]
    · rw [hblock _ _ hp.of_snoc]
      exact htable
    · rw [hblock _ _ hp, hempty]

lemma disk_put_slot (t : Store) (z : ℕ) {b : ℕ}
    (hb : p = [] ∨ b ≠ s.forest.block (file, i) p.dropLast) :
    (t.put z (s.slot file i p)).disk b = t.disk b := by
  rcases eq_nil_or_concat' p with rfl | ⟨p, j, rfl⟩
  · rfl
  · have hne : b ≠ s.forest.block (file, i) p := by simpa using hb
    rw [slot_snoc]
    exact update_of_ne hne _ _

lemma bit_put_allocated (hs : Sound super s) (hpos : 1 ≤ n)
    (hp : shape.Valid (file, i) p) (hparent : p = [] ∨ s.forest.block (file, i) p.dropLast ≠ 0)
    (hm : m < 8192 * super.zmapBlocks) :
    bit (({ s with disk := allocated super s.disk n } : Store).put (zoneOf super n)
      (s.slot file i p)).disk super.zoneBitmapStart m =
      if m = n then true else bit s.disk super.zoneBitmapStart m := by
  have hfirst := hs.first
  have hblock := hs.bitmap_lt hm
  have hmod : (super.zoneBitmapStart + m / 8192) % 2 ^ 32 = super.zoneBitmapStart + m / 8192 :=
    Nat.mod_eq_of_lt (by omega)
  have hapart : p = [] ∨ super.zoneBitmapStart + m / 8192 ≠ s.forest.block (file, i) p.dropLast := by
    rcases hparent with hnil | hne
    · exact .inl hnil
    · have hge := hs.reached_ge hp.dropLast hne
      right
      omega
  rw [← bit_allocated hs hpos hm, bit, bit, hmod, disk_put_slot _ _ hapart]

lemma Spoiled.refl (hs : Sound super s) (hfull : freeZones super s.disk = 0) :
    Spoiled super s s :=
  ⟨fun _ _ _ => rfl, hs, by omega, fun _ => rfl, fun _ hne => absurd rfl hne⟩

lemma spoiled_marked (hs : Sound super s)
    (hn : FirstClear s.disk super.zoneBitmapStart super.zmapBlocks n) :
    Spoiled super s { s with disk := marked super s.disk n } := by
  have hfree := freeZones_of_bit (fun _ hm => bit_marked hs hm) hn
  have hblock := fun r q (hq : shape.Valid r q) => block_marked hs hn.1 hq
  refine ⟨hblock, ⟨hs.layout, hs.first, ?_, ?_, ?_⟩, Nat.eq_sub_of_add_eq hfree, by omega, ?_⟩
  · intro r₁ p₁ r₂ p₂ h₁ h₂
    rw [hblock r₁ p₁ h₁, hblock r₂ p₂ h₂]
    exact hs.exclusive r₁ p₁ r₂ p₂ h₁ h₂
  · intro r q hq hne
    rw [hblock r q hq] at hne ⊢
    obtain ⟨m, hm, hm', hset, hzone⟩ := hs.used r q hq hne
    refine ⟨m, hm, hm', ?_, hzone⟩
    rw [bit_marked hs hm', hset, ite_self]
  · intro m hm hclear
    rw [bit_marked hs hm] at hclear
    split_ifs at hclear
    exact hs.free m hm hclear
  · intro b hb
    have hlt := hn.1
    by_contra hbitmap
    apply hb
    apply update_of_ne
    rintro rfl
    exact hbitmap ⟨by omega, by omega⟩

section
variable (hs : Sound super s) (hi : i < minixV1InodeZonenums) (hp : shape.Valid (file, i) p)
  (hparent : p = [] ∨ s.forest.block (file, i) p.dropLast ≠ 0)
  (hempty : s.forest.block (file, i) p = 0)
include hs hi hp hparent hempty

lemma put_zero_marked (hn : n < 8192 * super.zmapBlocks) :
    ({ s with disk := marked super s.disk n } : Store).put 0 (s.slot file i p) =
      { s with disk := marked super s.disk n } := by
  have hblock := fun q (hq : shape.Valid (file, i) q) => block_marked hs hn hq
  have hslot : s.slot file i p = ({ s with disk := marked super s.disk n } : Store).slot file i p := by
    rw [Store.slot, Store.slot, hblock _ hp.dropLast]
  rw [hslot]
  apply put_zero
  rw [get_slot hi (by rwa [hblock _ hp.dropLast]), hblock _ hp, hempty]

lemma grown_allocated (hn : FirstClear s.disk super.zoneBitmapStart super.zmapBlocks n)
    (hread : readable (zoneOf super n) = true) : Grown super readable s
      (({ s with disk := allocated super s.disk n } : Store).put (zoneOf super n)
        (s.slot file i p)) file i p (zoneOf super n) := by
  obtain ⟨hpos, hlt⟩ := hs.free n hn.1 hn.2.1
  have hfresh := hs.fresh hn.1 hn.2.1
  have hblock := fun r q (hq : shape.Valid r q) =>
    block_put_allocated hs hn.1 hn.2.1 hi hp hparent hempty hq
  have hbit := fun m (hm : m < 8192 * super.zmapBlocks) =>
    bit_put_allocated hs hpos hp hparent hm
  refine ⟨hp, hparent, hempty, hfresh, hlt, hblock, ?_, hread, freeZones_of_bit hbit hn,
    readyZones_of_bit hbit hn hread, ?_, ?_⟩
  · refine ⟨hs.layout, hs.first, hs.exclusive.grow hfresh hblock, ?_, ?_⟩
    · intro r q hq hne
      rw [hblock r q hq] at hne ⊢
      split_ifs at hne ⊢ with hnew
      · refine ⟨n, hpos, hn.1, ?_, rfl⟩
        rw [hbit n hn.1, if_pos rfl]
      · obtain ⟨m, hm, hm', hset, hzone⟩ := hs.used r q hq hne
        refine ⟨m, hm, hm', ?_, hzone⟩
        rw [hbit m hm', hset, ite_self]
    · intro m hm hclear'
      rw [hbit m hm] at hclear'
      split_ifs at hclear' with hnew
      exact hs.free m hm hclear'
  · rw [disk_put_slot _ _ (.inr (hfresh.2 _ _ hp.dropLast).symm)]
    exact update_self ..
  · intro b hb
    have hlt := hn.1
    by_contra hnot
    push Not at hnot
    obtain ⟨hzone, hbitmap, hslot⟩ := hnot
    apply hb
    rw [disk_put_slot _ _ (or_iff_not_imp_left.mpr hslot)]
    apply allocated_apply hzone
    rintro rfl
    apply hbitmap
    exact ⟨by omega, by omega⟩

/-- No zone is ready and none is taken, or the first free one is put into the slot. -/
lemma fillSlot_cases (readable : ℕ → Bool) : (readyZones super readable s.disk = 0 ∧
      ∃ s', fillSlot super readable s (s.slot file i p) = (0, s') ∧ Spoiled super s s') ∨
    ∃ zone s', fillSlot super readable s (s.slot file i p) = (zone, s') ∧
      Grown super readable s s' file i p zone := by
  have hget : s.get (s.slot file i p) = 0 := by rw [get_slot hi hparent, hempty]
  rcases minixAllocZone_spec hs readable with ⟨hfull, heq⟩ | ⟨n, hn, heq⟩
  · have hle := readyZones_le super readable s.disk
    refine .inl ⟨by omega, s, ?_, Spoiled.refl hs hfull⟩
    rw [fillSlot, heq]
    simp only [Nat.zero_mod, put_zero hget]
  · cases hread : readable (zoneOf super n) with
    | false =>
      refine .inl ⟨readyZones_of_unreadable hn hread, _, ?_, spoiled_marked hs hn⟩
      rw [fillSlot, heq, hread]
      simp only [Bool.false_eq_true, if_false, Nat.zero_mod,
        put_zero_marked hs hi hp hparent hempty hn.1]
    | true =>
      refine .inr ⟨zoneOf super n, _, ?_, grown_allocated hs hi hp hparent hempty hn hread⟩
      rw [fillSlot, heq, hread]
      simp only [if_true, Nat.mod_eq_of_lt (hs.free n hn.1 hn.2.1).2]
end
end Fill
end Gloworm.MinixZone
