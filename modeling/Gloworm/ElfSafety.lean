import Gloworm.ElfModel

/-! What loading an ELF binary guarantees for an arbitrary file: it refuses the file, or maps every
loadable segment, sets the entry point and writes only to the image. -/
namespace Gloworm.Elf
open Word CheckedBytes MemoryMap List

section Alignment
variable {value k : ℕ}

lemma alignUp_lt (value k : ℕ) : alignUp value (2 ^ k) < 2 ^ 32 :=
  (Nat.sub_le _ _).trans_lt (add32_lt _ _)

lemma alignDown_le (value size : ℕ) : alignDown value size ≤ value := Nat.sub_le _ _

lemma alignUp_cases (hk : k ≤ 16) (hvalue : value < 2 ^ 32) :
    alignUp value (2 ^ k) = 0 ∨ value ≤ alignUp value (2 ^ k) := by
  have hpos : 0 < 2 ^ k := Nat.two_pow_pos k
  have hle : 2 ^ k ≤ 2 ^ 16 := Nat.pow_le_pow_right (by decide) hk
  by_cases hroom : value + 2 ^ k ≤ 2 ^ 32
  · exact .inr (alignUp_spec hroom).1
  · left
    have hsum : add32 value (2 ^ k - 1) = value + (2 ^ k - 1) - 2 ^ 32 := by
      unfold add32
      omega
    rw [alignUp, alignDown_two_pow, hsum, Nat.mod_eq_of_lt (by omega), Nat.sub_self]

lemma le_top_alignUp (hk : k ≤ 16) (hvalue : value ≤ 2 ^ 32) :
    value ≤ top (alignUp (value % 2 ^ 32) (2 ^ k)) := by
  rcases alignUp_cases (k := k) hk (Nat.mod_lt value (by decide : 0 < 2 ^ 32)) with hzero | hle
  · rw [hzero, top, if_pos rfl]
    exact hvalue
  · rw [top]
    split_ifs with hzero
    · exact hvalue
    · rcases hvalue.lt_or_eq with hlt | heq
      · rwa [Nat.mod_eq_of_lt hlt] at hle ⊢
      · subst heq
        have hnone : alignUp (2 ^ 32 % 2 ^ 32) (2 ^ k) = 0 := by
          have hpos : 0 < 2 ^ k := Nat.two_pow_pos k
          have hmax : 2 ^ k ≤ 2 ^ 16 := Nat.pow_le_pow_right (by decide) hk
          have hsum : add32 (2 ^ 32 % 2 ^ 32) (2 ^ k - 1) = 2 ^ k - 1 := by
            unfold add32
            omega
          rw [alignUp, alignDown_two_pow, hsum, Nat.mod_eq_of_lt (by omega), Nat.sub_self]
        exact absurd hnone hzero

lemma add32_sub32 {a b : ℕ} (ha : a < 2 ^ 32) (hb : b < 2 ^ 32) : add32 a (sub32 b a) = b := by
  unfold add32 sub32
  omega
end Alignment

variable {map map' : Map} {w : Write}

section Segments
variable {c : Config} {env : Env c} {f : File} {base : ℕ} {preload : Bool} {h : Phdr}

lemma memoryStart_le : h.memoryStart c base ≤ h.fileStart base := by
  rw [Phdr.memoryStart]
  exact alignDown_le _ _

lemma fileStart_lt : h.fileStart base < 2 ^ 32 := by
  rw [Phdr.fileStart]
  exact add32_lt _ _

lemma memoryEnd_lt : h.memoryEnd c base < 2 ^ 32 := by
  rw [Phdr.memoryEnd, Config.pageSize]
  exact alignUp_lt _ _

lemma mapping_stop : (h.mapping c base preload).stop = h.memoryEnd c base := by
  have hstart : h.memoryStart c base < 2 ^ 32 := memoryStart_le.trans_lt fileStart_lt
  rw [Mapping.stop, Phdr.mapping]
  exact add32_sub32 hstart memoryEnd_lt

lemma mapping_contains {a : ℕ} (hend : h.fileStart base + h.memsz ≤ 2 ^ 32)
    (hlo : h.fileStart base ≤ a) (hhi : a < h.fileStart base + h.memsz) :
    (h.mapping c base preload).segment.Contains a := by
  have htop : h.fileStart base + h.memsz ≤ top (h.memoryEnd c base) := by
    rw [Phdr.memoryEnd, Config.pageSize, add32]
    exact le_top_alignUp c.pageBits_le hend
  have hstop : (h.mapping c base preload).segment.stop = h.memoryEnd c base := mapping_stop
  rw [Segment.Contains, hstop]
  exact ⟨memoryStart_le.trans hlo, hhi.trans_le htop⟩

def Phdr.writing (c : Config) (f : File) (base : ℕ) (preload : Bool) (h : Phdr) : List Write :=
  if h.isLoaded then if preload then h.writes c f base else []
  else if h.type = ptGnuRelro then [h.relocates base] else []

lemma mem_insertSegment {segments : List Segment} {s new : Segment} :
    s ∈ memoryMapInsertSegment segments new ↔ s = new ∨ s ∈ segments := by
  rw [memoryMapInsertSegment_perm.mem_iff, mem_cons]

structure Placed (c : Config) (f : File) (base : ℕ) (preload : Bool) (hs : List Phdr)
    (st r : LoadState) : Prop where
  error : r.error = 0
  mem : ∀ s, s ∈ r.map.segments ↔
    s ∈ st.map.segments ∨ ∃ h ∈ hs, h.isLoaded = true ∧ s = (h.mapping c base preload).segment
  forward : ∀ h ∈ hs, h.isLoaded = true →
    ¬ (0 < h.memoryEnd c base ∧ h.memoryEnd c base < h.memoryStart c base)
  writes : r.writes = st.writes ++ hs.flatMap (Phdr.writing c f base preload)

lemma mapSegment_ok {i : ℕ} {error : ℤ}
    (hmap : mapSegment c env base preload h i map = (error, map')) (hok : ¬ error < 0) :
    (∀ s, s ∈ map'.segments ↔ s ∈ map.segments ∨ s = (h.mapping c base preload).segment) ∧
      ¬ (0 < h.memoryEnd c base ∧ h.memoryEnd c base < h.memoryStart c base) := by
  rw [mapSegment] at hmap
  have hmapped : ¬ (memoryMapMmap c.pageSize map (h.mapping c base preload)
      (c.mapAnswers env i)).1 < 0 := by
    rw [hmap]
    exact hok
  obtain ⟨hsegments, hwrap⟩ := memoryMapMmap_ok hmapped
  rw [hmap] at hsegments
  rw [mapping_stop] at hwrap
  refine ⟨fun s => ?_, hwrap⟩
  rw [hsegments, mem_insertSegment, or_comm]

section Branches
variable {st : LoadState} {error : ℤ} (hgo : ¬ st.error < 0)

include hgo

lemma loadSegment_mapped (hloaded : h.isLoaded = true)
    (hmap : mapSegment c env base preload h st.index st.map = (error, map')) :
    loadSegment c env f base preload st h =
      if error < 0 then ⟨st.index, error, map', st.writes⟩
      else if preload then
        if c.mmu ∧ env.loadPages st.index < 0 then
          ⟨st.index, env.loadPages st.index, map', st.writes⟩
        else ⟨st.index + 1, 0, map', st.writes ++ h.writes c f base⟩
      else ⟨st.index + 1, 0, map', st.writes⟩ := by
  rw [loadSegment, if_neg hgo, if_pos hloaded, hmap]

lemma loadSegment_skipped (hloaded : ¬ h.isLoaded = true) : loadSegment c env f base preload st h =
      ⟨st.index + 1, 0, st.map, st.writes ++ h.writing c f base preload⟩ := by
  rw [loadSegment, if_neg hgo, if_neg hloaded, Phdr.writing, if_neg hloaded]
  split_ifs
  · rfl
  · rw [append_nil]

lemma loadSegment_loaded (hloaded : h.isLoaded = true)
    (hmap : mapSegment c env base preload h st.index st.map = (error, map'))
    (hok : ¬ (loadSegment c env f base preload st h).error < 0) : ¬ error < 0 ∧
      loadSegment c env f base preload st h =
        ⟨st.index + 1, 0, map', st.writes ++ h.writing c f base preload⟩ := by
  have hstep := loadSegment_mapped (f := f) hgo hloaded hmap
  rw [Phdr.writing, if_pos hloaded]
  generalize loadSegment c env f base preload st h = r at hok hstep ⊢
  split_ifs at hstep with hfail hpre hpages
  · subst hstep
    exact absurd hfail hok
  · subst hstep
    exact absurd hpages.2 hok
  · rw [if_pos hpre]
    exact ⟨hfail, hstep⟩
  · rw [if_neg hpre, append_nil]
    exact ⟨hfail, hstep⟩
end Branches

lemma loadSegment_placed (st : LoadState) (herror : st.error = 0)
    (hok : ¬ (loadSegment c env f base preload st h).error < 0) :
    Placed c f base preload [h] st (loadSegment c env f base preload st h) := by
  have hgo : ¬ st.error < 0 := by omega
  by_cases hloaded : h.isLoaded = true
  · rcases hmap : mapSegment c env base preload h st.index st.map with ⟨error, map'⟩
    obtain ⟨hfail, hstep⟩ := loadSegment_loaded hgo hloaded hmap hok
    obtain ⟨hmem, hwrap⟩ := mapSegment_ok hmap hfail
    rw [hstep]
    exact ⟨rfl, by simpa [hloaded] using hmem, by simpa [hloaded] using hwrap, by simp⟩
  · rw [loadSegment_skipped hgo hloaded]
    exact ⟨rfl, by simp [hloaded], by simp [hloaded], by simp⟩

lemma Placed.trans {hs gs : List Phdr} {st r t : LoadState}
    (hr : Placed c f base preload hs st r) (ht : Placed c f base preload gs r t) :
    Placed c f base preload (hs ++ gs) st t := by
  refine ⟨ht.error, fun s => ?_, ?_, ?_⟩
  · rw [ht.mem, hr.mem]
    simp only [mem_append, or_and_right, exists_or, or_assoc]
  · intro g hg hloaded
    rcases mem_append.mp hg with hg | hg
    · exact hr.forward g hg hloaded
    · exact ht.forward g hg hloaded
  · rw [ht.writes, hr.writes, flatMap_append, append_assoc]

lemma foldl_error (hs : List Phdr) {st : LoadState} (herror : st.error < 0) :
    hs.foldl (loadSegment c env f base preload) st = st := by
  induction hs with
  | nil => rfl
  | cons h rest ih =>
    have hstep : loadSegment c env f base preload st h = st := by
      rw [loadSegment, if_pos herror]
    rw [foldl_cons, hstep, ih]

lemma foldl_placed (hs : List Phdr) (st : LoadState) (herror : st.error = 0)
    (hok : ¬ (hs.foldl (loadSegment c env f base preload) st).error < 0) :
    Placed c f base preload hs st (hs.foldl (loadSegment c env f base preload) st) := by
  induction hs generalizing st with
  | nil => exact ⟨herror, by simp, by simp, by simp⟩
  | cons h rest ih =>
    rw [foldl_cons] at hok ⊢
    have hstep : ¬ (loadSegment c env f base preload st h).error < 0 := by
      intro hbad
      rw [foldl_error rest hbad] at hok
      exact hok hbad
    have hfirst := loadSegment_placed st herror hstep
    exact hfirst.trans (ih _ hfirst.error hok)
end Segments

def fileHeaders (f : File) : List Phdr :=
  (List.range (elfPhnum f.data)).map (phdrAt (f.data.drop (elfPhoff f.data)))

def firstHeaders (f : File) : List Phdr := (fileHeaders f).take progHeaderMax

/-- A written byte is in the memory of the image. -/
def Inside (c : Config) (o : Outcome) (w : Write) (k : ℕ) : Prop :=
  if w.paged then ∃ s ∈ o.map.segments, s.Contains (w.address + k)
  else c.mmu = false ∧ o.base ≤ (w.address + k) % 2 ^ 32 ∧
    (w.address + k) % 2 ^ 32 < o.base + o.size

structure Loaded (c : Config) (f : File) (o : Outcome) : Prop where
  entry : o.entry = some (add32 o.base (elfEntry f.data))
  mapped : ∀ h ∈ fileHeaders f, h.type = ptLoad → ∀ k < h.memsz,
    o.base + h.vaddr + k < 2 ^ 32 ∧ ∃ s ∈ o.map.segments, s.Contains (o.base + h.vaddr + k)
  headers : o.used ≤ o.read
  writes : ∀ w ∈ o.writes, ∀ k < w.length, Inside c o w k

def Safe (c : Config) (f : File) (o : Outcome) : Prop := o.code < 0 ∨ o.code = 0 ∧ Loaded c f o

section Sizes
variable {c : Config} {hs : List Phdr} {h : Phdr} {acc : ℕ}

def roundUp (size n : ℕ) : ℕ := n + (size - 1) - (n + (size - 1)) % size

def imageFrom (c : Config) : List Phdr → ℕ → ℕ
  | [], acc => acc
  | h :: rest, acc =>
    if h.type = ptLoad then
      imageFrom c rest (max acc h.vaddr + roundUp c.pageSize (h.vaddr % c.pageSize + h.memsz))
    else imageFrom c rest acc

def imageSize (c : Config) (hs : List Phdr) : ℕ := imageFrom c hs 0

lemma pageSize_pos (c : Config) : 0 < c.pageSize := Nat.two_pow_pos _

lemma le_roundUp {size : ℕ} (hpos : 0 < size) (n : ℕ) : n ≤ roundUp size n := by
  have hmod := Nat.mod_lt (n + (size - 1)) hpos
  unfold roundUp
  omega

lemma alignUp_eq_roundUp {n : ℕ} (h : n + c.pageSize ≤ 2 ^ 32) :
    alignUp n c.pageSize = roundUp c.pageSize n := by
  have hpos := pageSize_pos c
  rw [alignUp, add32_of_lt (by omega)]
  exact alignDown_two_pow _ _

lemma le_imageFrom (hs : List Phdr) (acc : ℕ) : acc ≤ imageFrom c hs acc := by
  induction hs generalizing acc with
  | nil => exact le_rfl
  | cons h rest ih =>
    rw [imageFrom]
    split_ifs with hload
    · exact ((le_max_left _ _).trans (Nat.le_add_right _ _)).trans (ih _)
    · exact ih acc

lemma segment_le_image (hs : List Phdr) (acc : ℕ) (hh : h ∈ hs) (hload : h.type = ptLoad) :
    h.vaddr + h.memsz ≤ imageFrom c hs acc := by
  induction hs generalizing acc with
  | nil => cases hh
  | cons g rest ih =>
    rw [imageFrom]
    rcases mem_cons.mp hh with rfl | hh
    · rw [if_pos hload]
      refine le_trans ?_ (le_imageFrom rest _)
      have hup := le_roundUp (pageSize_pos c) (h.vaddr % c.pageSize + h.memsz)
      have := le_max_right acc h.vaddr
      omega
    · split_ifs
      · exact ih _ hh
      · exact ih _ hh

lemma memSizeLoop_eq (hs : List Phdr) (acc : ℕ)
    (hlow : c.mmu = false → ∀ h ∈ hs, h.type = ptLoad → h.vaddr < 0x80000000)
    (hfits : imageFrom c hs acc + c.pageSize ≤ 2 ^ 32) :
    memSizeLoop c hs acc = .ok (imageFrom c hs acc) := by
  induction hs generalizing acc with
  | nil => rfl
  | cons h rest ih =>
    rw [memSizeLoop]
    rw [imageFrom] at hfits ⊢
    by_cases hload : h.type = ptLoad
    · rw [if_pos hload] at hfits ⊢
      have hhigh : ¬ (c.mmu = false ∧ 0x80000000 ≤ h.vaddr) := by
        rintro ⟨hmmu, hvaddr⟩
        exact absurd (hlow hmmu h mem_cons_self hload) (by omega)
      have hle := le_imageFrom (c := c) rest
        (max acc h.vaddr + roundUp c.pageSize (h.vaddr % c.pageSize + h.memsz))
      have hup := le_roundUp (pageSize_pos c) (h.vaddr % c.pageSize + h.memsz)
      have hmax : (if acc < h.vaddr then h.vaddr else acc) = max acc h.vaddr := by
        split_ifs <;> omega
      have hrem : alignRemainder h.vaddr c.pageSize = h.vaddr % c.pageSize :=
        alignRemainder_two_pow _ _
      have hpos := pageSize_pos c
      have hsum : add32 (h.vaddr % c.pageSize) h.memsz = h.vaddr % c.pageSize + h.memsz :=
        add32_of_lt (by omega)
      rw [if_neg hhigh, if_pos hload, hmax, hrem, hsum, alignUp_eq_roundUp (by omega),
        add32_of_lt (by omega)]
      exact ih _ (fun hmmu g hg => hlow hmmu g (mem_cons_of_mem _ hg)) hfits
    · rw [if_neg hload] at hfits ⊢
      rw [if_neg hload]
      exact ih _ (fun hmmu g hg => hlow hmmu g (mem_cons_of_mem _ hg)) hfits

lemma memSizeLoop_high (hs : List Phdr) (acc : ℕ) (hmmu : c.mmu = false)
    (hhigh : ∃ h ∈ hs, h.type = ptLoad ∧ 0x80000000 ≤ h.vaddr) :
    memSizeLoop c hs acc = .error EFAULT := by
  induction hs generalizing acc with
  | nil =>
    obtain ⟨h, hh, -⟩ := hhigh
    cases hh
  | cons g rest ih =>
    obtain ⟨h, hh, hload, hvaddr⟩ := hhigh
    rw [memSizeLoop]
    by_cases hg : g.type = ptLoad
    · rw [if_pos hg]
      by_cases hghigh : c.mmu = false ∧ 0x80000000 ≤ g.vaddr
      · rw [if_pos hghigh]
      · rw [if_neg hghigh]
        rcases mem_cons.mp hh with rfl | hh
        · exact absurd ⟨hmmu, hvaddr⟩ hghigh
        · exact ih _ ⟨h, hh, hload, hvaddr⟩
    · rw [if_neg hg]
      rcases mem_cons.mp hh with rfl | hh
      · exact absurd hload hg
      · exact ih _ ⟨h, hh, hload, hvaddr⟩
end Sizes
section Reading
variable {c : Config} {env : Env c} {f : File} {d before : List UInt8} {j n : ℕ}

lemma byteAt_overlay (h : j < d.length) : byteAt (overlay d before) j = byteAt d j := by
  rw [overlay, byteAt, byteAt, getD_append _ _ _ _ h]

lemma wordAt_overlay (h : j + 1 < d.length) : wordAt (overlay d before) j = wordAt d j := by
  rw [wordAt, wordAt, byteAt_overlay (by omega), byteAt_overlay h]

lemma longAt_overlay (h : j + 3 < d.length) : longAt (overlay d before) j = longAt d j := by
  rw [longAt, longAt, wordAt_overlay (by omega), wordAt_overlay (by omega)]

lemma longAt_take (h : j + 3 < n) : longAt (d.take n) j = longAt d j := by
  rw [longAt, longAt, wordAt_take (by omega), wordAt_take (by omega)]

def headerUsed : ℕ := 46

lemma header_fields (before : List UInt8) (hlen : headerUsed ≤ f.data.length) :
    accepts (overlay (vfsRead f 0 ehdrSize) before) = accepts f.data ∧
      elfEntry (overlay (vfsRead f 0 ehdrSize) before) = elfEntry f.data ∧
      elfPhoff (overlay (vfsRead f 0 ehdrSize) before) = elfPhoff f.data ∧
      elfPhnum (overlay (vfsRead f 0 ehdrSize) before) = elfPhnum f.data := by
  have hread : vfsRead f 0 ehdrSize = f.data.take 52 := rfl
  have hsize : 46 ≤ (f.data.take 52).length := by
    rw [length_take]
    exact le_min (by decide) hlen
  have hbyte : ∀ j, j < 46 → byteAt (overlay (f.data.take 52) before) j = byteAt f.data j := by
    intro j hj
    rw [byteAt_overlay (by omega), byteAt_take (by omega)]
  have hword : ∀ j, j < 45 → wordAt (overlay (f.data.take 52) before) j = wordAt f.data j := by
    intro j hj
    rw [wordAt_overlay (by omega), wordAt_take (by omega)]
  have hlong : ∀ j, j < 43 → longAt (overlay (f.data.take 52) before) j = longAt f.data j := by
    intro j hj
    rw [longAt_overlay (by omega), longAt_take (by omega)]
  rw [hread]
  refine ⟨?_, hlong 24 (by decide), hlong 28 (by decide), hword 44 (by decide)⟩
  simp only [accepts, map_cons, map_nil, hbyte 0 (by decide), hbyte 1 (by decide),
    hbyte 2 (by decide), hbyte 3 (by decide), hbyte 4 (by decide), hbyte 5 (by decide),
    hbyte 6 (by decide), hword 16 (by decide), hword 18 (by decide), hword 42 (by decide)]

structure Complete (f : File) : Prop where
  phoff : elfPhoff f.data ≠ 0
  phnum : elfPhnum f.data ≠ 0
  table : elfPhoff f.data + phdrSize * min (elfPhnum f.data) progHeaderMax ≤ f.data.length

lemma phdrAt_overlay {i : ℕ} (h : phdrSize * (i + 1) ≤ n) (hn : n ≤ d.length) :
    phdrAt (overlay (d.take n) before) i = phdrAt d i := by
  have hlong : ∀ j, j < 29 → longAt (overlay (d.take n) before) (phdrSize * i + j) =
      longAt d (phdrSize * i + j) := by
    intro j hj
    simp only [phdrSize] at h ⊢
    rw [longAt_overlay (by rw [length_take]; omega), longAt_take (by omega)]
  simp only [phdrAt, hlong 4 (by decide), hlong 8 (by decide), hlong 16 (by decide),
    hlong 20 (by decide), hlong 24 (by decide)]
  rw [← Nat.add_zero (phdrSize * i), hlong 0 (by decide)]

lemma headers_eq (before : List UInt8) (h : Complete f) :
    (List.range (min (elfPhnum f.data) progHeaderMax)).map (phdrAt (overlay
      (vfsRead f (elfPhoff f.data) (phdrSize * min (elfPhnum f.data) progHeaderMax)) before)) =
      firstHeaders f := by
  rw [firstHeaders, fileHeaders, ← map_take, take_range, Nat.min_comm progHeaderMax]
  apply map_congr_left
  intro i hi
  have hi' := mem_range.mp hi
  have htable := h.table
  exact phdrAt_overlay (Nat.mul_le_mul_left _ hi') (by rw [length_drop]; omega)

lemma loadElfBinary_complete (env : Env c) (hlen : headerUsed ≤ f.data.length)
    (haccepts : accepts f.data = true) (h : Complete f) : loadElfBinary c env f =
      loadImage c env f (elfEntry f.data) (firstHeaders f) (firstHeaders f).length := by
  obtain ⟨h1, h2, h3, h4⟩ := header_fields env.headerBefore hlen
  have hnum : 0 < min (elfPhnum f.data) progHeaderMax :=
    lt_min (Nat.pos_of_ne_zero h.phnum) (by decide)
  have htable := h.table
  have hseek : vfsSeek f (elfPhoff f.data) = elfPhoff f.data := min_eq_left (by omega)
  have hread : (vfsRead f (elfPhoff f.data)
      (phdrSize * min (elfPhnum f.data) progHeaderMax)).length =
        phdrSize * min (elfPhnum f.data) progHeaderMax := by
    rw [vfsRead, length_take, length_drop]
    omega
  have hfirst : vfsRead f 0 ehdrSize ≠ [] := by
    intro hnone
    have hzero := congrArg List.length hnone
    simp only [vfsRead, ehdrSize, drop_zero, length_take, length_nil] at hzero
    simp only [headerUsed] at hlen
    omega
  have hsome : vfsRead f (elfPhoff f.data)
      (phdrSize * min (elfPhnum f.data) progHeaderMax) ≠ [] := by
    intro hnone
    rw [hnone, length_nil, phdrSize] at hread
    omega
  have hcount : (vfsRead f (elfPhoff f.data)
      (phdrSize * min (elfPhnum f.data) progHeaderMax)).length / phdrSize =
        (firstHeaders f).length := by
    rw [hread, Nat.mul_div_cancel_left _ (by decide), ← headers_eq [] h, length_map, length_range]
  rw [loadElfBinary]
  simp only [if_neg hfirst, h1, h2, h3, h4, haccepts, hseek, if_neg h.phoff, if_neg hsome,
    headers_eq _ h, hcount]
  rfl
end Reading
section Image
variable {c : Config} {env : Env c} {f : File} {hs : List Phdr} {entry read : ℕ}

lemma insertHeapStack_keeps {pageSize start stackSize : ℕ} {code : ℤ} {answers : ℕ → Answers}
    (h : memoryMapInsertHeapStack pageSize map start stackSize answers = (code, map'))
    (hok : ¬ code < 0) : code = 0 ∧ ∀ s ∈ map.segments, s ∈ map'.segments := by
  rw [memoryMapInsertHeapStack] at h
  dsimp only at h
  split_ifs at h with hheap hstack
  · rw [h] at hheap
    exact absurd hheap hok
  · rw [h] at hstack
    exact absurd hstack hok
  · obtain ⟨hfirst, -⟩ := memoryMapMmap_ok hheap
    obtain ⟨hsecond, -⟩ := memoryMapMmap_ok hstack
    obtain ⟨rfl, rfl⟩ := Prod.mk.inj h
    refine ⟨rfl, fun s hs => ?_⟩
    show s ∈ (memoryMapMmap _ _ _ _).2.segments
    rw [hsecond, mem_insertSegment, hfirst, mem_insertSegment]
    exact .inr (.inr hs)

lemma insertHeapStack_success {start : ℕ} {code : ℤ}
    (h : c.insertHeapStack env map start = (code, map')) (hok : ¬ code < 0) :
    code = 0 ∧ ∀ s ∈ map.segments, s ∈ map'.segments := by
  rw [Config.insertHeapStack] at h
  split_ifs at h
  · exact insertHeapStack_keeps h hok
  · cases hregion : env.stackMemory with
    | none =>
      rw [hregion] at h
      obtain ⟨rfl, -⟩ := Prod.mk.inj h
      exact absurd (by decide) hok
    | some region =>
      rw [hregion] at h
      exact insertHeapStack_keeps h hok

structure Built (c : Config) (env : Env c) (f : File) (entry : ℕ) (hs : List Phdr) (read : ℕ)
    (o : Outcome) : Prop where
  code : o.code = 0
  entry : o.entry = some (add32 o.base entry)
  used : o.used = hs.length
  read : o.read = read
  image : ∃ memSize, memSizeLoop c hs 0 = .ok memSize ∧ memSize ≠ 0 ∧
    c.userMemStart env memSize = some o.base ∧ o.size = alignUp memSize c.pageSize
  mem : ∀ h ∈ hs, h.isLoaded = true → (h.mapping c o.base (c.preload hs)).segment ∈ o.map.segments
  forward : ∀ h ∈ hs, h.isLoaded = true →
    ¬ (0 < h.memoryEnd c o.base ∧ h.memoryEnd c o.base < h.memoryStart c o.base)
  writes : o.writes = hs.flatMap (Phdr.writing c f o.base (c.preload hs))

lemma memSizeLoop_error (hs : List Phdr) (acc : ℕ) {error : ℤ}
    (h : memSizeLoop c hs acc = .error error) : error = EFAULT := by
  induction hs generalizing acc with
  | nil => cases h
  | cons g rest ih =>
    rw [memSizeLoop] at h
    by_cases hload : g.type = ptLoad
    · rw [if_pos hload] at h
      by_cases hhigh : c.mmu = false ∧ 0x80000000 ≤ g.vaddr
      · rw [if_pos hhigh] at h
        exact (Except.error.inj h).symm
      · rw [if_neg hhigh] at h
        exact ih _ h
    · rw [if_neg hload] at h
      exact ih _ h

lemma loadImage_eq {memSize base : ℕ} (hsize : memSizeLoop c hs 0 = .ok memSize)
    (hpos : memSize ≠ 0) (hbase : c.userMemStart env memSize = some base) :
    loadImage c env f entry hs read =
      let st := loadSegments c env f base (c.preload hs) hs
      let size := alignUp memSize c.pageSize
      if st.error < 0 then ⟨st.error, st.map, none, hs.length, read, base, size, st.writes⟩
      else match c.insertHeapStack env st.map (alignUp (add32 base memSize) c.pageSize) with
        | (error, map) =>
          ⟨error, map, some (add32 base entry), hs.length, read, base, size, st.writes⟩ := by
  rw [loadImage, hsize]
  dsimp only
  rw [if_neg hpos, hbase]

lemma loadImage_built {o : Outcome} (ho : loadImage c env f entry hs read = o)
    (hok : ¬ o.code < 0) : Built c env f entry hs read o := by
  cases hsize : memSizeLoop c hs 0 with
  | error error =>
    rw [loadImage, hsize] at ho
    obtain rfl := memSizeLoop_error hs 0 hsize
    have hneg : EFAULT < 0 := by decide
    subst ho
    exact absurd hneg hok
  | ok memSize =>
    by_cases hpos : memSize = 0
    · rw [loadImage, hsize] at ho
      dsimp only at ho
      rw [if_pos hpos] at ho
      have hneg : ENOEXEC < 0 := by decide
      subst ho
      exact absurd hneg hok
    · cases hbase : c.userMemStart env memSize with
      | none =>
        rw [loadImage, hsize] at ho
        dsimp only at ho
        rw [if_neg hpos, hbase] at ho
        have hneg : ENOMEM < 0 := by decide
        subst ho
        exact absurd hneg hok
      | some base =>
        rw [loadImage_eq hsize hpos hbase] at ho
        dsimp only at ho
        have hplaced : ¬ (hs.foldl (loadSegment c env f base (c.preload hs))
            ⟨0, 0, empty, []⟩).error < 0 → _ :=
          foldl_placed hs ⟨0, 0, empty, []⟩ rfl
        rw [loadSegments] at ho
        generalize hs.foldl (loadSegment c env f base (c.preload hs)) ⟨0, 0, empty, []⟩ = st
          at ho hplaced
        by_cases herror : st.error < 0
        · rw [if_pos herror] at ho
          subst ho
          exact absurd herror hok
        · rw [if_neg herror] at ho
          rcases hstack : c.insertHeapStack env st.map (alignUp (add32 base memSize) c.pageSize)
            with ⟨code, map'⟩
          rw [hstack] at ho
          subst ho
          obtain ⟨hcode, hkeeps⟩ := insertHeapStack_success hstack hok
          have hst := hplaced herror
          exact ⟨hcode, rfl, rfl, rfl, ⟨memSize, hsize, hpos, hbase, rfl⟩,
            fun h hh hloaded => hkeeps _ ((hst.mem _).mpr (.inr ⟨h, hh, hloaded, rfl⟩)),
            hst.forward, hst.writes⟩
end Image

/-- The segment ends below the top of the address space, or so far beyond it that it is noticed. -/
def Phdr.Fits (c : Config) (h : Phdr) : Prop :=
  mmuMemStart + h.vaddr < 2 ^ 32 ∧ (2 ^ 32 < mmuMemStart + h.vaddr + h.memsz →
    0 < alignUp (mmuMemStart + h.vaddr + h.memsz - 2 ^ 32) c.pageSize ∧
      alignUp (mmuMemStart + h.vaddr + h.memsz - 2 ^ 32) c.pageSize <
        alignDown (mmuMemStart + h.vaddr) c.pageSize)

structure ProperMmu (c : Config) (hs : List Phdr) : Prop where
  backed : ∀ h ∈ hs, h.type = ptLoad → h.filesz = 0 → h.memsz = 0
  fits : ∀ h ∈ hs, h.isLoaded = true → h.Fits c
  whole : c.preload hs = true → ∀ h ∈ hs, h.isLoaded = true → h.filesz = h.memsz
  still : ∀ h ∈ hs, h.type = ptGnuRelro → h.memsz < 4

structure ProperFlat (c : Config) (hs : List Phdr) : Prop where
  backed : ∀ h ∈ hs, h.type = ptLoad → h.filesz = 0 → h.memsz = 0
  fits : imageSize c hs + c.pageSize ≤ 2 ^ 32
  whole : ∀ h ∈ hs, h.isLoaded = true → h.filesz ≤ h.memsz
  still : ∀ h ∈ hs, h.type = ptGnuRelro →
    h.memsz < 4 ∨ h.vaddr + h.memsz / 4 * 4 ≤ roundUp c.pageSize (imageSize c hs)

structure Proper (c : Config) (f : File) : Prop where
  late : ∀ h ∈ (fileHeaders f).drop progHeaderMax, h.type = ptLoad → h.memsz = 0
  mmu : c.mmu = true → ProperMmu c (firstHeaders f)
  flat : c.mmu = false → ProperFlat c (firstHeaders f)

/-- The call refuses the headers: no memory is asked for, an address is too high, or
`memory_map_mmap` refuses one of the segments where the image is put. -/
def Refused (c : Config) (env : Env c) (hs : List Phdr) : Prop :=
  match memSizeLoop c hs 0 with
  | .error _ => True
  | .ok memSize => memSize = 0 ∨ ∀ base ∈ c.userMemStart env memSize, ∃ h ∈ hs,
      h.isLoaded = true ∧ 0 < h.memoryEnd c base ∧ h.memoryEnd c base < h.memoryStart c base

/-- The file is all there, and what the call does not check is right unless it refuses the file. -/
structure Sound (c : Config) (env : Env c) (f : File) : Prop where
  nonempty : f.data ≠ []
  short : f.data.length < headerUsed → ∀ before, accepts (overlay f.data before) = false
  complete : headerUsed ≤ f.data.length → accepts f.data = true → Complete f
  proper : headerUsed ≤ f.data.length → accepts f.data = true →
    ¬ Refused c env (firstHeaders f) → Proper c f

section Safety
variable {c : Config} {env : Env c} {f : File} {hs : List Phdr} {h : Phdr} {entry read k : ℕ}
  {o : Outcome}

def Straight (base : ℕ) (h : Phdr) : Prop :=
  h.fileStart base = base + h.vaddr ∧ base + h.vaddr + h.memsz ≤ 2 ^ 32

lemma isLoaded_iff : h.isLoaded = true ↔ h.type = ptLoad ∧ 0 < h.filesz := by
  rw [Phdr.isLoaded, decide_eq_true_iff]

lemma mem_writing {preload : Bool} {base : ℕ} (hw : w ∈ h.writing c f base preload) :
    h.isLoaded = true ∧ preload = true ∧ w ∈ h.writes c f base ∨
      h.type = ptGnuRelro ∧ w = h.relocates base := by
  rw [Phdr.writing] at hw
  split_ifs at hw with hloaded hpre hrelro
  · exact .inl ⟨hloaded, hpre, hw⟩
  · cases hw
  · exact .inr ⟨hrelro, mem_singleton.mp hw⟩
  · cases hw

lemma length_vfsRead_le (f : File) (position nbytes : ℕ) :
    (vfsRead f position nbytes).length ≤ nbytes := by
  rw [vfsRead, length_take]
  exact Nat.min_le_left _ _

lemma longAt_lt (d : List UInt8) (i : ℕ) : longAt d i < 2 ^ 32 := by
  have h1 := wordAt_lt d i
  have h2 := wordAt_lt d (i + 2)
  unfold longAt
  omega

lemma memsz_lt_of_mem (hh : h ∈ fileHeaders f) : h.memsz < 2 ^ 32 := by
  obtain ⟨i, -, rfl⟩ := List.mem_map.mp hh
  exact longAt_lt _ _

lemma Proper.loaded_of_mem (hp : Proper c f) (hh : h ∈ fileHeaders f) (hload : h.type = ptLoad)
    (hpos : 0 < h.memsz) : h ∈ firstHeaders f ∧ h.isLoaded = true := by
  have hfirst : h ∈ firstHeaders f := by
    rw [← take_append_drop progHeaderMax (fileHeaders f)] at hh
    rcases mem_append.mp hh with hh | hh
    · exact hh
    · have := hp.late h hh hload
      omega
  refine ⟨hfirst, isLoaded_iff.mpr ⟨hload, Nat.pos_of_ne_zero fun hzero => ?_⟩⟩
  have hnone : h.memsz = 0 := by
    cases hmmu : c.mmu with
    | true => exact (hp.mmu hmmu).backed h hfirst hload hzero
    | false => exact (hp.flat hmmu).backed h hfirst hload hzero
  omega

section
variable (hb : Built c env f entry hs read o)
include hb

lemma Built.size_mmu (hmmu : c.mmu = true) : o.base = mmuMemStart := by
  obtain ⟨memSize, -, -, hbase, -⟩ := hb.image
  rw [Config.userMemStart, if_pos hmmu] at hbase
  exact (Option.some.inj hbase).symm

lemma Built.size_flat (hmmu : c.mmu = false)
    (hlow : ∀ h ∈ hs, h.type = ptLoad → h.vaddr < 0x80000000)
    (hfits : imageSize c hs + c.pageSize ≤ 2 ^ 32) :
    o.base + o.size ≤ 2 ^ 32 ∧ o.size = roundUp c.pageSize (imageSize c hs) := by
  obtain ⟨memSize, hsize, -, hbase, hregion⟩ := hb.image
  rw [memSizeLoop_eq hs 0 (fun _ => hlow) hfits] at hsize
  obtain rfl := Except.ok.inj hsize
  rw [Config.userMemStart, hmmu, if_neg Bool.false_ne_true] at hbase
  rw [hregion]
  exact ⟨env.userMemory_le _ _ hbase, alignUp_eq_roundUp hfits⟩

lemma Built.straight_mmu (hmmu : c.mmu = true)
    (hp : ProperMmu c hs) (hh : h ∈ hs) (hloaded : h.isLoaded = true) (hpos : 0 < h.memsz)
    (hmemsz : h.memsz < 2 ^ 32) : Straight o.base h := by
  obtain ⟨hlt, hwrap⟩ := hp.fits h hh hloaded
  have hforward := hb.forward h hh hloaded
  rw [hb.size_mmu hmmu] at hforward ⊢
  have hstart : h.fileStart mmuMemStart = mmuMemStart + h.vaddr := add32_of_lt hlt
  refine ⟨hstart, ?_⟩
  by_contra hbeyond
  obtain ⟨hzero, hbelow⟩ := hwrap (by omega)
  have hsum : add32 (mmuMemStart + h.vaddr) h.memsz = mmuMemStart + h.vaddr + h.memsz - 2 ^ 32 := by
    unfold add32
    omega
  rw [Phdr.memoryEnd, Phdr.memoryStart, hstart, hsum] at hforward
  exact hforward ⟨hzero, hbelow⟩

lemma Built.straight_flat (hmmu : c.mmu = false)
    (hlow : ∀ h ∈ hs, h.type = ptLoad → h.vaddr < 0x80000000) (hp : ProperFlat c hs)
    (hh : h ∈ hs) (hload : h.type = ptLoad) (hpos : 0 < h.memsz) : Straight o.base h := by
  obtain ⟨hregion, hsize⟩ := hb.size_flat hmmu hlow hp.fits
  have himage : h.vaddr + h.memsz ≤ imageSize c hs := segment_le_image hs 0 hh hload
  have hup := le_roundUp (pageSize_pos c) (imageSize c hs)
  exact ⟨add32_of_lt (by omega), by omega⟩

lemma Built.mapped (hh : h ∈ hs)
    (hloaded : h.isLoaded = true) (hstraight : Straight o.base h) (hk : k < h.memsz) :
    o.base + h.vaddr + k < 2 ^ 32 ∧ ∃ s ∈ o.map.segments, s.Contains (o.base + h.vaddr + k) := by
  obtain ⟨hstart, hend⟩ := hstraight
  refine ⟨by omega, _, hb.mem h hh hloaded, mapping_contains ?_ ?_ ?_⟩
  · rwa [hstart]
  · rw [hstart]
    omega
  · rw [hstart]
    omega

lemma Built.writes_mmu (hmmu : c.mmu = true)
    (hp : ProperMmu c hs) (hlt : ∀ h ∈ hs, h.memsz < 2 ^ 32) (hw : w ∈ o.writes)
    (hk : k < w.length) : Inside c o w k := by
  rw [hb.writes] at hw
  obtain ⟨h, hh, hw⟩ := mem_flatMap.mp hw
  rcases mem_writing hw with ⟨hloaded, hpre, hw⟩ | ⟨hrelro, rfl⟩
  · have hwhole := hp.whole hpre h hh hloaded
    have hpos := (isLoaded_iff.mp hloaded).2
    rw [Phdr.writes, hmmu, mem_pair] at hw
    rcases hw with rfl | rfl
    · have hread := length_vfsRead_le f (vfsSeek f h.offset) h.filesz
      have hstraight := hb.straight_mmu hmmu hp hh hloaded (by omega) (hlt h hh)
      dsimp only at hk
      rw [Inside, if_pos rfl, hstraight.1]
      exact (hb.mapped hh hloaded hstraight (by omega)).2
    · dsimp only at hk
      rw [hwhole, sub32_of_le le_rfl (hlt h hh), Nat.sub_self] at hk
      omega
  · have hstill := hp.still h hh hrelro
    rw [Phdr.relocates] at hk
    dsimp only at hk
    omega

lemma Built.writes_flat (hmmu : c.mmu = false)
    (hlow : ∀ h ∈ hs, h.type = ptLoad → h.vaddr < 0x80000000) (hp : ProperFlat c hs)
    (hlt : ∀ h ∈ hs, h.memsz < 2 ^ 32) (hw : w ∈ o.writes) (hk : k < w.length) :
    Inside c o w k := by
  obtain ⟨hregion, hsize⟩ := hb.size_flat hmmu hlow hp.fits
  -- it is enough to know where the range begins and that it ends inside the region
  have hinside : ∀ start : ℕ, w.paged = false → w.address = (o.base + start) % 2 ^ 32 →
      start + w.length ≤ o.size → Inside c o w k := by
    intro start hpaged haddress hend
    have hmod : (w.address + k) % 2 ^ 32 = o.base + start + k := by
      rw [haddress]
      omega
    rw [Inside, hpaged, if_neg Bool.false_ne_true, hmod]
    exact ⟨hmmu, by omega, by omega⟩
  rw [hb.writes] at hw
  obtain ⟨h, hh, hw⟩ := mem_flatMap.mp hw
  have hup := le_roundUp (pageSize_pos c) (imageSize c hs)
  rcases mem_writing hw with ⟨hloaded, -, hw⟩ | ⟨hrelro, rfl⟩
  · have hload := (isLoaded_iff.mp hloaded).1
    have hwhole := hp.whole h hh hloaded
    have himage : h.vaddr + h.memsz ≤ imageSize c hs := segment_le_image hs 0 hh hload
    rw [Phdr.writes, hmmu, mem_pair] at hw
    rcases hw with rfl | rfl
    · have hread := length_vfsRead_le f (vfsSeek f h.offset) h.filesz
      refine hinside h.vaddr rfl ?_ (by dsimp only; omega)
      rw [Phdr.fileStart, add32]
    · have hcleared : sub32 h.memsz h.filesz = h.memsz - h.filesz :=
        sub32_of_le hwhole (hlt h hh)
      refine hinside (h.vaddr + h.filesz) rfl ?_ (by dsimp only; omega)
      rw [Phdr.fileEnd, Phdr.fileStart, add32, add32, ← Nat.add_assoc]
      exact Nat.mod_add_mod _ _ _
  · refine hinside h.vaddr rfl ?_ ?_
    · rw [Phdr.relocates, Phdr.fileStart, add32]
    · rcases hp.still h hh hrelro with hstill | hstill
      · rw [Phdr.relocates] at hk
        dsimp only at hk
        omega
      · rw [hsize]
        exact hstill

lemma Built.low (hmmu : c.mmu = false) (hh : h ∈ hs)
    (hload : h.type = ptLoad) : h.vaddr < 0x80000000 := by
  by_contra hhigh
  obtain ⟨memSize, hsize, -⟩ := hb.image
  rw [memSizeLoop_high hs 0 hmmu ⟨h, hh, hload, by omega⟩] at hsize
  cases hsize
end

lemma Built.loaded (hb : Built c env f (elfEntry f.data) (firstHeaders f)
    (firstHeaders f).length o) (hp : Proper c f) : Loaded c f o := by
  have hlt : ∀ h ∈ firstHeaders f, h.memsz < 2 ^ 32 :=
    fun h hh => memsz_lt_of_mem (mem_of_mem_take hh)
  refine ⟨hb.entry, ?_, by rw [hb.used, hb.read], ?_⟩
  · intro h hh hload k hk
    obtain ⟨hfirst, hloaded⟩ := hp.loaded_of_mem hh hload (by omega)
    cases hmmu : c.mmu with
    | true =>
      exact hb.mapped hfirst hloaded (hb.straight_mmu hmmu (hp.mmu hmmu) hfirst hloaded
        (by omega) (hlt h hfirst)) hk
    | false =>
      exact hb.mapped hfirst hloaded (hb.straight_flat hmmu
        (fun g hg hgload => hb.low hmmu hg hgload) (hp.flat hmmu) hfirst hload (by omega)) hk
  · intro w hw k hk
    cases hmmu : c.mmu with
    | true => exact hb.writes_mmu hmmu (hp.mmu hmmu) hlt hw hk
    | false =>
      exact hb.writes_flat hmmu (fun g hg hgload => hb.low hmmu hg hgload) (hp.flat hmmu) hlt hw hk

end Safety

def mmuConfig : Config := ⟨12, true, 0x1000, by decide⟩

def granting (c : Config) : Env c :=
  ⟨[], [], fun _ => ⟨true, 0⟩, fun _ => 0, fun _ => none, none, (fun _ _ h => nomatch h),
    (fun _ _ h => nomatch h)⟩

def tinyElf : File where
  data := [0x7F, 0x45, 0x4C, 0x46, 1, 2, 1, 0, 0, 0, 0, 0, 0, 0, 0, 0,
    0, 2, 0, 4, 0, 0, 0, 1, 0, 0, 0, 0x54, 0, 0, 0, 52,
    0, 0, 0, 0, 0, 0, 0, 0, 0, 52, 0, 32, 0, 1, 0, 0, 0, 0, 0, 0,
    0, 0, 0, 1, 0, 0, 0, 0, 0, 0, 0, 0, 0, 0, 0, 0,
    0, 0, 0, 84, 0, 0, 0, 100, 0, 0, 0, 5, 0, 0, 0, 0]
  data_lt := by decide

end Gloworm.Elf
