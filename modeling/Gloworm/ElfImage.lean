import Gloworm.ElfSafety

/-! The contents of a demand paged image: what a program finds when it first reads an address. -/
namespace Gloworm.Elf
open Word CheckedBytes MemoryMap List

def zeroPage (c : Config) : List UInt8 := List.replicate c.pageSize 0

def fileLoadPageAt (c : Config) (f : File) (segment : Segment) (vaddr : ℕ) : List UInt8 :=
  let fileOffset := add32 (alignDown (sub32 vaddr segment.start) c.pageSize)
    (alignDown segment.offset c.pageSize)
  overlay (vfsRead f (vfsSeek f fileOffset) c.pageSize) (zeroPage c)

def memoryMapLoadPageAt (c : Config) (f : File) (map : Map) (vaddr : ℕ) (writeError : Bool) :
    Except ℤ (List UInt8) :=
  match memoryMapFind map vaddr with
  | none => .error ENOENT
  | some segment =>
    match segment.ops with
    | .none => .error ENOENT
    | .file => if writeError ∧ ¬hasFlag segment.flags segWrite then .error EPERM
      else .ok (fileLoadPageAt c f segment vaddr)
    | .anonymous => if writeError ∧ ¬hasFlag segment.flags segWrite then .error EPERM
      else .ok (zeroPage c)

def firstRead (c : Config) (f : File) (map : Map) (vaddr : ℕ) : Option UInt8 :=
  match memoryMapLoadPageAt c f map vaddr false with
  | .ok page => page[alignRemainder vaddr c.pageSize]?
  | .error _ => none

def File.byte (f : File) (i : ℕ) : UInt8 := f.data.getD i 0

def Phdr.Pages (c : Config) (h : Phdr) (a : ℕ) : Prop :=
  h.type = ptLoad ∧ 0 < h.memsz ∧ (h.mapping c mmuMemStart false).segment.Contains a

def Phdr.Apart (c : Config) (g h : Phdr) : Prop := ∀ a, ¬(g.Pages c a ∧ h.Pages c a)

instance (c : Config) : Std.Symm (Phdr.Apart c) := ⟨fun _ _ hgh a ha => hgh a ⟨ha.2, ha.1⟩⟩

/-- Headers and file bytes are in the file, and the segments are congruent and share no page. -/
structure WellFormed (c : Config) (f : File) : Prop where
  long : headerUsed ≤ f.data.length
  accepted : accepts f.data = true
  phoff : elfPhoff f.data ≠ 0
  phnum : elfPhnum f.data ≠ 0
  table : elfPhoff f.data + phdrSize * elfPhnum f.data ≤ f.data.length
  filesz_le : ∀ h ∈ fileHeaders f, h.type = ptLoad → h.filesz ≤ h.memsz
  backed : ∀ h ∈ fileHeaders f, h.type = ptLoad → h.offset + h.filesz ≤ f.data.length
  congruent : ∀ h ∈ fileHeaders f, h.type = ptLoad → h.offset % c.pageSize = h.vaddr % c.pageSize
  apart : (fileHeaders f).Pairwise (Phdr.Apart c)
  below : ∀ h ∈ fileHeaders f, h.type = ptLoad → mmuMemStart + h.vaddr + h.memsz ≤ 2 ^ 32
  fits : mmuMemStart + imageSize c (firstHeaders f) + c.pageSize ≤ 2 ^ 32

def ImageRight (c : Config) (f : File) (o : Outcome) : Prop :=
  ∀ h ∈ fileHeaders f, h.type = ptLoad → ∀ k < h.memsz,
    firstRead c f o.map (o.base + h.vaddr + k) =
      some (if k < h.filesz then f.byte (h.offset + k) else 0)

def stackStart (c : Config) (f : File) : ℕ :=
  alignUp (mmuMemStart + imageSize c (firstHeaders f)) c.pageSize

/-- A header that is looked at has file bytes with zeros behind them; a later one lies in the
stack. -/
def Phdr.Right (c : Config) (f : File) (h : Phdr) : Prop :=
  if h ∈ firstHeaders f then
    0 < h.filesz ∧ ∀ k, h.filesz ≤ k → k < h.memsz → f.byte ((h.offset + k) % 2 ^ 32) = 0
  else ∀ k < h.memsz,
    (stackSegment (stackStart c f) (add32 (stackStart c f) c.stackSize)).Contains
      (mmuMemStart + h.vaddr + k) ∧ (k < h.filesz → f.byte (h.offset + k) = 0)

section Pages
variable {c : Config} {f : File} {j : ℕ}

lemma getElem?_overlay_zeroPage {bytes : List UInt8} (hj : j < c.pageSize) :
    (overlay bytes (zeroPage c))[j]? = some (bytes.getD j 0) := by
  rw [overlay]
  rcases Nat.lt_or_ge j bytes.length with hlt | hge
  · rw [List.getElem?_append_left hlt, List.getD_eq_getElem?_getD, List.getElem?_eq_getElem hlt,
      Option.getD_some]
  · rw [List.getElem?_append_right hge, List.getD_eq_getElem?_getD, List.getElem?_eq_none hge,
      List.getElem?_drop, zeroPage, List.getElem?_replicate, if_pos (by omega)]
    rfl

lemma getD_vfsRead {position n : ℕ} (hj : j < n) :
    (vfsRead f (vfsSeek f position) n).getD j 0 = f.byte (position + j) := by
  rw [vfsRead, vfsSeek, File.byte, List.getD_eq_getElem?_getD, List.getD_eq_getElem?_getD,
    List.getElem?_take_of_lt hj, List.getElem?_drop]
  rcases Nat.le_total position f.data.length with hle | hge
  · rw [min_eq_left hle]
  · rw [min_eq_right hge, List.getElem?_eq_none (by omega), List.getElem?_eq_none (by omega)]

lemma fileLoadPageAt_byte {segment : Segment} {vaddr : ℕ} (hj : j < c.pageSize) :
    (fileLoadPageAt c f segment vaddr)[j]? = some (f.byte
      (add32 (alignDown (sub32 vaddr segment.start) c.pageSize)
        (alignDown segment.offset c.pageSize) + j)) := by
  rw [fileLoadPageAt, getElem?_overlay_zeroPage hj, getD_vfsRead hj]

lemma mod_add_of_dvd {size n : ℕ} (hsize : size ∣ 2 ^ 32) (hn : size ∣ n) (hj : j < size) :
    n % 2 ^ 32 + j = (n + j) % 2 ^ 32 := by
  obtain ⟨m, hm⟩ := (Nat.dvd_mod_iff hsize).2 hn
  obtain ⟨w, hw⟩ := hsize
  have hlt : n % 2 ^ 32 < 2 ^ 32 := Nat.mod_lt _ (by norm_num)
  have hmw : m + 1 ≤ w := by
    rw [hm, hw] at hlt
    exact Nat.lt_of_mul_lt_mul_left hlt
  have hroom : n % 2 ^ 32 + size ≤ 2 ^ 32 := by
    calc n % 2 ^ 32 + size = size * (m + 1) := by rw [hm, Nat.mul_succ]
      _ ≤ size * w := Nat.mul_le_mul_left size hmw
      _ = 2 ^ 32 := hw.symm
  omega

lemma pageSize_dvd (c : Config) : c.pageSize ∣ 2 ^ 32 :=
  pow_dvd_pow 2 (c.pageBits_le.trans (by norm_num))

lemma base_mod (c : Config) : mmuMemStart % c.pageSize = 0 := by
  have hdvd : c.pageSize ∣ 2 ^ 18 := pow_dvd_pow 2 (c.pageBits_le.trans (by norm_num))
  exact Nat.mod_eq_zero_of_dvd hdvd

lemma firstByte_index {h : Phdr} {k : ℕ} (hcongruent : h.offset % c.pageSize = h.vaddr % c.pageSize)
    (hlt : mmuMemStart + h.vaddr + k < 2 ^ 32) :
    add32 (alignDown (sub32 (mmuMemStart + h.vaddr + k) (h.memoryStart c mmuMemStart)) c.pageSize)
        (alignDown h.offset c.pageSize) + alignRemainder (mmuMemStart + h.vaddr + k) c.pageSize =
      (h.offset + k) % 2 ^ 32 := by
  have hstart : h.fileStart mmuMemStart = mmuMemStart + h.vaddr := add32_of_lt (by omega)
  have hrem : (mmuMemStart + h.vaddr) % c.pageSize = h.vaddr % c.pageSize := by
    rw [Nat.add_mod, base_mod, zero_add, Nat.mod_mod]
  have hplace : (mmuMemStart + h.vaddr + k) % c.pageSize = (h.vaddr % c.pageSize + k) % c.pageSize := by
    rw [Nat.add_mod, hrem, ← Nat.add_mod, Nat.mod_add_mod]
  have hle := Nat.mod_le (mmuMemStart + h.vaddr) c.pageSize
  have hle' := Nat.mod_le h.offset c.pageSize
  have hle'' := Nat.mod_le (h.vaddr % c.pageSize + k) c.pageSize
  rw [hrem] at hle
  rw [hcongruent] at hle'
  have hdown : ∀ n, alignDown n c.pageSize = n - n % c.pageSize := fun n => alignDown_two_pow n _
  have hmod : alignRemainder (mmuMemStart + h.vaddr + k) c.pageSize =
      (h.vaddr % c.pageSize + k) % c.pageSize := (alignRemainder_two_pow _ _).trans hplace
  have hinside : sub32 (mmuMemStart + h.vaddr + k) (h.memoryStart c mmuMemStart) =
      h.vaddr % c.pageSize + k := by
    rw [Phdr.memoryStart, hstart, hdown, hrem, sub32_of_le (by omega) hlt]
    omega
  have hdvd : c.pageSize ∣ h.vaddr % c.pageSize + k - (h.vaddr % c.pageSize + k) % c.pageSize +
      (h.offset - h.offset % c.pageSize) :=
    (Nat.dvd_sub_mod _).add (Nat.dvd_sub_mod _)
  rw [hinside, hmod, hdown, hdown, add32, mod_add_of_dvd (pageSize_dvd c) hdvd
    (Nat.mod_lt _ (pageSize_pos c)), hcongruent]
  congr 1
  omega
end Pages
section Map
variable {c : Config} {env : Env c} {f : File} {o : Outcome} {h : Phdr} {k : ℕ}

lemma loadImage_segments {hs : List Phdr} {entry read : ℕ} (hmmu : c.mmu = true)
    (hfits : mmuMemStart + imageSize c hs + c.pageSize ≤ 2 ^ 32)
    (ho : loadImage c env f entry hs read = o) (hcode : o.code = 0) (s : Segment) :
    s ∈ o.map.segments ↔ s = stackSegment (alignUp (mmuMemStart + imageSize c hs) c.pageSize)
        (add32 (alignUp (mmuMemStart + imageSize c hs) c.pageSize) c.stackSize) ∨
      s = heapSegment (alignUp (mmuMemStart + imageSize c hs) c.pageSize)
        (alignUp (mmuMemStart + imageSize c hs) c.pageSize) ∨
      ∃ h ∈ hs, h.isLoaded = true ∧ s = (h.mapping c mmuMemStart (c.preload hs)).segment := by
  have hok : ¬o.code < 0 := by omega
  have hsize : memSizeLoop c hs 0 = .ok (imageSize c hs) :=
    memSizeLoop_eq hs 0 (fun hflat => absurd hmmu (by simp [hflat])) (by
      simp only [imageSize] at hfits
      omega)
  have hbase : c.userMemStart env (imageSize c hs) = some mmuMemStart := by
    rw [Config.userMemStart, if_pos hmmu]
  have hpos : imageSize c hs ≠ 0 := by
    intro hzero
    rw [loadImage, hsize] at ho
    simp only [hzero, if_true] at ho
    have hneg : ENOEXEC < 0 := by decide
    subst ho
    exact hok hneg
  have hsum : add32 mmuMemStart (imageSize c hs) = mmuMemStart + imageSize c hs :=
    add32_of_lt (by have := pageSize_pos c; omega)
  rw [loadImage_eq hsize hpos hbase] at ho
  dsimp only at ho
  rw [hsum, loadSegments] at ho
  have hplaced : ¬(hs.foldl (loadSegment c env f mmuMemStart (c.preload hs))
      ⟨0, 0, empty, []⟩).error < 0 → _ := foldl_placed hs ⟨0, 0, empty, []⟩ rfl
  generalize hs.foldl (loadSegment c env f mmuMemStart (c.preload hs)) ⟨0, 0, empty, []⟩ = st
    at ho hplaced
  by_cases herror : st.error < 0
  · rw [if_pos herror] at ho
    subst ho
    exact absurd herror hok
  · rw [if_neg herror, Config.insertHeapStack, if_pos hmmu] at ho
    have hstart : alignUp (mmuMemStart + imageSize c hs) c.pageSize < 2 ^ 32 := alignUp_lt _ _
    rcases hstack : memoryMapInsertHeapStack c.pageSize st.map
      (alignUp (mmuMemStart + imageSize c hs) c.pageSize) c.stackSize
      (fun i => c.mapAnswers env (progHeaderMax + i)) with ⟨code, map'⟩
    rw [hstack] at ho
    subst ho
    obtain rfl : code = 0 := hcode
    obtain ⟨hsegments, -⟩ := insertHeapStack_ok hstart hstack
    show s ∈ map'.segments ↔ _
    rw [hsegments, mem_insertSegment, mem_insertSegment, (hplaced herror).mem]
    simp [empty]

section Found
variable (hmmu : c.mmu = true) (hw : WellFormed c f) (hpre : c.preload (firstHeaders f) = false)

lemma WellFormed.complete (hw : WellFormed c f) : Complete f := by
  refine ⟨hw.phoff, hw.phnum, le_trans ?_ hw.table⟩
  exact Nat.add_le_add_left (Nat.mul_le_mul_left _ (min_le_left _ _)) _

section
variable (hw : WellFormed c f) (hh : h ∈ fileHeaders f) (hload : h.type = ptLoad) (hk : k < h.memsz)
include hw hh hload hk

lemma WellFormed.straight : h.fileStart mmuMemStart = mmuMemStart + h.vaddr :=
  add32_of_lt (by have := hw.below h hh hload; omega)

lemma WellFormed.pages : h.Pages c (mmuMemStart + h.vaddr + k) := by
  have hstart := hw.straight hh hload hk
  have hend := hw.below h hh hload
  exact ⟨hload, by omega, mapping_contains (by omega) (by omega) (by omega)⟩
end

lemma WellFormed.stackStart_ge (hw : WellFormed c f) :
    mmuMemStart + imageSize c (firstHeaders f) ≤ stackStart c f :=
  (alignUp_spec (k := c.pageBits) hw.fits).1

include hmmu hw hpre

section
variable (hcode : (loadElfBinary c env f).code = 0)
include hcode

lemma segment_of_contains (hh : h ∈ fileHeaders f) (hload : h.type = ptLoad) (hk : k < h.memsz)
    {s : Segment} (hs : s ∈ (loadElfBinary c env f).map.segments)
    (hcontains : s.Contains (mmuMemStart + h.vaddr + k)) :
    s = stackSegment (stackStart c f) (add32 (stackStart c f) c.stackSize) ∨
      h ∈ firstHeaders f ∧ h.isLoaded = true ∧ s = (h.mapping c mmuMemStart false).segment := by
  have hload' := loadElfBinary_complete env hw.long hw.accepted hw.complete
  rw [loadImage_segments hmmu hw.fits hload'.symm hcode, hpre] at hs
  rcases hs with hstack | hheap | ⟨g, hg, hloaded, rfl⟩
  · exact .inl hstack
  · have hne : stackStart c f ≠ 0 := by
      have hge := hw.stackStart_ge
      rw [mmuMemStart] at hge
      omega
    subst hheap
    obtain ⟨hlo, hhi⟩ := hcontains
    change stackStart c f ≤ _ at hlo
    change _ < top (stackStart c f) at hhi
    rw [top, if_neg hne] at hhi
    omega
  · obtain ⟨hgload, hgpos⟩ := isLoaded_iff.1 hloaded
    have hgmem := mem_of_mem_take hg
    have hgle := hw.filesz_le g hgmem hgload
    have hboth : ∃ a, g.Pages c a ∧ h.Pages c a :=
      ⟨_, ⟨hgload, by omega, hcontains⟩, hw.pages hh hload hk⟩
    have heq : g = h := by
      by_contra hne
      obtain ⟨a, ha⟩ := hboth
      exact hw.apart.forall hgmem hh hne a ha
    subst heq
    exact .inr ⟨hg, hloaded, rfl⟩

lemma firstRead_loaded (hh : h ∈ firstHeaders f) (hloaded : h.isLoaded = true) (hk : k < h.memsz) :
    firstRead c f (loadElfBinary c env f).map (mmuMemStart + h.vaddr + k) =
      some (f.byte ((h.offset + k) % 2 ^ 32)) := by
  have hmem := mem_of_mem_take hh
  have hload := (isLoaded_iff.1 hloaded).1
  have hlt : mmuMemStart + h.vaddr + k < 2 ^ 32 := by
    have := hw.below h hmem hload
    omega
  have hcomplete := loadElfBinary_complete env hw.long hw.accepted hw.complete
  have hown : (h.mapping c mmuMemStart false).segment ∈ (loadElfBinary c env f).map.segments := by
    rw [loadImage_segments hmmu hw.fits hcomplete.symm hcode, hpre]
    exact .inr (.inr ⟨h, hh, hloaded, rfl⟩)
  have hcontains := (hw.pages hmem hload hk).2.2
  have hfind : memoryMapFind (loadElfBinary c env f).map (mmuMemStart + h.vaddr + k) =
      some (h.mapping c mmuMemStart false).segment := by
    cases hfound : memoryMapFind (loadElfBinary c env f).map (mmuMemStart + h.vaddr + k) with
    | none => exact absurd hcontains ((memoryMapFind_none hlt).1 hfound _ hown)
    | some s =>
      have hs := memoryMapFind_contains hlt hfound
      rcases segment_of_contains hmmu hw hpre hcode hmem hload hk (List.mem_of_find?_eq_some hfound)
        hs with rfl | ⟨-, -, rfl⟩
      · have himage := segment_le_image (c := c) (firstHeaders f) 0 hh hload
        have hge := hw.stackStart_ge
        have hlo : stackStart c f ≤ mmuMemStart + h.vaddr + k := hs.1
        rw [imageSize] at hge
        omega
      · rfl
  have hops : (h.mapping c mmuMemStart false).segment.ops = .file := by
    have hflag : hasFlag (h.segmentFlags c false) segFixed = false := by
      simp only [Phdr.segmentFlags, hmmu, if_true, Bool.false_eq_true, if_false]
      split_ifs <;> decide
    simp [Mapping.segment, Phdr.mapping, hflag]
  have hplace : alignRemainder (mmuMemStart + h.vaddr + k) c.pageSize < c.pageSize :=
    (alignRemainder_two_pow _ _).trans_lt (Nat.mod_lt _ (pageSize_pos c))
  simp only [firstRead, memoryMapLoadPageAt, hfind, hops]
  rw [if_neg (by simp)]
  simp only
  rw [fileLoadPageAt_byte hplace]
  exact congrArg (fun i => some (f.byte i)) (firstByte_index (hw.congruent h hmem hload) hlt)

lemma firstRead_unmapped (hh : h ∈ fileHeaders f) (hload : h.type = ptLoad)
    (hmapped : ¬(h ∈ firstHeaders f ∧ h.isLoaded = true)) (hk : k < h.memsz) (v : UInt8) :
    firstRead c f (loadElfBinary c env f).map (mmuMemStart + h.vaddr + k) = some v ↔
      (stackSegment (stackStart c f) (add32 (stackStart c f) c.stackSize)).Contains
        (mmuMemStart + h.vaddr + k) ∧ v = 0 := by
  have hlt : mmuMemStart + h.vaddr + k < 2 ^ 32 := by
    have := hw.below h hh hload
    omega
  have hcomplete := loadElfBinary_complete env hw.long hw.accepted hw.complete
  have hstack : stackSegment (stackStart c f) (add32 (stackStart c f) c.stackSize) ∈
      (loadElfBinary c env f).map.segments := by
    rw [loadImage_segments hmmu hw.fits hcomplete.symm hcode]
    exact .inl rfl
  have hplace : alignRemainder (mmuMemStart + h.vaddr + k) c.pageSize < c.pageSize :=
    (alignRemainder_two_pow _ _).trans_lt (Nat.mod_lt _ (pageSize_pos c))
  cases hfound : memoryMapFind (loadElfBinary c env f).map (mmuMemStart + h.vaddr + k) with
  | none =>
    have hout := (memoryMapFind_none hlt).1 hfound _ hstack
    simp [firstRead, memoryMapLoadPageAt, hfound, hout]
  | some s =>
    have hs := memoryMapFind_contains hlt hfound
    rcases segment_of_contains hmmu hw hpre hcode hh hload hk (List.mem_of_find?_eq_some hfound)
      hs with rfl | ⟨hfirst, hloaded, -⟩
    · have hops : (stackSegment (stackStart c f) (add32 (stackStart c f) c.stackSize)).ops =
        .anonymous := rfl
      simp only [firstRead, memoryMapLoadPageAt, hfound, hops]
      rw [if_neg (by simp)]
      simp only [zeroPage, List.getElem?_replicate, if_pos hplace, Option.some.injEq, hs, true_and]
      exact eq_comm
    · exact absurd ⟨hfirst, hloaded⟩ hmapped
end

/-- The image is as the file says iff each header with memory is right. -/
theorem image_right_iff (hcode : (loadElfBinary c env f).code = 0) :
    ImageRight c f (loadElfBinary c env f) ↔
      ∀ h ∈ fileHeaders f, h.type = ptLoad → 0 < h.memsz → h.Right c f := by
  have hbase : (loadElfBinary c env f).base = mmuMemStart := by
    have hcomplete := loadElfBinary_complete env hw.long hw.accepted hw.complete
    exact (loadImage_built hcomplete.symm (by omega)).size_mmu hmmu
  have hword : ∀ h ∈ fileHeaders f, h.type = ptLoad → ∀ k < h.filesz,
      (h.offset + k) % 2 ^ 32 = h.offset + k := by
    intro h hh hload k hk
    have hle := hw.backed h hh hload
    have hsize := f.data_lt
    exact Nat.mod_eq_of_lt (by omega)
  rw [ImageRight, hbase]
  refine forall₃_congr fun h hh hload => ?_
  by_cases hfirst : h ∈ firstHeaders f
  · by_cases hpos : 0 < h.filesz
    · have hloaded : h.isLoaded = true := isLoaded_iff.2 ⟨hload, hpos⟩
      rw [Phdr.Right, if_pos hfirst]
      constructor
      · intro hright _
        refine ⟨hpos, fun k hlo hhi => ?_⟩
        have hread := hright k hhi
        rw [firstRead_loaded hmmu hw hpre hcode hfirst hloaded hhi, if_neg (by omega)] at hread
        exact Option.some.inj hread
      · intro hright k hk
        rw [firstRead_loaded hmmu hw hpre hcode hfirst hloaded hk]
        split_ifs with hfile
        · rw [hword h hh hload k hfile]
        · rw [(hright (by omega)).2 k (by omega) hk]
    · have hmapped : ¬(h ∈ firstHeaders f ∧ h.isLoaded = true) :=
        fun hboth => hpos (isLoaded_iff.1 hboth.2).2
      rw [Phdr.Right, if_pos hfirst]
      constructor
      · intro hright hmem
        have hread := (firstRead_unmapped hmmu hw hpre hcode hh hload hmapped hmem _).1 (hright 0 hmem)
        have himage := segment_le_image (c := c) (firstHeaders f) 0 hfirst hload
        have hge := hw.stackStart_ge
        have hlo : stackStart c f ≤ mmuMemStart + h.vaddr + 0 := hread.1.1
        rw [imageSize] at hge
        omega
      · intro hright k hk
        exact absurd (hright (by omega)).1 hpos
  · have hmapped : ¬(h ∈ firstHeaders f ∧ h.isLoaded = true) := fun hboth => hfirst hboth.1
    rw [Phdr.Right, if_neg hfirst]
    constructor
    · intro hright _ k hk
      obtain ⟨hstack, hzero⟩ :=
        (firstRead_unmapped hmmu hw hpre hcode hh hload hmapped hk _).1 (hright k hk)
      refine ⟨hstack, fun hfile => ?_⟩
      rwa [if_pos hfile] at hzero
    · intro hright k hk
      obtain ⟨hstack, hzero⟩ := hright (by omega) k hk
      refine (firstRead_unmapped hmmu hw hpre hcode hh hload hmapped hk _).2 ⟨hstack, ?_⟩
      split_ifs with hfile
      · exact hzero hfile
      · rfl
end Found
end Map

lemma wellFormed_single {f : File} {n : ℕ} (hheaders : fileHeaders f = [⟨1, 0, 0, n, 100, 5⟩])
    (hn : n ≤ 84) (hlen : f.data.length = 84) (haccepted : accepts f.data = true)
    (hphoff : elfPhoff f.data = 52) (hphnum : elfPhnum f.data = 1) : WellFormed mmuConfig f := by
  have hfirst : firstHeaders f = [⟨1, 0, 0, n, 100, 5⟩] := by rw [firstHeaders, hheaders]; rfl
  refine ⟨by rw [hlen]; decide, haccepted, by omega, by omega, ?_, ?_, ?_, ?_, ?_, ?_, ?_⟩
  · rw [hphoff, hphnum, hlen]
    decide
  · simp only [hheaders, mem_singleton, forall_eq]
    omega
  · simp only [hheaders, mem_singleton, forall_eq]
    omega
  · simp only [hheaders, mem_singleton, forall_eq]
    exact fun _ => trivial
  · rw [hheaders]
    exact pairwise_singleton _ _
  · simp only [hheaders, mem_singleton, forall_eq]
    exact fun _ => by decide
  · rw [hfirst]
    have himage : imageSize mmuConfig [⟨1, 0, 0, n, 100, 5⟩] =
        imageSize mmuConfig [⟨1, 0, 0, 0, 100, 5⟩] := rfl
    rw [himage]
    decide

lemma tinyElf_wellFormed : WellFormed mmuConfig tinyElf :=
  wellFormed_single (n := 84) (by decide) (by decide) rfl (by decide) (by decide) (by decide)

theorem image_right_tiny : WellFormed mmuConfig tinyElf ∧
      ImageRight mmuConfig tinyElf (loadElfBinary mmuConfig (granting mmuConfig) tinyElf) := by
  refine ⟨tinyElf_wellFormed, (image_right_iff rfl tinyElf_wellFormed (by decide)
    (by decide +kernel)).2 ?_⟩
  have hheaders : fileHeaders tinyElf = [⟨1, 0, 0, 84, 100, 5⟩] := by decide
  have hfirst : firstHeaders tinyElf = [⟨1, 0, 0, 84, 100, 5⟩] := by decide
  simp only [hheaders, mem_singleton, forall_eq]
  intro _ _
  rw [Phdr.Right, hfirst, if_pos (mem_singleton_self _)]
  refine ⟨by decide, fun k (hlo : 84 ≤ k) (hhi : k < 100) => ?_⟩
  rw [File.byte, getD_eq_default]
  show 84 ≤ (0 + k) % 2 ^ 32
  omega

def shortElf : File where
  data := tinyElf.data.set 71 76
  data_lt := by decide

theorem rest_not_cleared :
    WellFormed mmuConfig shortElf ∧ mmuConfig.preload (firstHeaders shortElf) = false ∧
      (loadElfBinary mmuConfig (granting mmuConfig) shortElf).code = 0 ∧
      fileHeaders shortElf = [⟨1, 0, 0, 76, 100, 5⟩] ∧
      firstRead mmuConfig shortElf (loadElfBinary mmuConfig (granting mmuConfig) shortElf).map
        (mmuMemStart + 79) = some 5 ∧
      ¬ImageRight mmuConfig shortElf (loadElfBinary mmuConfig (granting mmuConfig) shortElf) := by
  have hheaders : fileHeaders shortElf = [⟨1, 0, 0, 76, 100, 5⟩] := by decide
  have hread : firstRead mmuConfig shortElf
      (loadElfBinary mmuConfig (granting mmuConfig) shortElf).map (mmuMemStart + 79) = some 5 := by
    decide +kernel
  have hbase : (loadElfBinary mmuConfig (granting mmuConfig) shortElf).base = mmuMemStart := by
    decide +kernel
  refine ⟨wellFormed_single (n := 76) hheaders (by decide) rfl (by decide) (by decide) (by decide),
    by decide, by decide +kernel, hheaders, hread, fun hright => ?_⟩
  have hzero := hright ⟨1, 0, 0, 76, 100, 5⟩ (by rw [hheaders]; exact mem_singleton_self _) rfl
    79 (by decide)
  rw [hbase] at hzero
  exact absurd (hread.symm.trans hzero) (by decide)

end Gloworm.Elf
