import Gloworm.CheckedBytes
import Gloworm.MemoryMapBreak

/-! Loading an ELF binary: `load_elf_binary` of `binaries.c`, with and without an MMU. -/
namespace Gloworm.Elf
open Word CheckedBytes MemoryMap

structure Config where
  pageBits : ℕ
  mmu : Bool
  stackSize : ℕ
  pageBits_le : pageBits ≤ 16

def Config.pageSize (c : Config) : ℕ := 2 ^ c.pageBits

structure File where
  data : List UInt8
  data_lt : data.length < 2 ^ 31

def vfsSeek (f : File) (position : ℕ) : ℕ := min position f.data.length

def vfsRead (f : File) (position nbytes : ℕ) : List UInt8 := (f.data.drop position).take nbytes

/-- A read that is too short leaves the rest of the buffer as it was. -/
def overlay (bytes before : List UInt8) : List UInt8 := bytes ++ before.drop bytes.length

/-- A program header. -/
structure Phdr where
  type : ℕ
  offset : ℕ
  vaddr : ℕ
  filesz : ℕ
  memsz : ℕ
  flags : ℕ
  deriving DecidableEq

def ehdrSize : ℕ := 52
def phdrSize : ℕ := 32
def ptLoad : ℕ := 1
def ptGnuRelro : ℕ := 0x6474E552
def pfX : ℕ := 1
def pfW : ℕ := 2
def pfR : ℕ := 4
def progHeaderMax : ℕ := 6
def segTypeCode : ℕ := 1
def segTypeData : ℕ := 2
def segPopulate : ℕ := 0x4000

def phdrAt (table : List UInt8) (i : ℕ) : Phdr where
  type := longAt table (phdrSize * i)
  offset := longAt table (phdrSize * i + 4)
  vaddr := longAt table (phdrSize * i + 8)
  filesz := longAt table (phdrSize * i + 16)
  memsz := longAt table (phdrSize * i + 20)
  flags := longAt table (phdrSize * i + 24)

def elfEntry (header : List UInt8) : ℕ := longAt header 24
def elfPhoff (header : List UInt8) : ℕ := longAt header 28
def elfPhnum (header : List UInt8) : ℕ := wordAt header 44

/-- The header is one of a 32-bit big-endian executable for the m68k. -/
def accepts (header : List UInt8) : Bool :=
  [0, 1, 2, 3, 4, 5, 6].map (byteAt header) == [0x7F, 0x45, 0x4C, 0x46, 1, 2, 1] &&
    wordAt header 16 == 2 && wordAt header 18 == 4 && wordAt header 42 == phdrSize

/-- What the stack frame held before, and the answers of the allocators. -/
structure Env (c : Config) where
  headerBefore : List UInt8
  tableBefore : List UInt8
  answers : ℕ → Answers
  loadPages : ℕ → ℤ
  userMemory : ℕ → Option ℕ
  stackMemory : Option ℕ
  userMemory_aligned : ∀ size start, userMemory size = some start → start % c.pageSize = 0
  userMemory_le : ∀ size start, userMemory size = some start → start + size ≤ 2 ^ 32

/-- A range that the loader writes to, through the page tables or directly. -/
structure Write where
  paged : Bool
  address : ℕ
  length : ℕ
  deriving DecidableEq

section Segments
variable (c : Config) (env : Env c) (f : File) (base : ℕ) (preload : Bool) (h : Phdr)

def Phdr.fileStart : ℕ := add32 base h.vaddr

def Phdr.fileEnd : ℕ := add32 (h.fileStart base) h.filesz

def Phdr.memoryStart : ℕ := alignDown (h.fileStart base) c.pageSize

def Phdr.memoryEnd : ℕ := alignUp (add32 (h.fileStart base) h.memsz) c.pageSize

def Phdr.segmentFlags : ℕ :=
  let kind := if c.mmu then if preload then segPopulate else 0 else segFixed
  let read := if hasFlag h.flags pfR then segRead else 0
  let write := if hasFlag h.flags pfW then segWrite else 0
  let type := if hasFlag h.flags pfX then segExecutable ||| segTypeCode else segTypeData
  kind ||| read ||| write ||| type

/-- The segment that a program header asks for. -/
def Phdr.mapping : Mapping where
  start := h.memoryStart c base
  length := sub32 (h.memoryEnd c base) (h.memoryStart c base)
  flags := h.segmentFlags c preload
  object := some 0
  offset := h.offset

/-- The file's bytes, and the zeros behind them. -/
def Phdr.writes : List Write :=
  [⟨c.mmu, h.fileStart base, (vfsRead f (vfsSeek f h.offset) h.filesz).length⟩,
    ⟨false, h.fileEnd base, sub32 h.memsz h.filesz⟩]

/-- The words that are relocated in place. -/
def Phdr.relocates : Write := ⟨false, h.fileStart base, h.memsz / 4 * 4⟩

def Phdr.isLoaded : Bool := h.type = ptLoad ∧ 0 < h.filesz

def Config.mapAnswers (i : ℕ) : Answers :=
  ⟨(env.answers i).canAlloc, if c.mmu then (env.answers i).mmuError else 0⟩

def mapSegment (i : ℕ) (map : Map) : ℤ × Map :=
  memoryMapMmap c.pageSize map (h.mapping c base preload) (c.mapAnswers env i)

/-- What the loop over the program headers has got to. -/
structure LoadState where
  index : ℕ
  error : ℤ
  map : Map
  writes : List Write

/-- One program header, unless an earlier one has failed. -/
def loadSegment (st : LoadState) (h : Phdr) : LoadState :=
  if st.error < 0 then st
  else if h.isLoaded then
    match mapSegment c env base preload h st.index st.map with
    | (error, map) =>
      if error < 0 then ⟨st.index, error, map, st.writes⟩
      else if preload then
        if c.mmu ∧ env.loadPages st.index < 0 then
          ⟨st.index, env.loadPages st.index, map, st.writes⟩
        else ⟨st.index + 1, 0, map, st.writes ++ h.writes c f base⟩
      else ⟨st.index + 1, 0, map, st.writes⟩
  else if h.type = ptGnuRelro then
    ⟨st.index + 1, 0, st.map, st.writes ++ [h.relocates base]⟩
  else ⟨st.index + 1, 0, st.map, st.writes⟩

def loadSegments (hs : List Phdr) : LoadState :=
  hs.foldl (loadSegment c env f base preload) ⟨0, 0, empty, []⟩
end Segments

/-- The loop that adds up the size of the image. -/
def memSizeLoop (c : Config) : List Phdr → ℕ → Except ℤ ℕ
  | [], memSize => .ok memSize
  | h :: rest, memSize =>
    if h.type = ptLoad then
      if c.mmu = false ∧ 0x80000000 ≤ h.vaddr then .error EFAULT
      else memSizeLoop c rest (add32 (if memSize < h.vaddr then h.vaddr else memSize)
          (alignUp (add32 (alignRemainder h.vaddr c.pageSize) h.memsz) c.pageSize))
    else memSizeLoop c rest memSize

/-- The file is read at once, and not at the first access to a page. -/
def Config.preload (c : Config) (hs : List Phdr) : Bool :=
  !c.mmu || hs.any fun h => h.type = ptGnuRelro

def mmuMemStart : ℕ := 0x40000

def Config.userMemStart (c : Config) (env : Env c) (memSize : ℕ) : Option ℕ :=
  if c.mmu then some mmuMemStart else env.userMemory (alignUp memSize c.pageSize)

def Config.insertHeapStack (c : Config) (env : Env c) (map : Map) (start : ℕ) : ℤ × Map :=
  if c.mmu then memoryMapInsertHeapStack c.pageSize map start c.stackSize
    fun i => c.mapAnswers env (progHeaderMax + i)
  else match env.stackMemory with
    | none => (ENOMEM, map)
    | some region => memoryMapInsertHeapStack c.pageSize map region c.stackSize
        fun i => c.mapAnswers env (progHeaderMax + i)

/-- What a call leaves, with how many program headers were looked at and how many had been read. -/
structure Outcome where
  code : ℤ
  map : Map
  entry : Option ℕ
  used : ℕ
  read : ℕ
  base : ℕ
  size : ℕ
  writes : List Write

def Outcome.stop (code : ℤ) : Outcome := ⟨code, empty, none, 0, 0, 0, 0, []⟩

/-- The part of `load_elf_binary` behind the headers. -/
def loadImage (c : Config) (env : Env c) (f : File) (entry : ℕ) (hs : List Phdr) (read : ℕ) :
    Outcome :=
  match memSizeLoop c hs 0 with
  | .error error => { Outcome.stop error with used := hs.length, read := read }
  | .ok memSize =>
    if memSize = 0 then { Outcome.stop ENOEXEC with used := hs.length, read := read }
    else match c.userMemStart env memSize with
      | none => { Outcome.stop ENOMEM with used := hs.length, read := read }
      | some base =>
        let st := loadSegments c env f base (c.preload hs) hs
        let size := alignUp memSize c.pageSize
        if st.error < 0 then ⟨st.error, st.map, none, hs.length, read, base, size, st.writes⟩
        else match c.insertHeapStack env st.map (alignUp (add32 base memSize) c.pageSize) with
          | (error, map) =>
            ⟨error, map, some (add32 base entry), hs.length, read, base, size, st.writes⟩

def loadElfBinary (c : Config) (env : Env c) (f : File) : Outcome :=
  let bytes := vfsRead f 0 ehdrSize
  if bytes = [] then .stop 0
  else
    let header := overlay bytes env.headerBefore
    if !accepts header then .stop ENOEXEC
    else
      let numPh := min (elfPhnum header) progHeaderMax
      let position := vfsSeek f (elfPhoff header)
      if position = 0 then .stop 0
      else
        let table := vfsRead f position (phdrSize * numPh)
        if table = [] then .stop 0
        else loadImage c env f (elfEntry header)
          ((List.range numPh).map (phdrAt (overlay table env.tableBefore)))
          (table.length / phdrSize)

end Gloworm.Elf
