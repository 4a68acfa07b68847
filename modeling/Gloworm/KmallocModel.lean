import Gloworm.MachineWords
import Gloworm.TransitionRuns
import Gloworm.CoalescedList

/-! The kernel heap of `kmalloc.c` on a word-addressed memory. A `struct block` is two words, its
size and its `next` pointer. The result of `page_alloc` is an input of `kmalloc`, and the ranges
handed out so far are kept beside the globals of `main_heap`. -/
namespace Gloworm.Kmalloc
open Function Word SpanCover

/-- The memory, the head of the free list, and the pages taken. -/
structure Heap where
  mem : ℕ → ℕ
  freeBlocks : ℕ
  totalPages : ℕ
  bytesFree : ℕ
  bytesAllocated : ℕ
  pages : List Span

/-- What ends a call for good. -/
inductive Stop
  | doubleFree (block : ℕ)
  | brokenList (head : ℕ)
  | outOfMemory
  | endless
  deriving DecidableEq

def sizeofBlock : ℕ := 8

def sizeofPointer : ℕ := 4

namespace Heap

def size (h : Heap) (block : ℕ) : ℕ := h.mem block

def next (h : Heap) (block : ℕ) : ℕ := h.mem (block + sizeofPointer)

def setSize (h : Heap) (block value : ℕ) : Heap :=
  { h with mem := update h.mem block value }

def setNext (h : Heap) (block value : ℕ) : Heap :=
  { h with mem := update h.mem (block + sizeofPointer) value }

/-- Let the block before, or the head of the list, point to `value`. -/
def setLink (h : Heap) (prev value : ℕ) : Heap :=
  if prev ≠ 0 then h.setNext prev value else { h with freeBlocks := value }
end Heap

def initKernelHeap (mem : ℕ → ℕ) : Heap := ⟨mem, 0, 0, 0, 0, []⟩

def walkBound : ℕ := 2 ^ 32

/-- Find the place of a block in the sorted free list, and join it with its neighbours. -/
def kmfreeLoop (block : ℕ) : ℕ → Heap → ℕ → ℕ → Except Stop Heap
  | 0, _, _, _ => .error .endless
  | fuel + 1, h, prev, cur =>
    if cur = 0 then
      let h := h.setNext block 0
      if prev ≠ 0 then .ok (h.setNext prev block)
      else if h.freeBlocks = 0 then .ok { h with freeBlocks := block }
      else .error (.brokenList h.freeBlocks)
    else if h.next cur = block then .error (.doubleFree cur)
    else if add32 cur (h.size cur) = block then
      let h := h.setSize cur (add32 (h.size cur) (h.size block))
      if add32 cur (h.size cur) = h.next cur then
        let h := h.setSize cur (add32 (h.size cur) (h.size (h.next cur)))
        .ok (h.setNext cur (h.next (h.next cur)))
      else .ok h
    else if block ≤ cur then
      let h := (h.setLink prev block).setNext block cur
      if add32 block (h.size block) = cur then
        let h := h.setSize block (add32 (h.size block) (h.size cur))
        .ok (h.setNext block (h.next cur))
      else .ok h
    else kmfreeLoop block fuel h cur (h.next cur)

def kmfree (h : Heap) (ptr : ℕ) : Except Stop Heap :=
  let block := sub32 ptr sizeofBlock
  if h.next block ≠ 0 then .error (.doubleFree block)
  else
    let h := { h with
      bytesFree := add32 h.bytesFree (h.size block)
      bytesAllocated := sub32 h.bytesAllocated (h.size block) }
    kmfreeLoop block walkBound h 0 h.freeBlocks

/-- Cut what is not needed off a free block. -/
def splitBlock (h : Heap) (cur blockSize : ℕ) : ℕ × Heap :=
  if add32 (add32 blockSize sizeofBlock) 8 ≤ h.size cur then
    let nextfree := add32 cur blockSize
    let h := h.setSize nextfree (sub32 (h.size cur) blockSize)
    let h := h.setSize cur blockSize
    (nextfree, h.setNext nextfree (h.next cur))
  else (h.next cur, h)

/-- Find the first block that is large enough. -/
def kmallocLoop (blockSize : ℕ) : ℕ → Heap → ℕ → ℕ → Except Stop (Option (ℕ × Heap))
  | 0, _, _, _ => .error .endless
  | fuel + 1, h, prev, cur =>
    if cur = 0 then .ok none
    else if blockSize ≤ h.size cur then
      let (nextfree, h) := splitBlock h cur blockSize
      let h := (h.setNext cur 0).setLink prev nextfree
      .ok (some (add32 cur sizeofBlock, { h with
        bytesFree := sub32 h.bytesFree (h.size cur)
        bytesAllocated := add32 h.bytesAllocated (h.size cur) }))
    else kmallocLoop blockSize fuel h cur (h.next cur)

def blockSizeOf (size : ℕ) : ℕ := add32 (alignUp size sizeofPointer) sizeofBlock

def pageSizeOf (pageBits size : ℕ) : ℕ := alignUp (blockSizeOf size) (2 ^ pageBits)

def pageAlloc (h : Heap) (page pageSize : ℕ) : Heap :=
  if page = 0 then h else { h with pages := ⟨page, pageSize⟩ :: h.pages }

/-- Take new pages when no block is large enough. -/
def kmallocPages (h : Heap) (blockSize pageSize page : ℕ) : Except Stop (ℕ × Heap) :=
  let cur := page
  let h := pageAlloc h page pageSize
  if cur = 0 then .error .outOfMemory
  else
    let h := (h.setSize cur pageSize).setNext cur 0
    let h := { h with
      totalPages := add32 h.totalPages pageSize
      bytesAllocated := add32 h.bytesAllocated pageSize }
    if sizeofBlock + 8 < sub32 pageSize blockSize then
      let h := h.setSize cur blockSize
      let nextfree := add32 cur blockSize
      let h := (h.setSize nextfree (sub32 pageSize blockSize)).setNext nextfree 0
      match kmfree h (add32 nextfree sizeofBlock) with
      | .error stop => .error stop
      | .ok h => .ok (add32 cur sizeofBlock, h)
    else .ok (add32 cur sizeofBlock, h)

def kmalloc (pageBits : ℕ) (h : Heap) (size page : ℕ) : Except Stop (ℕ × Heap) :=
  match kmallocLoop (blockSizeOf size) walkBound h 0 h.freeBlocks with
  | .error stop => .error stop
  | .ok (some r) => .ok r
  | .ok none => kmallocPages h (blockSizeOf size) (pageSizeOf pageBits size) page

structure System where
  heap : Heap
  live : List ℕ

inductive Event
  | malloc (size page : ℕ)
  | free (ptr : ℕ)
  | store (addr value : ℕ)

/-- New pages are aligned and overlap none given before. -/
def PageContract (pageBits : ℕ) (h : Heap) (page pageSize : ℕ) : Prop :=
  page = 0 ∨ (2 ^ pageBits ∣ page ∧ page + pageSize ≤ 2 ^ 32 ∧
    ∀ r ∈ h.pages, (⟨page, pageSize⟩ : Span).Apart r)

/-- The memory of an allocated block, with its header. -/
def liveSpan (h : Heap) (ptr : ℕ) : Span :=
  ⟨sub32 ptr sizeofBlock, h.size (sub32 ptr sizeofBlock)⟩

def System.liveSpans (s : System) : List Span := s.live.map (liveSpan s.heap)

def freeListFrom (m : ℕ → ℕ) : ℕ → ℕ → List Span
  | 0, _ => []
  | fuel + 1, p => if p = 0 then [] else ⟨p, m p⟩ :: freeListFrom m fuel (m (p + sizeofPointer))

/-- The blocks of the free list. -/
def Heap.freeList (h : Heap) : List Span := freeListFrom h.mem walkBound h.freeBlocks

/-- Sizes leave room for rounding; pointers are held, and writes stay inside held blocks. -/
def Permitted (pageBits : ℕ) (s : System) : Event → Prop
  | .malloc size page => size + 16 + 2 ^ pageBits ≤ 2 ^ 32 ∧
      PageContract pageBits s.heap page (pageSizeOf pageBits size)
  | .free ptr => ptr ∈ s.live
  | .store addr _ => ∃ ptr ∈ s.live, (liveSpan s.heap ptr).start + sizeofBlock ≤ addr ∧
      addr + sizeofPointer ≤ (liveSpan s.heap ptr).stop

instance (pageBits : ℕ) (s : System) (e : Event) : Decidable (Permitted pageBits s e) := by
  cases e <;> unfold Permitted <;> try unfold PageContract Span.Apart
  all_goals infer_instance

def perform (pageBits : ℕ) (s : System) : Event → Except Stop System
  | .malloc size page =>
    (kmalloc pageBits s.heap size page).map fun r => ⟨r.2, r.1 :: s.live⟩
  | .free ptr => (kmfree s.heap ptr).map fun h => ⟨h, s.live.erase ptr⟩
  | .store addr value =>
    .ok ⟨{ s.heap with mem := update s.heap.mem addr value }, s.live⟩

def Step (pageBits : ℕ) (s : System) (e : Event) (t : System) : Prop :=
  Permitted pageBits s e ∧ perform pageBits s e = .ok t

end Gloworm.Kmalloc
