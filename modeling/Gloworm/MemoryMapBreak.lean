import Gloworm.MemoryMapUnmap

/-! The program break. The heap and the stack of a process are two neighbouring segments; the break
between them is moved by resizing one and then the other. -/
namespace Gloworm.MemoryMap
open Word Transition List

def memorySegmentFindPrev (address : ℕ) : List Segment → Option ℕ
  | [] => none
  | cur :: rest =>
    match memorySegmentFindPrev address rest with
    | some i => some (i + 1)
    | none => if withinStart cur address && withinEnd cur address then some 0 else none

def resizeDown (segments : List Segment) (i : ℕ) (segment : Segment) (diff : ℤ) :
    ℤ × List Segment :=
  let newAddr := toUnsigned (segment.start - diff)
  match if i = 0 then none else segments[i - 1]? with
  | none => (0, segments.set i { segment with start := newAddr })
  | some adjacent =>
    if withinEnd adjacent newAddr then
      if !withinStart adjacent newAddr then (EFAULT, segments)
      else (0, (segments.set (i - 1) { adjacent with stop := newAddr }).set i
        { segment with start := newAddr })
    else (0, segments.set i { segment with start := newAddr })

def resizeUp (segments : List Segment) (i : ℕ) (segment : Segment) (diff : ℤ) :
    ℤ × List Segment :=
  let newAddr := toUnsigned (segment.stop + diff)
  match segments[i + 1]? with
  | none => (0, segments.set i { segment with stop := newAddr })
  | some adjacent =>
    if withinStart adjacent newAddr then
      if !withinOrAtEnd adjacent newAddr then (EFAULT, segments)
      else (0, (segments.set (i + 1) { adjacent with start := newAddr }).set i
        { segment with stop := newAddr })
    else (0, segments.set i { segment with stop := newAddr })

def memoryMapResize (segments : List Segment) (i : ℕ) (diff : ℤ) : ℤ × List Segment :=
  match segments[i]? with
  | none => (0, segments)
  | some segment =>
    if hasFlag segment.flags segGrowsdown then resizeDown segments i segment diff
    else resizeUp segments i segment diff

/-- The tests of `memory_map_move_sbrk` before it moves anything. -/
def findStack (pageSize : ℕ) (map : Map) (diff : ℤ) : Except ℤ ℕ :=
  match memorySegmentFindPrev map.sbrk map.segments with
  | none => .error EFAULT
  | some j =>
    if j = 0 then .error EFAULT
    else match map.segments[j]? with
    | none => .error EFAULT
    | some stack =>
      if map.sbrk ≠ stack.start then .error EFAULT
      else if toSigned (toUnsigned (sub32 stack.stop stack.start + diff)) < 0 then .error ENOMEM
      else if alignRemainder diff.natAbs pageSize ≠ 0 then .error ENOMEM
      else .ok j

def memoryMapMoveSbrk (pageSize : ℕ) (map : Map) (diff : ℤ) : ℤ × Map :=
  match findStack pageSize map diff with
  | .error error => (error, map)
  | .ok j =>
    let first := if 0 ≤ diff then memoryMapResize map.segments j (-diff)
      else memoryMapResize map.segments (j - 1) diff
    if first.1 < 0 then (first.1, { map with segments := first.2 })
    else
      let second := if 0 ≤ diff then memoryMapResize first.2 (j - 1) diff
        else memoryMapResize first.2 j (-diff)
      if second.1 < 0 then (second.1, { map with segments := second.2 })
      else (0, { map with
        segments := second.2
        sbrk := toUnsigned (map.sbrk + diff) })

def anonymousFlags (type : ℕ) : ℕ := type ||| segRead ||| segWrite ||| segAnonymous

def heapMapping (start : ℕ) : Mapping := ⟨start, 0, anonymousFlags segTypeHeap, none, 0⟩

def stackMapping (start size : ℕ) : Mapping :=
  ⟨start, size, anonymousFlags (segTypeStack ||| segGrowsdown), none, 0⟩

def memoryMapInsertHeapStack (pageSize : ℕ) (map : Map) (start stackSize : ℕ)
    (answers : ℕ → Answers) : ℤ × Map :=
  let heap := memoryMapMmap pageSize map (heapMapping start) (answers 0)
  if heap.1 < 0 then heap
  else
    let stack := memoryMapMmap pageSize heap.2 (stackMapping start stackSize) (answers 1)
    if stack.1 < 0 then stack
    else (0, ⟨stack.2.segments, stack.2.codeStart, stack.2.dataStart, start, start,
      add32 start stackSize⟩)

inductive BreakCall
  | brk (addr userStackp : ℕ)
  | sbrk (diff : ℤ) (userStackp : ℕ)

def BreakCall.diff (pageSize : ℕ) (map : Map) : BreakCall → ℤ
  | .brk addr _ => toSigned (sub32 (alignUp addr pageSize) map.sbrk)
  | .sbrk diff _ => toSigned (alignUp (toUnsigned diff) pageSize)

def BreakCall.userStackp : BreakCall → ℕ
  | .brk _ userStackp => userStackp
  | .sbrk _ userStackp => userStackp

def reachesStack (map : Map) (diff : ℤ) (userStackp : ℕ) : Bool :=
  userStackp ≤ toUnsigned (map.heapStart + diff)

def doBrk (pageSize : ℕ) (map : Map) (addr userStackp : ℕ) : ℤ × Map :=
  let diff := (BreakCall.brk addr userStackp).diff pageSize map
  if reachesStack map diff userStackp then (ENOMEM, map) else memoryMapMoveSbrk pageSize map diff

def doSbrk (pageSize : ℕ) (map : Map) (diff : ℤ) (userStackp : ℕ) : Option ℕ × Map :=
  if diff = 0 then (some map.sbrk, map)
  else
    let aligned := (BreakCall.sbrk diff userStackp).diff pageSize map
    if reachesStack map aligned userStackp then (none, map)
    else
      let moved := memoryMapMoveSbrk pageSize map aligned
      if moved.1 ≠ 0 then (none, moved.2) else (some moved.2.sbrk, moved.2)

def BreakCall.perform (pageSize : ℕ) (map : Map) : BreakCall → Bool × Map
  | .brk addr userStackp =>
    ((doBrk pageSize map addr userStackp).1 < 0, (doBrk pageSize map addr userStackp).2)
  | .sbrk diff userStackp =>
    ((doSbrk pageSize map diff userStackp).1.isNone, (doSbrk pageSize map diff userStackp).2)

def BreakCall.Word : BreakCall → Prop
  | .brk addr userStackp => addr < 2 ^ 32 ∧ userStackp < 2 ^ 32
  | .sbrk diff userStackp => -2 ^ 31 ≤ diff ∧ diff < 2 ^ 31 ∧ userStackp < 2 ^ 32

def BreakStep (pageSize : ℕ) (map : Map) (call : BreakCall) (map' : Map) : Prop :=
  call.Word ∧ (call.perform pageSize map).2 = map'

section Refused
variable {pageSize : ℕ} {map : Map} {call : BreakCall}

/-- The call is answered before anything moves. -/
def Refused (pageSize : ℕ) (map : Map) (call : BreakCall) : Prop :=
  (∃ userStackp, call = .sbrk 0 userStackp) ∨
  reachesStack map (call.diff pageSize map) call.userStackp = true ∨
  ∀ j, findStack pageSize map (call.diff pageSize map) ≠ .ok j

lemma perform_cases (pageSize : ℕ) (map : Map) (call : BreakCall) :
    (call.perform pageSize map).2 = map ∨ ((call.perform pageSize map).2 =
          (memoryMapMoveSbrk pageSize map (call.diff pageSize map)).2 ∧
        ((call.perform pageSize map).1 = true →
          (memoryMapMoveSbrk pageSize map (call.diff pageSize map)).1 ≠ 0)) := by
  cases call with
  | brk addr userStackp =>
    by_cases h : reachesStack map ((BreakCall.brk addr userStackp).diff pageSize map) userStackp
    · left
      simp [BreakCall.perform, doBrk, h]
    · right
      simp only [BreakCall.perform, doBrk, h, Bool.false_eq_true, if_false, decide_eq_true_eq,
        true_and]
      omega
  | sbrk diff userStackp =>
    by_cases hzero : diff = 0
    · left
      simp [BreakCall.perform, doSbrk, hzero]
    · by_cases h : reachesStack map ((BreakCall.sbrk diff userStackp).diff pageSize map) userStackp
      · left
        simp [BreakCall.perform, doSbrk, hzero, h]
      · right
        simp only [BreakCall.perform, doSbrk, hzero, h, Bool.false_eq_true, if_false]
        split_ifs with hmoved <;> simp [hmoved]

lemma perform_of_refused (h : Refused pageSize map call) : (call.perform pageSize map).2 = map := by
  rcases h with ⟨userStackp, rfl⟩ | hreaches | hstack
  · simp [BreakCall.perform, doSbrk]
  · cases call with
    | brk addr userStackp =>
      rw [BreakCall.userStackp] at hreaches
      simp [BreakCall.perform, doBrk, hreaches]
    | sbrk diff userStackp =>
      rw [BreakCall.userStackp] at hreaches
      by_cases hzero : diff = 0 <;> simp [BreakCall.perform, doSbrk, hzero, hreaches]
  · rcases perform_cases pageSize map call with hsame | ⟨hmove, -⟩
    · exact hsame
    · rw [hmove, memoryMapMoveSbrk]
      cases hfind : findStack pageSize map (call.diff pageSize map) with
      | error error => rfl
      | ok j => exact absurd hfind (hstack j)
end Refused

def heapSegment (start stop : ℕ) : Segment :=
  ⟨anonymousFlags segTypeHeap, start, stop, .anonymous, none, 0⟩

def stackSegment (start stop : ℕ) : Segment :=
  ⟨anonymousFlags (segTypeStack ||| segGrowsdown), start, stop, .anonymous, none, 0⟩

@[simp] lemma heapSegment_stop (start stop : ℕ) : (heapSegment start stop).stop = stop := rfl

@[simp] lemma stackSegment_start (start stop : ℕ) : (stackSegment start stop).start = start := rfl

variable {segment : Segment} {a : ℕ}

lemma withinStart_eq_false : withinStart segment a = false ↔ a < segment.start := by
  simp [withinStart]

lemma withinStart_eq_true : withinStart segment a = true ↔ segment.start ≤ a := by
  simp [withinStart]

section Resize
variable {segments : List Segment} {k newAddr : ℕ} {lower upper : Segment} {diff : ℤ}

section
variable (hupper : segments[k + 1]? = some upper) (hlower : segments[k]? = some lower)
  (hflag : hasFlag upper.flags segGrowsdown = true)
  (hnew : toUnsigned (upper.start - diff) = newAddr)
include hupper hlower hflag hnew

lemma resize_upper_free (hfree : withinEnd lower newAddr = false) :
    memoryMapResize segments (k + 1) diff =
      (0, segments.set (k + 1) { upper with start := newAddr }) := by
  simp [memoryMapResize, hupper, hflag, resizeDown, hnew, hlower, hfree]

lemma resize_upper_fault (hin : withinEnd lower newAddr = true)
    (hout : withinStart lower newAddr = false) :
    memoryMapResize segments (k + 1) diff = (EFAULT, segments) := by
  simp [memoryMapResize, hupper, hflag, resizeDown, hnew, hlower, hin, hout]

lemma resize_upper_push (hin : withinEnd lower newAddr = true)
    (hstart : withinStart lower newAddr = true) : memoryMapResize segments (k + 1) diff =
      (0, (segments.set k { lower with stop := newAddr }).set (k + 1)
        { upper with start := newAddr }) := by
  simp [memoryMapResize, hupper, hflag, resizeDown, hnew, hlower, hin, hstart]
end
section
variable (hupper : segments[k + 1]? = some upper) (hlower : segments[k]? = some lower)
  (hflag : hasFlag lower.flags segGrowsdown = false)
  (hnew : toUnsigned (lower.stop + diff) = newAddr)
include hupper hlower hflag hnew

lemma resize_lower_free (hfree : withinStart upper newAddr = false) :
    memoryMapResize segments k diff = (0, segments.set k { lower with stop := newAddr }) := by
  simp [memoryMapResize, hlower, hflag, resizeUp, hnew, hupper, hfree]

lemma resize_lower_push (hin : withinStart upper newAddr = true)
    (hend : withinOrAtEnd upper newAddr = true) : memoryMapResize segments k diff =
      (0, (segments.set (k + 1) { upper with start := newAddr }).set k
        { lower with stop := newAddr }) := by
  simp [memoryMapResize, hlower, hflag, resizeUp, hnew, hupper, hin, hend]
end
end Resize
section Move
variable {pageSize : ℕ} {map : Map} {diff : ℤ} {j : ℕ}

lemma findStack_ok (h : findStack pageSize map diff = .ok j) :
    memorySegmentFindPrev map.sbrk map.segments = some j ∧
      ∃ stack, map.segments[j]? = some stack ∧ stack.start = map.sbrk := by
  unfold findStack at h
  cases hfind : memorySegmentFindPrev map.sbrk map.segments with
  | none => simp [hfind] at h
  | some k =>
    simp only [hfind] at h
    by_cases hk : k = 0
    · simp [hk] at h
    · rw [if_neg hk] at h
      cases hstack : map.segments[k]? with
      | none => simp [hstack] at h
      | some stack =>
        simp only [hstack] at h
        split_ifs at h with hstart
        obtain rfl := Except.ok.inj h
        exact ⟨rfl, stack, hstack, (not_not.mp hstart).symm⟩

lemma moveSbrk_of_resizes {first second : List Segment}
    (hfind : findStack pageSize map diff = .ok j)
    (hfirst : (if 0 ≤ diff then memoryMapResize map.segments j (-diff)
      else memoryMapResize map.segments (j - 1) diff) = (0, first))
    (hsecond : (if 0 ≤ diff then memoryMapResize first (j - 1) diff
      else memoryMapResize first j (-diff)) = (0, second)) :
    memoryMapMoveSbrk pageSize map diff = (0, ⟨second, map.codeStart, map.dataStart,
      map.heapStart, toUnsigned (map.sbrk + diff), map.stackEnd⟩) := by
  rw [memoryMapMoveSbrk, hfind]
  dsimp only
  rw [hfirst]
  dsimp only
  rw [if_neg (lt_irrefl 0), hsecond]
  rfl

lemma moveSbrk_of_fault (hfind : findStack pageSize map diff = .ok j)
    (hfirst : (if 0 ≤ diff then memoryMapResize map.segments j (-diff)
      else memoryMapResize map.segments (j - 1) diff) = (EFAULT, map.segments)) :
    (memoryMapMoveSbrk pageSize map diff).2 = map := by
  rw [memoryMapMoveSbrk, hfind]
  dsimp only
  rw [hfirst]
  rfl
end Move

/-- The heap and the stack, at two positions of the list, with the break between them. -/
structure Parted (segments : List Segment) (i j heapStart stackEnd : ℕ) (map : Map) : Prop where
  heapStart_eq : map.heapStart = heapStart
  stackEnd_eq : map.stackEnd = stackEnd
  heap_le : heapStart ≤ map.sbrk
  le_stack : map.sbrk ≤ top stackEnd
  lt : map.sbrk < 2 ^ 32
  segments_eq : map.segments = (segments.set i (heapSegment heapStart map.sbrk)).set j
    (stackSegment map.sbrk stackEnd)

section Calls

def Idle (j : ℕ) (map : Map) (diff : ℤ) : Prop :=
  diff = 0 ∧ ∃ k lower, j = k + 1 ∧ map.segments[k]? = some lower ∧
    hasFlag lower.flags segGrowsdown = false ∧
    (lower.stop = map.sbrk ∨ 0 < lower.stop ∧ lower.stop < map.sbrk)

def MovesWithin (i j : ℕ) (map : Map) (diff : ℤ) : Prop :=
  j = i + 1 ∧ 0 < map.heapStart ∧ map.heapStart ≤ map.sbrk + diff ∧
    map.sbrk + diff ≤ top map.stackEnd

/-- The call is refused, or the segment found at the break is the stack and the move is sound. -/
def Settled (pageSize i j : ℕ) (map : Map) (call : BreakCall) : Prop :=
  Refused pageSize map call ∨
  memorySegmentFindPrev map.sbrk map.segments = some j ∧
    (Idle j map (call.diff pageSize map) ∨ MovesWithin i j map (call.diff pageSize map))

variable {pageSize i j heapStart stackEnd : ℕ} {segments : List Segment} {map : Map} {diff : ℤ}

lemma Parted.stack (h : Parted segments i j heapStart stackEnd map) (hj : j < segments.length) :
    map.segments[j]? = some (stackSegment map.sbrk stackEnd) := by
  rw [h.segments_eq, List.getElem?_set_self (by simpa using hj)]

lemma Parted.heap (h : Parted segments i j heapStart stackEnd map) (hi : i < segments.length)
    (hij : i ≠ j) : map.segments[i]? = some (heapSegment heapStart map.sbrk) := by
  rw [h.segments_eq, List.getElem?_set_ne hij.symm, List.getElem?_set_self hi]

lemma set_getElem {l : List Segment} {k : ℕ} {s : Segment} (h : l[k]? = some s) :
    l.set k s = l := by
  obtain ⟨hk, rfl⟩ := List.getElem?_eq_some_iff.mp h
  exact set_getElem_self hk

lemma toUnsigned_natCast {n : ℕ} (h : n < 2 ^ 32) : toUnsigned (n : ℤ) = n := by
  rw [toUnsigned_of_mem (by omega) (by omega)]
  simp

lemma stack_growsdown (start stop : ℕ) :
    hasFlag (stackSegment start stop).flags segGrowsdown = true := by
  change hasFlag (anonymousFlags (segTypeStack ||| segGrowsdown)) segGrowsdown = true
  decide

lemma heap_not_growsdown (start stop : ℕ) :
    hasFlag (heapSegment start stop).flags segGrowsdown = false := by
  change hasFlag (anonymousFlags segTypeHeap) segGrowsdown = false
  decide

lemma withinOrAtEnd_of_le_top (h : a ≤ top segment.stop) : withinOrAtEnd segment a = true := by
  rw [top] at h
  simp only [withinOrAtEnd, Bool.or_eq_true, beq_iff_eq, decide_eq_true_eq]
  split_ifs at h with hstop
  · exact .inl hstop
  · exact .inr h

lemma resize_lower_idle {k : ℕ} {lower : Segment}
    (hupper : map.segments[k + 1]? = some (stackSegment map.sbrk stackEnd))
    (hlower : map.segments[k]? = some lower) (hflag : hasFlag lower.flags segGrowsdown = false)
    (hstop : lower.stop ≤ map.sbrk) (hle : map.sbrk ≤ top stackEnd) (hlt : map.sbrk < 2 ^ 32) :
    memoryMapResize map.segments k 0 = (0, map.segments) := by
  have hnew : toUnsigned (lower.stop + 0) = lower.stop := by
    rw [add_zero]
    exact toUnsigned_natCast (by omega)
  rcases hstop.lt_or_eq with hbelow | heq
  · rw [resize_lower_free hupper hlower hflag hnew (withinStart_eq_false.mpr hbelow),
      set_getElem hlower]
  · rw [resize_lower_push hupper hlower hflag hnew (withinStart_eq_true.mpr heq.ge)
      (withinOrAtEnd_of_le_top (heq.le.trans hle)), with_start heq, set_getElem hupper,
      set_getElem hlower]

lemma move_idle (h : Parted segments i j heapStart stackEnd map) (hj : j < segments.length)
    (hfind : findStack pageSize map diff = .ok j) (hidle : Idle j map diff) :
    (memoryMapMoveSbrk pageSize map diff).2 = map := by
  obtain ⟨rfl, k, lower, rfl, hlower, hflag, hstop⟩ := hidle
  have hupper := h.stack hj
  have hlt := h.lt
  have hnew : toUnsigned ((stackSegment map.sbrk stackEnd).start - -0) = map.sbrk := by
    rw [stackSegment_start, neg_zero, sub_zero]
    exact toUnsigned_natCast hlt
  have hsecond := resize_lower_idle hupper hlower hflag (by omega) h.le_stack hlt
  have hdone (hfirst : memoryMapResize map.segments (k + 1) (-0) = (0, map.segments)) :
      (memoryMapMoveSbrk pageSize map 0).2 = map := by
    rw [moveSbrk_of_resizes hfind hfirst hsecond, add_zero, toUnsigned_natCast hlt]
  by_cases hzero : lower.stop = 0
  · have hsbrk : map.sbrk = lower.stop := by omega
    have hin : withinEnd lower map.sbrk = true := by simp [withinEnd, hzero]
    cases hstart : withinStart lower map.sbrk with
    | false =>
      exact moveSbrk_of_fault hfind
        (resize_upper_fault hupper hlower (stack_growsdown _ _) hnew hin hstart)
    | true =>
      refine hdone ?_
      rw [resize_upper_push hupper hlower (stack_growsdown _ _) hnew hin hstart, with_stop hsbrk,
        set_getElem hlower, with_start (stackSegment_start map.sbrk stackEnd).symm,
        set_getElem hupper]
  · have hfree : withinEnd lower map.sbrk = false := by
      rw [withinEnd_eq_false hlt, top, if_neg hzero]
      omega
    refine hdone ?_
    rw [resize_upper_free hupper hlower (stack_growsdown _ _) hnew hfree,
      with_start (stackSegment_start map.sbrk stackEnd).symm, set_getElem hupper]

section
variable (h : Parted segments i (i + 1) heapStart stackEnd map)
include h

lemma Parted.moved {n : ℕ} (hlo : heapStart ≤ n) (hhi : n ≤ top stackEnd) (hn : n < 2 ^ 32) :
    Parted segments i (i + 1) heapStart stackEnd
      ⟨(segments.set i (heapSegment heapStart n)).set (i + 1) (stackSegment n stackEnd),
        map.codeStart, map.dataStart, map.heapStart, n, map.stackEnd⟩ :=
  ⟨h.heapStart_eq, h.stackEnd_eq, hlo, hhi, hn, rfl⟩

lemma set_stack (s t : Segment) :
    (map.segments.set (i + 1) s).set i t = (segments.set i t).set (i + 1) s := by
  rw [h.segments_eq, set_set, set_comm _ _ (by omega), set_set]

lemma set_heap (s t : Segment) :
    (map.segments.set i t).set (i + 1) s = (segments.set i t).set (i + 1) s := by
  rw [set_comm _ _ (by omega), set_stack h]
end
section Up
variable {n : ℕ}

section
variable (h : Parted segments i (i + 1) heapStart stackEnd map) (hi : i + 1 < segments.length)
  (hfind : findStack pageSize map diff = .ok (i + 1))
include h hi hfind

lemma move_up (hdiff : 0 ≤ diff) (hn : (n : ℤ) = map.sbrk + diff) (hlt : n < 2 ^ 32)
    (hpos : 0 < map.sbrk) (hhi : n ≤ top stackEnd) : memoryMapMoveSbrk pageSize map diff =
      (0, ⟨(segments.set i (heapSegment heapStart n)).set (i + 1) (stackSegment n stackEnd),
        map.codeStart, map.dataStart, map.heapStart, n, map.stackEnd⟩) := by
  have hupper := h.stack hi
  have hlower := h.heap (by omega) (by omega)
  have hnew : toUnsigned (map.sbrk + diff) = n := by
    rw [← hn]
    exact toUnsigned_natCast hlt
  have hfirst : memoryMapResize map.segments (i + 1) (-diff) =
      (0, map.segments.set (i + 1) (stackSegment n stackEnd)) := by
    refine resize_upper_free hupper hlower (stack_growsdown _ _) ?_ ?_
    · rw [stackSegment_start, sub_neg_eq_add, hnew]
    · rw [withinEnd_eq_false hlt, heapSegment_stop, top, if_neg (by omega)]
      omega
  have hupper' : (map.segments.set (i + 1) (stackSegment n stackEnd))[i + 1]? =
      some (stackSegment n stackEnd) := by
    rw [List.getElem?_set_self (List.getElem?_eq_some_iff.mp hupper).1]
  have hlower' : (map.segments.set (i + 1) (stackSegment n stackEnd))[i]? =
      some (heapSegment heapStart map.sbrk) := by
    rw [List.getElem?_set_ne (by omega), hlower]
  have hsecond := resize_lower_push hupper' hlower' (heap_not_growsdown _ _) hnew
    (withinStart_eq_true.mpr le_rfl) (withinOrAtEnd_of_le_top hhi)
  rw [moveSbrk_of_resizes hfind ((if_pos hdiff).trans hfirst) ((if_pos hdiff).trans hsecond), hnew,
    with_start (stackSegment_start n stackEnd).symm, set_set, set_stack h]
  rfl

lemma move_down (hdiff : diff < 0) (hn : (n : ℤ) = map.sbrk + diff) (hpos : 0 < n) :
    memoryMapMoveSbrk pageSize map diff =
      (0, ⟨(segments.set i (heapSegment heapStart n)).set (i + 1) (stackSegment n stackEnd),
        map.codeStart, map.dataStart, map.heapStart, n, map.stackEnd⟩) := by
  have hupper := h.stack hi
  have hlower := h.heap (by omega) (by omega)
  have hlt : n < 2 ^ 32 := by
    have := h.lt
    omega
  have hnew : toUnsigned (map.sbrk + diff) = n := by
    rw [← hn]
    exact toUnsigned_natCast hlt
  have hfirst : memoryMapResize map.segments i diff =
      (0, map.segments.set i (heapSegment heapStart n)) :=
    resize_lower_free hupper hlower (heap_not_growsdown _ _) hnew
      (withinStart_eq_false.mpr (by rw [stackSegment_start]; omega))
  have hlower' : (map.segments.set i (heapSegment heapStart n))[i]? =
      some (heapSegment heapStart n) := by
    rw [List.getElem?_set_self (List.getElem?_eq_some_iff.mp hlower).1]
  have hupper' : (map.segments.set i (heapSegment heapStart n))[i + 1]? =
      some (stackSegment map.sbrk stackEnd) := by
    rw [List.getElem?_set_ne (by omega), hupper]
  have hsecond : memoryMapResize (map.segments.set i (heapSegment heapStart n)) (i + 1) (-diff) =
      (0, (map.segments.set i (heapSegment heapStart n)).set (i + 1) (stackSegment n stackEnd)) := by
    refine resize_upper_free hupper' hlower' (stack_growsdown _ _) ?_ ?_
    · rw [stackSegment_start, sub_neg_eq_add, hnew]
    · rw [withinEnd_eq_false hlt, heapSegment_stop, top, if_neg (by omega)]
  have hneg : ¬ 0 ≤ diff := by omega
  rw [moveSbrk_of_resizes hfind ((if_neg hneg).trans hfirst) ((if_neg hneg).trans hsecond), hnew,
    set_heap h]
end
end Up

lemma move_to_top (h : Parted segments i (i + 1) heapStart stackEnd map)
    (hi : i + 1 < segments.length) (hfind : findStack pageSize map diff = .ok (i + 1))
    (hn : map.sbrk + diff = 2 ^ 32) (hpos : 0 < heapStart) :
    (memoryMapMoveSbrk pageSize map diff).2 = map := by
  have hlt := h.lt
  have hle := h.heap_le
  have hnew : toUnsigned (map.sbrk + diff) = 0 := by
    rw [hn]
    decide +kernel
  refine moveSbrk_of_fault hfind ((if_pos (by omega)).trans ?_)
  refine resize_upper_fault (h.stack hi) (h.heap (by omega) (by omega)) (stack_growsdown _ _)
    (by rw [stackSegment_start, sub_neg_eq_add, hnew]) ?_ (withinStart_eq_false.mpr hpos)
  have hsbrk : 0 < map.sbrk := by omega
  simp [withinEnd, hsbrk]

lemma top_le (stop : ℕ) (h : stop < 2 ^ 32) : top stop ≤ 2 ^ 32 := by
  rw [top]
  split_ifs <;> omega

section
variable (h : Parted segments i j heapStart stackEnd map) (hj : j < segments.length)
  (hend : stackEnd < 2 ^ 32)
include h hj hend

lemma move_within (hfind : findStack pageSize map diff = .ok j) (hmoves : MovesWithin i j map diff) :
    (memoryMapMoveSbrk pageSize map diff).1 = 0 ∧
        Parted segments i j heapStart stackEnd (memoryMapMoveSbrk pageSize map diff).2 ∨
      (memoryMapMoveSbrk pageSize map diff).2 = map := by
  obtain ⟨rfl, hpos, hlo, hhi⟩ := hmoves
  rw [h.heapStart_eq] at hpos hlo
  rw [h.stackEnd_eq] at hhi
  have hheap := h.heap_le
  have htop := top_le stackEnd hend
  obtain ⟨n, hn⟩ : ∃ n : ℕ, (n : ℤ) = map.sbrk + diff := ⟨(map.sbrk + diff).toNat, by omega⟩
  by_cases hlt : n < 2 ^ 32
  · have hmoved := h.moved (n := n) (by omega) (by omega) hlt
    by_cases hdiff : 0 ≤ diff
    · rw [move_up h hj hfind hdiff hn hlt (by omega) (by omega)]
      exact .inl ⟨rfl, hmoved⟩
    · rw [move_down h hj hfind (by omega) hn (by omega)]
      exact .inl ⟨rfl, hmoved⟩
  · exact .inr (move_to_top h hj hfind (by omega) hpos)

lemma perform_parted {call : BreakCall} (hsettled : Settled pageSize i j map call) :
    Parted segments i j heapStart stackEnd (call.perform pageSize map).2 ∧
      ((call.perform pageSize map).1 = true → (call.perform pageSize map).2 = map) := by
  have hsame (heq : (call.perform pageSize map).2 = map) :
      Parted segments i j heapStart stackEnd (call.perform pageSize map).2 ∧
        ((call.perform pageSize map).1 = true → (call.perform pageSize map).2 = map) := by
    rw [heq]
    exact ⟨h, fun _ => rfl⟩
  rcases hsettled with hrefused | ⟨hprev, hmove⟩
  · exact hsame (perform_of_refused hrefused)
  · rcases perform_cases pageSize map call with heq | ⟨heq, hfail⟩
    · exact hsame heq
    · cases hfind : findStack pageSize map (call.diff pageSize map) with
      | error error => exact hsame (by rw [heq, memoryMapMoveSbrk, hfind])
      | ok k =>
        obtain rfl : j = k := Option.some.inj (hprev.symm.trans (findStack_ok hfind).1)
        rcases hmove with hidle | hwithin
        · exact hsame (heq.trans (move_idle h hj hfind hidle))
        · rcases move_within h hj hend hfind hwithin with ⟨hzero, hparted⟩ | hstill
          · rw [heq]
            exact ⟨hparted, fun hfailed => absurd hzero (hfail hfailed)⟩
          · exact hsame (heq.trans hstill)
end
end Calls
section Built
variable {pageSize start stackSize : ℕ} {program built : Map} {answers : ℕ → Answers}

lemma memoryMapMmap_ok {map : Map} {m : Mapping} {answer : Answers}
    (h : ¬ (memoryMapMmap pageSize map m answer).1 < 0) :
    (memoryMapMmap pageSize map m answer).2.segments =
        memoryMapInsertSegment map.segments m.segment ∧
      ¬ (0 < m.stop ∧ m.stop < m.start) := by
  have hinval : EINVAL < 0 := by decide
  have hnomem : ENOMEM < 0 := by decide
  unfold memoryMapMmap at h ⊢
  split_ifs at h ⊢ with hlength hstart hwrap halloc hmmu
  · exact absurd hinval h
  · exact absurd hinval h
  · exact absurd hinval h
  · exact absurd hnomem h
  · exact absurd hmmu h
  · exact ⟨memoryMapAdjustMarkers_segments _ _, hwrap⟩

lemma heapMapping_segment (h : start < 2 ^ 32) :
    (heapMapping start).segment = heapSegment start start := by
  have hstop : (heapMapping start).stop = start := add32_of_lt h
  have hflag : hasFlag (heapMapping start).flags segFixed = false := by
    change hasFlag (anonymousFlags segTypeHeap) segFixed = false
    decide
  rw [Mapping.segment, hstop, hflag]
  rfl

lemma stackMapping_segment :
    (stackMapping start stackSize).segment = stackSegment start (add32 start stackSize) := by
  have hflag : hasFlag (stackMapping start stackSize).flags segFixed = false := by
    change hasFlag (anonymousFlags (segTypeStack ||| segGrowsdown)) segFixed = false
    decide
  rw [Mapping.segment, hflag]
  rfl

section
variable (hstart : start < 2 ^ 32)
  (h : memoryMapInsertHeapStack pageSize program start stackSize answers = (0, built))
include hstart h

lemma insertHeapStack_ok : built.segments = memoryMapInsertSegment
        (memoryMapInsertSegment program.segments (heapSegment start start))
        (stackSegment start (add32 start stackSize)) ∧
      start ≤ top (add32 start stackSize) ∧ built.heapStart = start ∧ built.sbrk = start ∧
      built.stackEnd = add32 start stackSize := by
  rw [memoryMapInsertHeapStack] at h
  dsimp only at h
  split_ifs at h with hheap hstack
  · rw [h] at hheap
    exact absurd hheap (lt_irrefl 0)
  · rw [h] at hstack
    exact absurd hstack (lt_irrefl 0)
  · obtain rfl := congrArg Prod.snd h
    obtain ⟨hfirst, -⟩ := memoryMapMmap_ok hheap
    obtain ⟨hsecond, hwrap⟩ := memoryMapMmap_ok hstack
    rw [hfirst, heapMapping_segment hstart, stackMapping_segment] at hsecond
    refine ⟨hsecond, ?_, rfl, rfl, rfl⟩
    change ¬ (0 < add32 start stackSize ∧ add32 start stackSize < start) at hwrap
    rw [top]
    split_ifs <;> omega

lemma parted_built {i j : ℕ} (hi : built.segments[i]? = some (heapSegment start start))
    (hj : built.segments[j]? = some (stackSegment start (add32 start stackSize))) :
    Parted built.segments i j start (add32 start stackSize) built := by
  obtain ⟨-, htop, hheap, hsbrk, hend⟩ := insertHeapStack_ok hstart h
  refine ⟨hheap, hend, hsbrk.ge, by rwa [hsbrk], by rwa [hsbrk], ?_⟩
  rw [hsbrk, set_getElem hi, set_getElem hj]
end

lemma add32_lt (a b : ℕ) : add32 a b < 2 ^ 32 := by
  unfold add32
  omega

/-- After every run of settled calls the heap ends and the stack begins at the break, and nothing
else has changed. -/
theorem break_parts_heap_and_stack (hstart : start < 2 ^ 32)
    (hbuilt : memoryMapInsertHeapStack pageSize program start stackSize answers = (0, built)) :
    (∃ i : ℕ, built.segments[i]? = some (heapSegment start start)) ∧
    (∃ j : ℕ, built.segments[j]? = some (stackSegment start (add32 start stackSize))) ∧
    ∀ i j : ℕ, built.segments[i]? = some (heapSegment start start) →
      built.segments[j]? = some (stackSegment start (add32 start stackSize)) →
      ∀ calls map, Run (Guarded (Settled pageSize i j) (BreakStep pageSize)) built calls map →
        map.heapStart = start ∧ map.stackEnd = add32 start stackSize ∧
        start ≤ map.sbrk ∧ map.sbrk ≤ top map.stackEnd ∧
        map.segments = (built.segments.set i (heapSegment start map.sbrk)).set j
          (stackSegment map.sbrk map.stackEnd) ∧
        ∀ call, Settled pageSize i j map call → (call.perform pageSize map).1 = true →
          (call.perform pageSize map).2 = map := by
  have hsegments := (insertHeapStack_ok hstart hbuilt).1
  refine ⟨?_, ?_, fun i j hi hj calls map hrun => ?_⟩
  · refine List.mem_iff_getElem?.mp ?_
    rw [hsegments, memoryMapInsertSegment_perm.mem_iff, mem_cons,
      memoryMapInsertSegment_perm.mem_iff]
    exact .inr mem_cons_self
  · refine List.mem_iff_getElem?.mp ?_
    rw [hsegments, memoryMapInsertSegment_perm.mem_iff]
    exact mem_cons_self
  · have hlt := (List.getElem?_eq_some_iff.mp hj).1
    have hp := hrun.preserves (I := Parted built.segments i j start (add32 start stackSize))
      (parted_built hstart hbuilt hi hj) (by
        rintro map call _ hmap ⟨hsettled, -, rfl⟩
        exact (perform_parted hmap hlt (add32_lt _ _) hsettled).1)
    refine ⟨hp.heapStart_eq, hp.stackEnd_eq, hp.heap_le, ?_, ?_, fun call hsettled => ?_⟩
    · rw [hp.stackEnd_eq]
      exact hp.le_stack
    · rw [hp.stackEnd_eq]
      exact hp.segments_eq
    · exact (perform_parted hp hlt (add32_lt _ _) hsettled).2

def bare : Map := (memoryMapInsertHeapStack 4096 empty 0x10000 0x10000 granted).2

lemma bare_built : memoryMapInsertHeapStack 4096 empty 0x10000 0x10000 granted = (0, bare) :=
  Prod.ext (by decide +kernel) rfl

theorem break_parts_grown : ∃ map, Run (Guarded (Settled 4096 0 1) (BreakStep 4096)) bare
    [.sbrk 0x1000 0x1F000] map ∧ map.sbrk = 0x11000 ∧
    map.segments = (bare.segments.set 0 (heapSegment 0x10000 0x11000)).set 1
      (stackSegment 0x11000 map.stackEnd) := by
  have hrun : Run (Guarded (Settled 4096 0 1) (BreakStep 4096)) bare [.sbrk 0x1000 0x1F000]
      ((BreakCall.sbrk 0x1000 0x1F000).perform 4096 bare).2 := by
    refine Run.one ⟨.inr ⟨by decide +kernel, .inr ?_⟩, ?_, rfl⟩
    · refine ⟨rfl, ?_, ?_, ?_⟩ <;> decide +kernel
    · refine ⟨?_, ?_, ?_⟩ <;> norm_num
  have hsbrk : ((BreakCall.sbrk 0x1000 0x1F000).perform 4096 bare).2.sbrk = 0x11000 := by
    decide +kernel
  refine ⟨_, hrun, hsbrk, ?_⟩
  have hparts := (break_parts_heap_and_stack (by decide) bare_built).2.2 0 1 (by decide +kernel)
    (by decide +kernel) _ _ hrun
  rw [← hsbrk]
  exact hparts.2.2.2.2.1

/-- The break is moved below the start of the heap. -/
theorem shrink_below_heap_start : ∃ map, Run (BreakStep 4096) bare [.sbrk (-0x1000) 0x1F000] map ∧
    ((BreakCall.sbrk (-0x1000) 0x1F000).perform 4096 bare).1 = false ∧ map.sbrk < map.heapStart ∧
    map.segments = [heapSegment 0x10000 0xF000, stackSegment 0xF000 0x20000] := by
  refine ⟨_, Run.one ⟨?_, rfl⟩, ?_, ?_, ?_⟩
  · refine ⟨?_, ?_, ?_⟩ <;> norm_num
  · decide +kernel
  · decide +kernel
  · decide +kernel
end Built
end Gloworm.MemoryMap
