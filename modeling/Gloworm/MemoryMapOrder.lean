import Gloworm.ErrorNumbers
import Gloworm.MachineWords
import Gloworm.TransitionRuns

/-! The segments of a memory map: how one is found, inserted, resized and unmapped. Addresses are
32-bit words; a segment that ends at the top of the address space has the end 0. The segments stay
in order and apart as ranges are mapped. -/
namespace Gloworm.MemoryMap
open Word Transition List Option

inductive MemoryOps
  | none
  | file
  | anonymous
  deriving DecidableEq

/-- A segment from `start` up to `stop`; 0 is the end of the address space. -/
structure Segment where
  flags : ℕ
  start : ℕ
  stop : ℕ
  ops : MemoryOps
  object : Option ℕ
  offset : ℕ
  deriving DecidableEq

def segTypeHeap : ℕ := 0x0003
def segTypeStack : ℕ := 0x0004
def segRead : ℕ := 0x0010
def segWrite : ℕ := 0x0020
def segExecutable : ℕ := 0x0040
def segGrowsdown : ℕ := 0x0100
def segAnonymous : ℕ := 0x1000
def segFixed : ℕ := 0x2000
def segNocache : ℕ := 0x10000
def segSupervisor : ℕ := 0x80000

def hasFlag (flags flag : ℕ) : Bool := flags &&& flag != 0

def withinStart (segment : Segment) (address : ℕ) : Bool := segment.start ≤ address

def overlappingStart (segment : Segment) (address : ℕ) : Bool := segment.start < address

def withinEnd (segment : Segment) (address : ℕ) : Bool :=
  segment.stop == 0 || address < segment.stop

def withinOrAtEnd (segment : Segment) (address : ℕ) : Bool :=
  segment.stop == 0 || address ≤ segment.stop

/-- The list of segments, and the marks for code, data, heap and stack. -/
structure Map where
  segments : List Segment
  codeStart : ℕ
  dataStart : ℕ
  heapStart : ℕ
  sbrk : ℕ
  stackEnd : ℕ

def memoryMapFind (map : Map) (address : ℕ) : Option Segment :=
  map.segments.find? fun cur => withinStart cur address && withinEnd cur address

/-- Put a segment into the first gap that it fits in. -/
def insertAfter (segment : Segment) : List Segment → Option (List Segment)
  | [] => none
  | cur :: rest =>
    if !withinEnd cur segment.start &&
        (rest.head?.all fun next => !overlappingStart next segment.stop) then
      some (cur :: segment :: rest)
    else (insertAfter segment rest).map (cur :: ·)

def memoryMapInsertSegment (segments : List Segment) (segment : Segment) : List Segment :=
  (insertAfter segment segments).getD (segment :: segments)

def memoryMapAdjustMarkers (map : Map) (segment : Segment) : Map :=
  let map :=
    if hasFlag segment.flags segExecutable then
      if map.codeStart = 0 then { map with codeStart := segment.start } else map
    else if map.dataStart = 0 then { map with dataStart := segment.start } else map
  if hasFlag segment.flags segTypeStack ∧ (segment.stop = 0 ∨ map.stackEnd < segment.stop) then
    { map with stackEnd := segment.stop }
  else map

/-- The answers of `kmalloc` and of the page tables. -/
structure Answers where
  canAlloc : Bool
  mmuError : ℤ

/-- The arguments of `memory_map_mmap`. -/
structure Mapping where
  start : ℕ
  length : ℕ
  flags : ℕ
  object : Option ℕ
  offset : ℕ

def Mapping.stop (m : Mapping) : ℕ := add32 m.start m.length

def Mapping.segment (m : Mapping) : Segment where
  flags := m.flags
  start := m.start
  stop := m.stop
  ops := if hasFlag m.flags segFixed then .none else if m.object.isSome then .file else .anonymous
  object := m.object
  offset := m.offset

def memoryMapMmap (pageSize : ℕ) (map : Map) (m : Mapping) (answers : Answers) : ℤ × Map :=
  if m.length % pageSize ≠ 0 then (EINVAL, map)
  else if m.start % pageSize ≠ 0 then (EINVAL, map)
  else if 0 < m.stop ∧ m.stop < m.start then (EINVAL, map)
  else if !answers.canAlloc then (ENOMEM, map)
  else
    let map := { map with segments := memoryMapInsertSegment map.segments m.segment }
    if answers.mmuError < 0 then (answers.mmuError, map)
    else (0, memoryMapAdjustMarkers map m.segment)

def empty : Map := ⟨[], 0, 0, 0, 0, 0⟩

/-- The end of a segment as a number. -/
def top (stop : ℕ) : ℕ := if stop = 0 then 2 ^ 32 else stop

def Segment.Contains (segment : Segment) (address : ℕ) : Prop :=
  segment.start ≤ address ∧ address < top segment.stop

def Disjoint (s t : Segment) : Prop := ∀ a, s.Contains a → ¬ t.Contains a

inductive ObjectUse
  | keep
  | release
  | makeRef
  deriving DecidableEq

/-- What is left of a segment, and what becomes of its memory object. -/
def unmapSegment (start stop : ℕ) (cur : Segment) : List Segment × ObjectUse :=
  if start ≤ cur.start ∧ cur.start ≤ stop then
    if start ≤ cur.stop ∧ cur.stop ≤ stop then ([], .release)
    else ([{ cur with start := stop }], .keep)
  else if start ≤ cur.stop ∧ cur.stop ≤ stop then ([{ cur with stop := start }], .keep)
  else if cur.start ≤ start ∧ start ≤ cur.stop then
    ([{ cur with stop := start }, { cur with
      start := stop
      offset := add32 cur.offset (sub32 stop cur.start) }], .makeRef)
  else ([cur], .keep)

def unmapPages (start stop : ℕ) (cur : Segment) : Option (ℕ × ℕ) :=
  let (subStart, subEnd) :=
    if start ≤ cur.start ∧ cur.start ≤ stop then
      (cur.start, if start ≤ cur.stop ∧ cur.stop ≤ stop then cur.stop else stop)
    else if start ≤ cur.stop ∧ cur.stop ≤ stop then (start, cur.stop)
    else if cur.start ≤ start ∧ start ≤ cur.stop then (start, stop)
    else (0, 0)
  if subStart = 0 then none else some (subStart, sub32 subEnd subStart)

/-- It stops when a segment cannot be split, and when the page tables refuse, which is after the
segment has been changed. -/
def unmapLoop (start stop : ℕ) : (ℕ → Answers) → List Segment → ℤ × List Segment × List ObjectUse
  | _, [] => (0, [], [])
  | answers, cur :: rest =>
    let pieces := (unmapSegment start stop cur).1
    let use := (unmapSegment start stop cur).2
    if use = .makeRef ∧ (answers 0).canAlloc = false then (ENOMEM, cur :: rest, [])
    else if (unmapPages start stop cur).isSome ∧ (answers 0).mmuError < 0 then
      ((answers 0).mmuError, pieces ++ rest, [use])
    else
      let (error, segments, uses) := unmapLoop start stop (fun n => answers (n + 1)) rest
      (error, pieces ++ segments, use :: uses)

def unmapMarker (start stop marker : ℕ) : ℕ :=
  if start ≤ marker ∧ marker ≤ stop then start else marker

def memoryMapUnmap (map : Map) (start length : ℕ) (answers : ℕ → Answers) :
    ℤ × Map × List ObjectUse :=
  let stop := add32 start length
  let (error, segments, uses) := unmapLoop start stop answers map.segments
  if error < 0 then (error, { map with segments := segments }, uses)
  else
    (0, { map with
      segments := segments
      codeStart := unmapMarker start stop map.codeStart
      dataStart := unmapMarker start stop map.dataStart
      heapStart := unmapMarker start stop map.heapStart }, uses)

def Segment.Valid (segment : Segment) : Prop :=
  segment.start ≤ top segment.stop ∧ segment.start < 2 ^ 32

/-- The segments are sorted and do not overlap. -/
structure Ordered (segments : List Segment) : Prop where
  valid : ∀ s ∈ segments, s.Valid
  sorted : segments.Pairwise fun s t => s.start ≤ t.start
  disjoint : segments.Pairwise Disjoint

lemma disjoint_comm {s t : Segment} (h : Disjoint s t) : Disjoint t s :=
  fun a ht hs => h a hs ht

instance : Std.Symm Disjoint := ⟨fun _ _ => disjoint_comm⟩

variable {segment : Segment} {after : List Segment}

lemma withinEnd_eq_false {address : ℕ} (h : address < 2 ^ 32) :
    withinEnd segment address = false ↔ top segment.stop ≤ address := by
  rw [withinEnd, top]
  by_cases hstop : segment.stop = 0
  · simp [hstop]
    omega
  · simp [hstop]

section Insert
variable {new : Segment} {segments out : List Segment}

def Between (segments : List Segment) (new : Segment) : Prop :=
  ∃ before cur after, segments = before ++ cur :: after ∧ top cur.stop ≤ new.start ∧
    ∀ next ∈ after, new.stop ≤ next.start

/-- The place where a segment is inserted keeps the order. -/
def Fits (segments : List Segment) (new : Segment) : Prop :=
  if new.stop = 0 then ∀ s ∈ segments.tail, new.start ≤ s.start
  else (∀ s ∈ segments, new.start ≤ s.start) ∨ Between segments new

lemma insertAfter_spec (h : insertAfter new segments = some out) :
    ∃ before cur after, segments = before ++ cur :: after ∧ out = before ++ cur :: new :: after ∧
      withinEnd cur new.start = false ∧ (∀ next ∈ after.head?, new.stop ≤ next.start) ∧
      (new.stop = 0 → ∀ s ∈ before, withinEnd s new.start = true) := by
  induction segments generalizing out with
  | nil => simp [insertAfter] at h
  | cons cur rest ih =>
    rw [insertAfter] at h
    split_ifs at h with hplace
    · obtain rfl := some.inj h
      simp only [Bool.and_eq_true, Bool.not_eq_true'] at hplace
      refine ⟨[], cur, rest, rfl, rfl, hplace.1, fun next hnext => ?_, by simp⟩
      have := hplace.2
      rw [mem_def.mp hnext] at this
      simpa [overlappingStart] using this
    · obtain ⟨out', hout, rfl⟩ := map_eq_some_iff.mp h
      obtain ⟨before, c, after, rfl, rfl, hend, hnext, hfirst⟩ := ih hout
      refine ⟨cur :: before, c, after, rfl, rfl, hend, hnext, fun hstop s hs => ?_⟩
      rcases mem_cons.mp hs with rfl | hin
      · by_contra hwithin
        rw [Bool.not_eq_true] at hwithin
        apply hplace
        cases hhead : (before ++ c :: after).head? <;> simp [hwithin, hstop, overlappingStart]
      · exact hfirst hstop s hin

variable {before : List Segment}

lemma insertAfter_ne_none {cur : Segment}
    (hend : withinEnd cur new.start = false) (hnext : ∀ next ∈ after, new.stop ≤ next.start) :
    insertAfter new (before ++ cur :: after) ≠ none := by
  induction before with
  | nil =>
    rw [nil_append, insertAfter, if_pos]
    · simp
    · cases after with
      | nil => simp [hend]
      | cons next after => simpa [hend, overlappingStart] using hnext next mem_cons_self
  | cons b before ih =>
    rw [cons_append, insertAfter]
    split_ifs
    · simp
    · simpa using ih

lemma insertAfter_none_withinEnd (hstop : new.stop = 0) (h : insertAfter new segments = none) :
    ∀ s ∈ segments, withinEnd s new.start = true := by
  intro s hs
  obtain ⟨before, after, rfl⟩ := append_of_mem hs
  by_contra hend
  exact insertAfter_ne_none (by simpa using hend) (by simp [hstop]) h

lemma memoryMapInsertSegment_perm :
    (memoryMapInsertSegment segments new).Perm (new :: segments) := by
  rw [memoryMapInsertSegment]
  cases h : insertAfter new segments with
  | none => exact List.Perm.refl _
  | some out =>
    obtain ⟨before, cur, after, rfl, rfl, -⟩ := insertAfter_spec h
    rw [getD_some]
    have hmiddle : (before ++ [cur] ++ new :: after).Perm (new :: (before ++ [cur] ++ after)) :=
      perm_middle
    simpa using hmiddle

lemma lt_start_of_withinEnd {s : Segment} (hnew : new.start < 2 ^ 32) (hstop : new.stop = 0)
    (hdisjoint : Disjoint s new) (hwithin : withinEnd s new.start = true) :
    new.start < s.start := by
  by_contra hle
  have htop : new.start < top s.stop := by
    by_contra hge
    rw [(withinEnd_eq_false hnew).mpr (not_lt.mp hge)] at hwithin
    exact absurd hwithin (by simp)
  refine hdisjoint new.start ⟨not_lt.mp hle, htop⟩ ⟨le_rfl, ?_⟩
  rw [hstop, top, if_pos rfl]
  exact hnew

lemma insert_sorted_iff {cur : Segment}
    (ho : Ordered (before ++ cur :: after)) (hend : top cur.stop ≤ new.start) :
    (before ++ cur :: new :: after).Pairwise (fun s t => s.start ≤ t.start) ↔
      ∀ s ∈ after, new.start ≤ s.start := by
  have hcur := (ho.valid cur (by simp)).1
  have hsorted := ho.sorted
  simp only [pairwise_append, pairwise_cons, mem_cons] at hsorted ⊢
  obtain ⟨hbefore, ⟨hafter, htail⟩, hcross⟩ := hsorted
  constructor
  · intro h
    exact h.2.1.2.1
  · intro habove
    refine ⟨hbefore, ⟨?_, habove, htail⟩, ?_⟩
    · rintro s (rfl | hs)
      · omega
      · exact hafter s hs
    · rintro s hs t (rfl | rfl | ht)
      · exact hcross s hs t (.inl rfl)
      · have := hcross s hs cur (.inl rfl)
        omega
      · exact hcross s hs t (.inr ht)

lemma le_start_of_head {bound : ℕ} (hsorted : after.Pairwise fun s t => s.start ≤ t.start)
    (hhead : ∀ next ∈ after.head?, bound ≤ next.start) : ∀ s ∈ after, bound ≤ s.start := by
  intro s hs
  cases after with
  | nil => exact absurd hs not_mem_nil
  | cons next after =>
    have hnext := hhead next rfl
    rcases mem_cons.mp hs with rfl | hin
    · exact hnext
    · exact hnext.trans ((pairwise_cons.mp hsorted).1 s hin)

section
variable (ho : Ordered segments) (hnew : new.Valid) (hdisjoint : ∀ s ∈ segments, Disjoint s new)
include ho hnew hdisjoint

lemma insert_sorted :
    (memoryMapInsertSegment segments new).Pairwise (fun s t => s.start ≤ t.start) ↔
      Fits segments new := by
  rw [memoryMapInsertSegment]
  cases h : insertAfter new segments with
  | none =>
    rw [getD_none, pairwise_cons, and_iff_left ho.sorted, Fits]
    split_ifs with hstop
    · refine ⟨fun hall s hs => hall s (mem_of_mem_tail hs), fun _ s hs => ?_⟩
      exact (lt_start_of_withinEnd hnew.2 hstop (hdisjoint s hs)
        (insertAfter_none_withinEnd hstop h s hs)).le
    · refine ⟨.inl, ?_⟩
      rintro (hall | ⟨before, cur, after, rfl, hend, hnext⟩)
      · exact hall
      · exact absurd h (insertAfter_ne_none ((withinEnd_eq_false hnew.2).mpr hend) hnext)
  | some out =>
    obtain ⟨before, cur, after, rfl, rfl, hend, hnext, hfirst⟩ := insertAfter_spec h
    rw [withinEnd_eq_false hnew.2] at hend
    rw [getD_some, insert_sorted_iff ho hend, Fits]
    have hsorted := (pairwise_append.mp ho.sorted).2
    have hstops := le_start_of_head (pairwise_cons.mp hsorted.1).2 hnext
    split_ifs with hstop
    · have hnil : before = [] := by
        cases before with
        | nil => rfl
        | cons b before =>
          have hlt := lt_start_of_withinEnd hnew.2 hstop (hdisjoint b (by simp))
            (hfirst hstop b mem_cons_self)
          have hle := hsorted.2 b mem_cons_self cur mem_cons_self
          have hcur := (ho.valid cur (by simp)).1
          omega
      rw [hnil]
      rfl
    · refine ⟨fun _ => .inr ⟨before, cur, after, rfl, hend, hstops⟩, fun _ s hs => ?_⟩
      have hle := hnew.1
      rw [top, if_neg hstop] at hle
      exact hle.trans (hstops s hs)

lemma insert_ordered_iff : Ordered (memoryMapInsertSegment segments new) ↔ Fits segments new := by
  constructor
  · intro h
    exact (insert_sorted ho hnew hdisjoint).mp h.sorted
  · intro hfits
    have hperm : (memoryMapInsertSegment segments new).Perm (new :: segments) :=
      memoryMapInsertSegment_perm
    refine ⟨fun s hs => ?_, (insert_sorted ho hnew hdisjoint).mpr hfits, ?_⟩
    · rcases mem_cons.mp (hperm.mem_iff.mp hs) with rfl | hin
      · exact hnew
      · exact ho.valid s hin
    · refine (hperm.pairwise_iff disjoint_comm).mpr (pairwise_cons.mpr ⟨?_, ho.disjoint⟩)
      intro s hs
      exact disjoint_comm (hdisjoint s hs)
end
end Insert
section Find
variable {map : Map} {address : ℕ}

lemma contains_iff (h : address < 2 ^ 32) : segment.Contains address ↔
      (withinStart segment address && withinEnd segment address) = true := by
  rw [Segment.Contains, Bool.and_eq_true, withinStart, decide_eq_true_iff, ← not_le,
    ← withinEnd_eq_false h, Bool.not_eq_false]

lemma memoryMapFind_none (h : address < 2 ^ 32) :
    memoryMapFind map address = none ↔ ∀ s ∈ map.segments, ¬ s.Contains address := by
  rw [memoryMapFind, List.find?_eq_none]
  exact forall₂_congr fun s _ => not_congr (contains_iff h).symm

lemma memoryMapFind_contains (h : address < 2 ^ 32)
    (hfind : memoryMapFind map address = some segment) : segment.Contains address := by
  rw [memoryMapFind] at hfind
  have hfound := List.find?_some hfind
  exact (contains_iff h).mpr hfound

lemma memoryMapFind_some (ho : Ordered map.segments) (h : address < 2 ^ 32) :
    memoryMapFind map address = some segment ↔
      segment ∈ map.segments ∧ segment.Contains address := by
  constructor
  · intro hfind
    exact ⟨List.mem_of_find?_eq_some hfind, memoryMapFind_contains h hfind⟩
  · rintro ⟨hmem, hcontains⟩
    cases hfind : memoryMapFind map address with
    | none => exact absurd hcontains ((memoryMapFind_none h).mp hfind segment hmem)
    | some found =>
      have hfound := memoryMapFind_contains h hfind
      by_contra hne
      have hother : segment ≠ found := fun heq => hne (by rw [heq])
      have hmem' := List.mem_of_find?_eq_some hfind
      exact ho.disjoint.forall hmem hmem' hother address hcontains hfound
end Find
section Runs

abbrev Call := Mapping × Answers

/-- The range is aligned and shares no address with a segment. -/
structure Free (pageSize : ℕ) (segments : List Segment) (m : Mapping) : Prop where
  length_aligned : m.length % pageSize = 0
  start_aligned : m.start % pageSize = 0
  start_lt : m.start < 2 ^ 32
  length_lt : m.length < 2 ^ 32
  fits : m.start + m.length ≤ 2 ^ 32
  unmapped : ∀ s ∈ segments, ∀ a, s.Contains a → ¬ (m.start ≤ a ∧ a < m.start + m.length)

def Step (pageSize : ℕ) (map : Map) (call : Call) (map' : Map) : Prop :=
  Free pageSize map.segments call.1 ∧ (memoryMapMmap pageSize map call.1 call.2).2 = map'

def Placed (map : Map) (call : Call) : Prop :=
  0 < call.1.start + call.1.length ∧ Fits map.segments call.1.segment

variable {pageSize : ℕ} {map : Map} {m : Mapping}

section
variable (h : Free pageSize map.segments m) (hpos : 0 < m.start + m.length)
include h hpos

lemma Free.top_stop : top m.stop = m.start + m.length := by
  rw [Mapping.stop, top]
  rcases h.fits.lt_or_eq with hlt | heq
  · rw [add32_of_lt hlt, if_neg (by omega)]
  · rw [add32_of_eq heq, if_pos rfl, heq]

lemma Free.valid : m.segment.Valid := by
  refine ⟨?_, h.start_lt⟩
  change m.start ≤ top m.stop
  rw [h.top_stop hpos]
  omega

lemma Free.disjoint : ∀ s ∈ map.segments, Disjoint s m.segment := by
  intro s hs a ha hm
  refine h.unmapped s hs a ha ⟨hm.1, ?_⟩
  rw [← h.top_stop hpos]
  exact hm.2
end

lemma memoryMapAdjustMarkers_segments (map : Map) (segment : Segment) :
    (memoryMapAdjustMarkers map segment).segments = map.segments := by
  unfold memoryMapAdjustMarkers
  dsimp only
  split_ifs <;> rfl

lemma memoryMapMmap_segments (h : Free pageSize map.segments m) (answers : Answers) :
    (memoryMapMmap pageSize map m answers).2.segments =
      if answers.canAlloc then memoryMapInsertSegment map.segments m.segment
      else map.segments := by
  have hwrap : ¬ (0 < m.stop ∧ m.stop < m.start) := by
    rw [Mapping.stop]
    rcases h.fits.lt_or_eq with hlt | heq
    · rw [add32_of_lt hlt]
      omega
    · rw [add32_of_eq heq]
      omega
  rw [memoryMapMmap, if_neg (not_not.mpr h.length_aligned), if_neg (not_not.mpr h.start_aligned),
    if_neg hwrap]
  cases answers.canAlloc with
  | false => rfl
  | true =>
    simp only [Bool.not_true, Bool.false_eq_true, if_false, if_true]
    split_ifs
    · rfl
    · exact memoryMapAdjustMarkers_segments _ _

/-- The segments that a run has put into the map. -/
def mapped (calls : List Call) : List Segment :=
  (calls.filter fun call => call.2.canAlloc).map fun call => call.1.segment

lemma mapped_snoc (calls : List Call) (call : Call) : (mapped (calls ++ [call])).Perm
      (if call.2.canAlloc then call.1.segment :: mapped calls else mapped calls) := by
  rw [mapped, filter_append, map_append]
  cases h : call.2.canAlloc with
  | false => simp [h, mapped]
  | true => simp [h, mapped]

lemma step_ordered {calls : List Call} {call : Call} {map' : Map}
    (ho : Ordered map.segments ∧ map.segments.Perm (mapped calls))
    (hstep : Guarded Placed (Step pageSize) map call map') :
    Ordered map'.segments ∧ map'.segments.Perm (mapped (calls ++ [call])) := by
  obtain ⟨⟨hpos, hfits⟩, hfree, rfl⟩ := hstep
  rw [memoryMapMmap_segments hfree]
  have hmapped := (mapped_snoc calls call).symm
  split_ifs at hmapped ⊢ with halloc
  · refine ⟨(insert_ordered_iff ho.1 (hfree.valid hpos) (hfree.disjoint hpos)).mpr hfits, ?_⟩
    exact (memoryMapInsertSegment_perm.trans (ho.2.cons _)).trans hmapped
  · exact ⟨ho.1, ho.2.trans hmapped⟩

/-- After every run of fitting calls the segments are those of the calls, in order and apart, and an
address is found in the one that contains it. -/
theorem segments_in_order {calls : List Call} {map : Map}
    (hrun : Run (Guarded Placed (Step pageSize)) empty calls map) :
    map.segments.Perm (mapped calls) ∧ map.segments.Pairwise (fun s t => s.start ≤ t.start) ∧
    map.segments.Pairwise Disjoint ∧ ∀ a < 2 ^ 32, (∀ segment, memoryMapFind map a = some segment ↔
        segment ∈ map.segments ∧ segment.Contains a) ∧
      (memoryMapFind map a = none ↔ ∀ s ∈ map.segments, ¬ s.Contains a) := by
  obtain ⟨ho, hperm⟩ := hrun.invariant
    (I := fun calls map => Ordered map.segments ∧ map.segments.Perm (mapped calls))
    ⟨⟨by simp [empty], List.Pairwise.nil, List.Pairwise.nil⟩, List.Perm.refl _⟩
    (fun _ _ _ _ hi hstep => step_ordered hi hstep)
  exact ⟨hperm, ho.sorted, ho.disjoint,
    fun a ha => ⟨fun _ => memoryMapFind_some ho ha, memoryMapFind_none ha⟩⟩

lemma free_of_apart {segments : List Segment}
    (h : m.length % pageSize = 0 ∧ m.start % pageSize = 0 ∧ m.start < 2 ^ 32 ∧
      m.length < 2 ^ 32 ∧ m.start + m.length ≤ 2 ^ 32)
    (hapart : ∀ s ∈ segments, top s.stop ≤ m.start ∨ m.start + m.length ≤ s.start) :
    Free pageSize segments m := by
  refine ⟨h.1, h.2.1, h.2.2.1, h.2.2.2.1, h.2.2.2.2, fun s hs a ha hin => ?_⟩
  obtain ⟨hlo, hhi⟩ := ha
  rcases hapart s hs with hbefore | hafter <;> omega

def fixedMapping (start length flags : ℕ) : Call :=
  (⟨start, length, segFixed ||| segSupervisor ||| segWrite ||| flags, none, 0⟩, ⟨true, 0⟩)

/-- The calls that map the memory of the kernel. -/
def archInitMm : List Call :=
  [fixedMapping 0 0x00700000 0, fixedMapping 0x00700000 0x00100000 segNocache,
    fixedMapping 0x00800000 0x00800000 0, fixedMapping 0xFF000000 0x01000000 segNocache]

def mmapAll (pageSize : ℕ) (calls : List Call) : Map :=
  calls.foldl (fun map call => (memoryMapMmap pageSize map call.1 call.2).2) empty

lemma fits_after (hpos : new.stop ≠ 0) (h : ∃ cur ∈ segments.getLast?, top cur.stop ≤ new.start) :
    Fits segments new := by
  obtain ⟨cur, hlast, hcur⟩ := h
  rw [Fits, if_neg hpos]
  exact .inr ⟨segments.dropLast, cur, [], (List.dropLast_append_getLast? cur hlast).symm, hcur, by simp⟩

theorem segments_in_order_kernel : ∃ map,
    Run (Guarded Placed (Step 4096)) empty (archInitMm.take 3) map ∧ map.segments.length = 3 ∧
      map.segments.Pairwise Disjoint := by
  have h₁ : Run (Guarded Placed (Step 4096)) empty (archInitMm.take 1)
      (mmapAll 4096 (archInitMm.take 1)) := by
    refine Run.one ⟨⟨by decide, ?_⟩, free_of_apart (by decide) (by simp [empty]), rfl⟩
    rw [Fits, if_neg (by decide +kernel)]
    exact .inl (by simp [empty])
  have h₂ : Run (Guarded Placed (Step 4096)) empty (archInitMm.take 2)
      (mmapAll 4096 (archInitMm.take 2)) :=
    .snoc h₁ ⟨⟨by decide, fits_after (by decide +kernel) (by decide +kernel)⟩,
      free_of_apart (by decide) (by decide +kernel), rfl⟩
  have h₃ : Run (Guarded Placed (Step 4096)) empty (archInitMm.take 3)
      (mmapAll 4096 (archInitMm.take 3)) :=
    .snoc h₂ ⟨⟨by decide, fits_after (by decide +kernel) (by decide +kernel)⟩,
      free_of_apart (by decide) (by decide +kernel), rfl⟩
  exact ⟨_, h₃, by decide +kernel, (segments_in_order h₃).2.2.1⟩

theorem window_out_of_order : ∃ map, Run (Step 4096) empty archInitMm map ∧
    ¬ map.segments.Pairwise (fun s t => s.start ≤ t.start) := by
  refine ⟨mmapAll 4096 archInitMm, ?_, by decide +kernel⟩
  have h₁ : Run (Step 4096) empty (archInitMm.take 1) (mmapAll 4096 (archInitMm.take 1)) :=
    Run.one ⟨free_of_apart (by decide) (by simp [empty]), rfl⟩
  have h₂ : Run (Step 4096) empty (archInitMm.take 2) (mmapAll 4096 (archInitMm.take 2)) :=
    .snoc h₁ ⟨free_of_apart (by decide) (by decide +kernel), rfl⟩
  have h₃ : Run (Step 4096) empty (archInitMm.take 3) (mmapAll 4096 (archInitMm.take 3)) :=
    .snoc h₂ ⟨free_of_apart (by decide) (by decide +kernel), rfl⟩
  exact .snoc h₃ ⟨free_of_apart (by decide) (by decide +kernel), rfl⟩
end Runs
end Gloworm.MemoryMap
