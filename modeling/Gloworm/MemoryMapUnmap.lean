import Gloworm.MemoryMapOrder

/-! What `memory_map_unmap` leaves of a map, compared with the removal of a range. -/
namespace Gloworm.MemoryMap
open Word List

def Segment.offsetAt (segment : Segment) (address : ℕ) : ℕ :=
  add32 segment.offset (address - segment.start)

def InRange (start length address : ℕ) : Prop := start ≤ address ∧ address < start + length

def Segment.Intersects (segment : Segment) (start length : ℕ) : Prop :=
  ∃ a, segment.Contains a ∧ InRange start length a

def Mapped (segments : List Segment) (address : ℕ) : Prop :=
  ∃ s ∈ segments, s.Contains address

def below (start : ℕ) (seg : Segment) : List Segment :=
  if seg.start < start then [{ seg with stop := start }] else []

def above (stop : ℕ) (seg : Segment) : List Segment :=
  if stop < top seg.stop then
    [{ seg with
      start := stop
      offset := seg.offsetAt stop }]
  else []

def meets (start length : ℕ) (seg : Segment) : Bool :=
  max seg.start start < min (top seg.stop) (start + length)

def survivors (start length : ℕ) (seg : Segment) : List Segment :=
  if meets start length seg then below start seg ++ above (start + length) seg else [seg]

def properUse (start length : ℕ) (seg : Segment) : ObjectUse :=
  if meets start length seg then
    if seg.start < start then if start + length < top seg.stop then .makeRef else .keep
    else if start + length < top seg.stop then .keep else .release
  else .keep

section Survivors
variable {start length a : ℕ} {seg piece : Segment}

lemma meets_iff : meets start length seg = true ↔ seg.Intersects start length := by
  rw [meets, decide_eq_true_iff]
  constructor
  · intro h
    refine ⟨max seg.start start, ⟨le_max_left _ _, ?_⟩, le_max_right _ _, ?_⟩ <;> omega
  · rintro ⟨a, ⟨hlo, hhi⟩, hlo', hhi'⟩
    omega

lemma survivors_of_not_intersects (h : ¬ seg.Intersects start length) :
    survivors start length seg = [seg] := by
  rw [survivors, if_neg]
  rwa [meets_iff]

lemma offsetAt_above {stop : ℕ} (hlo : seg.start ≤ stop) (ha : stop ≤ a) :
    add32 (seg.offsetAt stop) (a - stop) = seg.offsetAt a := by
  unfold Segment.offsetAt add32
  omega

lemma survivors_sound (hmem : piece ∈ survivors start length seg) (ha : piece.Contains a) :
    seg.Contains a ∧ ¬ InRange start length a ∧ piece.flags = seg.flags ∧ piece.ops = seg.ops ∧
      piece.object = seg.object ∧ piece.offsetAt a = seg.offsetAt a := by
  rw [survivors] at hmem
  split_ifs at hmem with hmeets
  · rw [meets, decide_eq_true_iff] at hmeets
    rcases mem_append.mp hmem with hbelow | habove
    · rw [below] at hbelow
      split_ifs at hbelow with hlt
      · obtain rfl := mem_singleton.mp hbelow
        obtain ⟨hlo, hhi⟩ := ha
        have hstop : top start = start := if_neg (by omega)
        change a < top start at hhi
        change seg.start ≤ a at hlo
        refine ⟨⟨hlo, by omega⟩, fun hin => ?_, rfl, rfl, rfl, rfl⟩
        have := hin.1
        omega
      · exact absurd hbelow not_mem_nil
    · rw [above] at habove
      split_ifs at habove with hlt
      · obtain rfl := mem_singleton.mp habove
        obtain ⟨hlo, hhi⟩ := ha
        change start + length ≤ a at hlo
        change a < top seg.stop at hhi
        refine ⟨⟨by omega, hhi⟩, fun hin => ?_, rfl, rfl, rfl, offsetAt_above (by omega) hlo⟩
        have := hin.2
        omega
      · exact absurd habove not_mem_nil
  · obtain rfl := mem_singleton.mp hmem
    refine ⟨ha, fun hin => hmeets ?_, rfl, rfl, rfl, rfl⟩
    exact meets_iff.mpr ⟨a, ha, hin⟩

lemma survivors_complete (ha : seg.Contains a) (hout : ¬ InRange start length a) :
    ∃ piece ∈ survivors start length seg, piece.Contains a := by
  by_cases hmeets : meets start length seg = true
  · obtain ⟨hlo, hhi⟩ := ha
    rw [survivors, if_pos hmeets]
    rw [meets, decide_eq_true_iff] at hmeets
    by_cases hlt : a < start
    · have hstop : top start = start := if_neg (by omega)
      refine ⟨{ seg with stop := start }, ?_, hlo, ?_⟩
      · rw [below, if_pos (by omega)]
        simp
      · change a < top start
        omega
    · have hge : start + length ≤ a := by
        by_contra hge
        exact hout ⟨by omega, by omega⟩
      refine ⟨{ seg with start := start + length, offset := seg.offsetAt (start + length) },
        ?_, hge, hhi⟩
      rw [above, if_pos (by omega)]
      simp
  · refine ⟨seg, ?_, ha⟩
    rw [survivors, if_neg hmeets]
    exact mem_singleton_self seg
end Survivors

/-- Left out are a range that takes away the head of a segment, empty segments and ranges that touch
one another, and most ends at the top of the address space, which are the word 0. -/
def Handled (start length : ℕ) (seg : Segment) : Prop :=
  if start + length = 2 ^ 32 then
    seg.stop ≠ 0 ∧ (seg.stop < start ∨ seg.start = seg.stop ∧ start < seg.start)
  else if seg.stop = 0 then
    start + length < seg.start ∨ seg.start = start + length ∧ 0 < start ∨
      seg.start < start ∧ length = 0
  else if seg.start = seg.stop then seg.start < start ∨ start + length < seg.start
  else ¬ (start ≤ seg.start ∧ seg.start < start + length ∧ start + length < seg.stop) ∧
    (length = 0 → ¬ (seg.start < start ∧ start < seg.stop))

variable {use : ObjectUse}

section OneSegment
variable {start length stop : ℕ} {seg : Segment}

lemma with_start (h : stop = seg.start) : { seg with start := stop } = seg := by
  subst h
  rfl

lemma with_stop (h : start = seg.stop) : { seg with stop := start } = seg := by
  subst h
  rfl

lemma unmapSegment_inside (hs : start ≤ seg.start ∧ seg.start ≤ stop)
    (he : start ≤ seg.stop ∧ seg.stop ≤ stop) : unmapSegment start stop seg = ([], .release) := by
  rw [unmapSegment, if_pos hs, if_pos he]

lemma unmapSegment_head (hs : start ≤ seg.start ∧ seg.start ≤ stop)
    (he : ¬ (start ≤ seg.stop ∧ seg.stop ≤ stop)) :
    unmapSegment start stop seg = ([{ seg with start := stop }], .keep) := by
  rw [unmapSegment, if_pos hs, if_neg he]

section
variable (hs : ¬ (start ≤ seg.start ∧ seg.start ≤ stop))
include hs

lemma unmapSegment_tail (he : start ≤ seg.stop ∧ seg.stop ≤ stop) :
    unmapSegment start stop seg = ([{ seg with stop := start }], .keep) := by
  rw [unmapSegment, if_neg hs, if_pos he]

lemma unmapSegment_split (he : ¬ (start ≤ seg.stop ∧ seg.stop ≤ stop))
    (hin : seg.start ≤ start ∧ start ≤ seg.stop) :
    unmapSegment start stop seg = ([{ seg with stop := start }, { seg with
      start := stop
      offset := add32 seg.offset (sub32 stop seg.start) }], .makeRef) := by
  rw [unmapSegment, if_neg hs, if_neg he, if_pos hin]

lemma unmapSegment_outside (he : ¬ (start ≤ seg.stop ∧ seg.stop ≤ stop))
    (hin : ¬ (seg.start ≤ start ∧ start ≤ seg.stop)) :
    unmapSegment start stop seg = ([seg], .keep) := by
  rw [unmapSegment, if_neg hs, if_neg he, if_neg hin]
end

def removed (start length : ℕ) (seg : Segment) : List Segment × ObjectUse :=
  (survivors start length seg, properUse start length seg)

lemma removed_apart (h : top seg.stop ≤ max seg.start start ∨
    start + length ≤ max seg.start start) : removed start length seg = ([seg], .keep) := by
  have hmeets : ¬ meets start length seg = true := by
    rw [meets, decide_eq_true_iff]
    omega
  rw [removed, survivors, properUse, if_neg hmeets, if_neg hmeets]

lemma meets_of (hs : seg.start < start + length)
    (he : start < top seg.stop) (hseg : seg.start < top seg.stop) (hlength : 0 < length) :
    meets start length seg = true := by
  rw [meets, decide_eq_true_iff]
  omega

lemma unmapSegment_of_nonempty (hvalid : seg.start < seg.stop) (hlt : seg.stop < 2 ^ 32)
    (hhead : ¬ (start ≤ seg.start ∧ seg.start < start + length ∧ start + length < seg.stop))
    (hempty : length = 0 → ¬ (seg.start < start ∧ start < seg.stop)) :
    unmapSegment start (start + length) seg = removed start length seg := by
  have htop : top seg.stop = seg.stop := if_neg (by omega)
  by_cases hs : start ≤ seg.start ∧ seg.start ≤ start + length
  · by_cases he : start ≤ seg.stop ∧ seg.stop ≤ start + length
    · have hmeets : meets start length seg = true := meets_of (by omega) (by omega) (by omega)
        (by omega)
      rw [unmapSegment_inside hs he, removed, survivors, properUse, if_pos hmeets, if_pos hmeets,
        below, above, if_neg (by omega), if_neg (by omega), if_neg (by omega), if_neg (by omega)]
      rfl
    · rw [unmapSegment_head hs he, with_start (by omega), removed_apart (by omega)]
  · by_cases he : start ≤ seg.stop ∧ seg.stop ≤ start + length
    · by_cases htouch : start = seg.stop
      · rw [unmapSegment_tail hs he, with_stop htouch, removed_apart (by omega)]
      · have hmeets : meets start length seg = true := meets_of (by omega) (by omega) (by omega)
          (by omega)
        rw [unmapSegment_tail hs he, removed, survivors, properUse, if_pos hmeets, if_pos hmeets,
          below, above, if_pos (by omega), if_neg (by omega), if_pos (by omega),
          if_neg (by omega)]
        rfl
    · by_cases hin : seg.start ≤ start ∧ start ≤ seg.stop
      · have hmeets : meets start length seg = true := meets_of (by omega) (by omega) (by omega)
          (by omega)
        rw [unmapSegment_split hs he hin, removed, survivors, properUse, if_pos hmeets,
          if_pos hmeets, below, above, if_pos (by omega), if_pos (by omega), if_pos (by omega),
          if_pos (by omega), Segment.offsetAt, sub32_of_le (by omega) (by omega)]
        rfl
      · rw [unmapSegment_outside hs he hin, removed_apart (by omega)]

structure Request (start length : ℕ) (seg : Segment) : Prop where
  valid : seg.Valid
  stop_lt : seg.stop < 2 ^ 32
  start_lt : start < 2 ^ 32
  length_lt : length < 2 ^ 32
  range : start + length ≤ 2 ^ 32

lemma unmapSegment_of_handled (hr : Request start length seg) (h : Handled start length seg) :
    unmapSegment start (add32 start length) seg = removed start length seg := by
  obtain ⟨⟨hvalid, hseg⟩, hstop, hstart, hlength, hrange⟩ := hr
  rw [Handled] at h
  split_ifs at h with hend hzero hempty
  · have htop : top seg.stop = seg.stop := if_neg h.1
    rw [add32_of_eq hend, unmapSegment_outside (by omega) (by omega) (by omega),
      removed_apart (by omega)]
  · have htop : top seg.stop = 2 ^ 32 := if_pos hzero
    rw [add32_of_lt (by omega), removed_apart (by omega)]
    rcases h with hafter | hat | hinside
    · by_cases hfirst : start = 0
      · rw [unmapSegment_tail (by omega) (by omega), with_stop (by omega)]
      · rw [unmapSegment_outside (by omega) (by omega) (by omega)]
    · rw [unmapSegment_head (by omega) (by omega), with_start (by omega)]
    · rw [unmapSegment_outside (by omega) (by omega) (by omega)]
  · have htop : top seg.stop = seg.stop := if_neg hzero
    rw [add32_of_lt (by omega), unmapSegment_outside (by omega) (by omega) (by omega),
      removed_apart (by omega)]
  · have htop : top seg.stop = seg.stop := if_neg hzero
    rw [add32_of_lt (by omega)]
    exact unmapSegment_of_nonempty (by omega) hstop h.1 h.2

/-- Its object is misused, an address of the range stays mapped, or an offset changes. -/
def Wrong (start length : ℕ) (seg : Segment) (out : List Segment × ObjectUse) : Prop :=
  out.2 ≠ properUse start length seg ∨
  (∃ piece ∈ out.1, ∃ a, piece.Contains a ∧ InRange start length a) ∨
  ∃ piece ∈ out.1, ∃ a, piece.Contains a ∧ seg.Contains a ∧ piece.offsetAt a ≠ seg.offsetAt a

lemma properUse_apart (h : top seg.stop ≤ max seg.start start ∨
    start + length ≤ max seg.start start) : properUse start length seg = .keep :=
  congrArg Prod.snd (removed_apart h)

lemma properUse_of_lt (h : ¬ (seg.start < start ∧ start + length < top seg.stop))
    (hsome : seg.start < start ∨ start + length < top seg.stop) :
    properUse start length seg = .keep := by
  unfold properUse
  split_ifs <;> first | rfl | omega

lemma properUse_ne_makeRef (h : ¬ start + length < top seg.stop) :
    properUse start length seg ≠ .makeRef := by
  unfold properUse
  split_ifs <;> decide

lemma wrong_of_head (hs : seg.start < stop) (he : stop < top seg.stop) (hstop : stop < 2 ^ 32) :
    Wrong start length seg ([{ seg with start := stop }], use) := by
  refine .inr (.inr ⟨_, mem_singleton_self _, stop, ⟨le_rfl, he⟩, ⟨hs.le, he⟩, ?_⟩)
  change add32 seg.offset (stop - stop) ≠ add32 seg.offset (stop - seg.start)
  unfold add32
  omega

lemma wrong_of_unchanged {a : ℕ} (ha : seg.Contains a) (hin : InRange start length a) :
    Wrong start length seg ([seg], use) :=
  .inr (.inl ⟨seg, mem_singleton_self _, a, ha, hin⟩)

lemma wrong_of_use {pieces : List Segment} (hproper : properUse start length seg = .keep)
    (huse : use ≠ .keep) : Wrong start length seg (pieces, use) := by
  refine .inl ?_
  rw [hproper]
  exact huse

lemma unmapSegment_wrong (hr : Request start length seg) (h : ¬ Handled start length seg) :
    Wrong start length seg (unmapSegment start (add32 start length) seg) := by
  obtain ⟨⟨hvalid, hseg⟩, hstop, hstart, hlength, hrange⟩ := hr
  rw [Handled] at h
  split_ifs at h with hend hzero hempty
  · rw [add32_of_eq hend]
    by_cases hzero : seg.stop = 0
    · have htop : top seg.stop = 2 ^ 32 := if_pos hzero
      rw [unmapSegment_outside (by omega) (by omega) (by omega)]
      exact wrong_of_unchanged (a := max seg.start start) ⟨by omega, by omega⟩
        ⟨by omega, by omega⟩
    · have htop : top seg.stop = seg.stop := if_neg hzero
      by_cases hin : seg.start ≤ start ∧ start ≤ seg.stop
      · rw [unmapSegment_split (by omega) (by omega) hin]
        exact .inl (properUse_ne_makeRef (by omega)).symm
      · rw [unmapSegment_outside (by omega) (by omega) hin]
        exact wrong_of_unchanged (a := seg.start) ⟨by omega, by omega⟩ ⟨by omega, by omega⟩
  · have htop : top seg.stop = 2 ^ 32 := if_pos hzero
    rw [add32_of_lt (by omega)]
    by_cases hs : start ≤ seg.start
    · by_cases hfirst : start = 0
      · rw [unmapSegment_inside (by omega) (by omega)]
        exact wrong_of_use (properUse_of_lt (by omega) (by omega)) (by decide)
      · rw [unmapSegment_head (by omega) (by omega)]
        exact wrong_of_head (by omega) (by omega) (by omega)
    · rw [unmapSegment_outside (by omega) (by omega) (by omega)]
      exact wrong_of_unchanged (a := start) ⟨by omega, by omega⟩ ⟨by omega, by omega⟩
  · have htop : top seg.stop = seg.stop := if_neg hzero
    rw [add32_of_lt (by omega), unmapSegment_inside (by omega) (by omega)]
    exact wrong_of_use (properUse_apart (by omega)) (by decide)
  · have htop : top seg.stop = seg.stop := if_neg hzero
    rw [add32_of_lt (by omega)]
    by_cases hhead : start ≤ seg.start ∧ seg.start < start + length ∧ start + length < seg.stop
    · rw [unmapSegment_head (by omega) (by omega)]
      exact wrong_of_head (by omega) (by omega) (by omega)
    · have hlen : length = 0 ∧ seg.start < start ∧ start < seg.stop := by
        by_contra hne
        exact h ⟨hhead, fun h0 hin => hne ⟨h0, hin⟩⟩
      rw [unmapSegment_split (by omega) (by omega) (by omega)]
      exact wrong_of_use (properUse_apart (by omega)) (by decide)
end OneSegment
section Unmap
variable {start length : ℕ} {answers : ℕ → Answers} {segments : List Segment}

lemma unmapLoop_ok {stop : ℕ} (h : ¬ (unmapLoop start stop answers segments).1 < 0) :
    (unmapLoop start stop answers segments).2 =
      (segments.flatMap fun s => (unmapSegment start stop s).1,
        segments.map fun s => (unmapSegment start stop s).2) := by
  induction segments generalizing answers with
  | nil => rfl
  | cons cur rest ih =>
    rw [unmapLoop] at h ⊢
    dsimp only at h ⊢
    split_ifs at h ⊢ with hmemory hpages
    · exact absurd (show ENOMEM < 0 by decide) h
    · exact absurd hpages.2 h
    · have hrest := ih h
      rw [flatMap_cons, map_cons]
      exact Prod.ext (congrArg (fun r => (unmapSegment start stop cur).1 ++ r.1) hrest)
        (congrArg (fun r => (unmapSegment start stop cur).2 :: r.2) hrest)

lemma memoryMapUnmap_ok {map map' : Map} {uses : List ObjectUse}
    (h : memoryMapUnmap map start length answers = (0, map', uses)) :
    map'.segments = map.segments.flatMap (fun s => (unmapSegment start (add32 start length) s).1) ∧
      uses = map.segments.map fun s => (unmapSegment start (add32 start length) s).2 := by
  rw [memoryMapUnmap] at h
  dsimp only at h
  split_ifs at h with herror
  · have hzero := congrArg Prod.fst h
    dsimp only at hzero
    omega
  · have hloop := unmapLoop_ok herror
    have hmap := congrArg (fun r => r.2.1.segments) h
    have huses := congrArg (fun r => r.2.2) h
    dsimp only at hmap huses
    rw [← hmap, ← huses]
    exact ⟨congrArg Prod.fst hloop, congrArg Prod.snd hloop⟩

/-- The mapped addresses are those outside the range, unchanged, and the object of a segment is
released or shared once where the segment goes away or is split. -/
structure Removes (start length : ℕ) (segments segments' : List Segment)
    (uses : List ObjectUse) : Prop where
  mapped : ∀ a, Mapped segments' a ↔ Mapped segments a ∧ ¬ InRange start length a
  kept : ∀ s ∈ segments', ∀ a, s.Contains a → ∃ o ∈ segments, o.Contains a ∧
    s.flags = o.flags ∧ s.ops = o.ops ∧ s.object = o.object ∧ s.offsetAt a = o.offsetAt a
  untouched : ∀ s ∈ segments, ¬ s.Intersects start length → s ∈ segments'
  objects : uses = segments.map (properUse start length)

lemma removes_survivors (segments : List Segment) :
    Removes start length segments (segments.flatMap (survivors start length))
      (segments.map (properUse start length)) where
  mapped a := by
    constructor
    · rintro ⟨piece, hmem, ha⟩
      obtain ⟨s, hs, hpiece⟩ := mem_flatMap.mp hmem
      have hsound := survivors_sound hpiece ha
      exact ⟨⟨s, hs, hsound.1⟩, hsound.2.1⟩
    · rintro ⟨⟨s, hs, ha⟩, hout⟩
      obtain ⟨piece, hpiece, hcontains⟩ := survivors_complete ha hout
      exact ⟨piece, mem_flatMap.mpr ⟨s, hs, hpiece⟩, hcontains⟩
  kept piece hmem a ha := by
    obtain ⟨s, hs, hpiece⟩ := mem_flatMap.mp hmem
    obtain ⟨hcontains, -, hsame⟩ := survivors_sound hpiece ha
    exact ⟨s, hs, hcontains, hsame⟩
  untouched s hs hout := by
    refine mem_flatMap.mpr ⟨s, hs, ?_⟩
    rw [survivors_of_not_intersects hout]
    exact mem_singleton_self s
  objects := rfl

lemma not_wrong_of_removes {out : Segment → List Segment × ObjectUse}
    (hdisjoint : segments.Pairwise Disjoint)
    (h : Removes start length segments (segments.flatMap fun s => (out s).1)
      (segments.map fun s => (out s).2)) {seg : Segment} (hseg : seg ∈ segments) :
    ¬ Wrong start length seg (out seg) := by
  have hmem : ∀ piece ∈ (out seg).1, piece ∈ segments.flatMap fun s => (out s).1 :=
    fun piece hpiece => mem_flatMap.mpr ⟨seg, hseg, hpiece⟩
  rintro (huse | ⟨piece, hpiece, a, ha, hin⟩ | ⟨piece, hpiece, a, ha, hcontains, hoffset⟩)
  · exact huse (map_inj_left.mp h.objects seg hseg)
  · exact ((h.mapped a).mp ⟨piece, hmem piece hpiece, ha⟩).2 hin
  · obtain ⟨o, ho, hoa, -, -, -, hsame⟩ := h.kept piece (hmem piece hpiece) a ha
    by_cases heq : seg = o
    · exact hoffset (heq ▸ hsame)
    · exact hdisjoint.forall hseg ho heq a hcontains hoa

/-- A call that succeeds removes exactly the range just when each segment is handled. -/
theorem unmap_removes_iff_handled {map map' : Map} {answers : ℕ → Answers}
    {uses : List ObjectUse} (hvalid : ∀ s ∈ map.segments, s.Valid ∧ s.stop < 2 ^ 32)
    (hdisjoint : map.segments.Pairwise Disjoint) (hstart : start < 2 ^ 32)
    (hlength : length < 2 ^ 32) (hrange : start + length ≤ 2 ^ 32)
    (hok : memoryMapUnmap map start length answers = (0, map', uses)) :
    Removes start length map.segments map'.segments uses ↔
      ∀ s ∈ map.segments, Handled start length s := by
  have hrequest : ∀ s ∈ map.segments, Request start length s :=
    fun s hs => ⟨(hvalid s hs).1, (hvalid s hs).2, hstart, hlength, hrange⟩
  obtain ⟨hsegments, huses⟩ := memoryMapUnmap_ok hok
  rw [hsegments, huses]
  constructor
  · intro h s hs
    by_contra hnot
    exact not_wrong_of_removes hdisjoint h hs (unmapSegment_wrong (hrequest s hs) hnot)
  · intro h
    have heq : ∀ s ∈ map.segments,
        unmapSegment start (add32 start length) s = removed start length s :=
      fun s hs => unmapSegment_of_handled (hrequest s hs) (h s hs)
    have hpieces : (map.segments.flatMap
        fun s => (unmapSegment start (add32 start length) s).1) =
          map.segments.flatMap (survivors start length) :=
      flatMap_congr fun s hs => congrArg Prod.fst (heq s hs)
    have hobjects : (map.segments.map
        fun s => (unmapSegment start (add32 start length) s).2) =
          map.segments.map (properUse start length) :=
      map_congr_left fun s hs => congrArg Prod.snd (heq s hs)
    rw [hpieces, hobjects]
    exact removes_survivors map.segments

def fileMap : Map := ⟨[⟨segRead, 0x4000, 0x8000, .file, some 1, 0⟩], 0, 0x4000, 0, 0, 0⟩

def granted : ℕ → Answers := fun _ => ⟨true, 0⟩

theorem unmap_removes_tail : Removes 0x6000 0x2000 fileMap.segments
      (memoryMapUnmap fileMap 0x6000 0x2000 granted).2.1.segments
      (memoryMapUnmap fileMap 0x6000 0x2000 granted).2.2 := by
  have hok : memoryMapUnmap fileMap 0x6000 0x2000 granted =
      (0, (memoryMapUnmap fileMap 0x6000 0x2000 granted).2) := Prod.ext (by decide +kernel) rfl
  refine (unmap_removes_iff_handled ?_ ?_ (by decide) (by decide) (by decide) hok).mpr ?_
  · simp [fileMap, Segment.Valid, top]
  · exact pairwise_singleton _ _
  · simp [fileMap, Handled]

/-- A segment that loses its head keeps its offset into the file. -/
theorem head_trim_keeps_offset : (memoryMapUnmap fileMap 0x4000 0x1000 granted).1 = 0 ∧
    (memoryMapUnmap fileMap 0x4000 0x1000 granted).2.1.segments =
      [⟨segRead, 0x5000, 0x8000, .file, some 1, 0⟩] ∧ ¬ Removes 0x4000 0x1000 fileMap.segments
      (memoryMapUnmap fileMap 0x4000 0x1000 granted).2.1.segments
      (memoryMapUnmap fileMap 0x4000 0x1000 granted).2.2 := by
  have hsegments : (memoryMapUnmap fileMap 0x4000 0x1000 granted).2.1.segments =
      [⟨segRead, 0x5000, 0x8000, .file, some 1, 0⟩] := by decide +kernel
  refine ⟨by decide +kernel, hsegments, fun h => ?_⟩
  rw [hsegments] at h
  obtain ⟨o, ho, -, -, -, -, hoffset⟩ := h.kept _ (mem_singleton_self _) 0x5000
    (by simp [Segment.Contains, top])
  obtain rfl := mem_singleton.mp ho
  revert hoffset
  decide +kernel
end Unmap
end Gloworm.MemoryMap
