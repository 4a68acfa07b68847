import Gloworm.KmallocInvariant

/-! Every step of a client keeps the heap invariant, and so does every history. -/
namespace Gloworm.Kmalloc
open List Option Function Word SpanCover CoalescedList Transition
variable {pageBits : ℕ} {s : System} {free : List Span}

lemma blockSizeOf_spec {size : ℕ} (hbits : 8 ≤ pageBits) (hsize : size + 16 + 2 ^ pageBits ≤ 2 ^ 32) :
    sizeofBlock ≤ blockSizeOf size ∧ sizeofPointer ∣ blockSizeOf size ∧
      blockSizeOf size + 2 ^ pageBits ≤ 2 ^ 32 ∧ blockSizeOf size + 16 < 2 ^ 32 := by
  have hpage : 2 ^ 8 ≤ 2 ^ pageBits := Nat.pow_le_pow_right (by norm_num) hbits
  obtain ⟨h1, h2, h3⟩ := alignUp_spec (by omega : size + 2 ^ 2 ≤ 2 ^ 32)
  have hfour : sizeofPointer = 2 ^ 2 := by norm_num [sizeofPointer]
  have heq : blockSizeOf size = alignUp size (2 ^ 2) + 8 := by
    rw [blockSizeOf, hfour, sizeofBlock, add32_of_lt (by omega)]
  rw [heq]
  simp only [sizeofBlock, sizeofPointer]
  have h4 : 4 ∣ alignUp size (2 ^ 2) + 8 := Nat.dvd_add h3 (by norm_num)
  omega

namespace Invariant

def freshPage (h : Heap) (page pageSize : ℕ) : Heap :=
  let h := ((pageAlloc h page pageSize).setSize page pageSize).setNext page 0
  { h with
    totalPages := add32 h.totalPages pageSize
    bytesAllocated := add32 h.bytesAllocated pageSize }

def splitPage (h : Heap) (page pageSize n : ℕ) : Heap :=
  (((freshPage h page pageSize).setSize page n).setSize (page + n) (pageSize - n)).setNext
    (page + n) 0

section
variable {page pageSize n : ℕ} (inv : Invariant s free) (hpage : page ≠ 0)
  (hplaced : Placed ⟨page, pageSize⟩)
include inv hpage hplaced

lemma page_added {h' : Heap} {new : List ℕ}
    (hap : ∀ q ∈ s.heap.pages, (⟨page, pageSize⟩ : Span).Apart q)
    (hheap : h' = { freshPage s.heap page pageSize with mem := h'.mem })
    (hframe : ∀ w, ¬ (page ≤ w ∧ w < page + pageSize) → h'.mem w = s.heap.mem w)
    (hnew : ∀ p ∈ new, Placed (liveSpan h' p) ∧ h'.next (liveSpan h' p).start = 0)
    (hcover : ∀ x, cover (new.map (liveSpan h')) x = (⟨page, pageSize⟩ : Span).covers x)
    (htotal : total (new.map (liveSpan h')) = pageSize) : Invariant ⟨h', new ++ s.live⟩ free := by
  rw [freshPage, pageAlloc, if_neg hpage] at hheap
  refine inv.addPage (r := ⟨page, pageSize⟩) hplaced.pos hplaced.inside hap (fun w hw => hframe w ?_)
    (by rw [hheap]; rfl) (by rw [hheap]; rfl) (by rw [hheap]; rfl) (by rw [hheap]; rfl) hnew hcover
    htotal
  intro h
  have hpos : 0 < cover [⟨page, pageSize⟩] w := cover_pos_iff.mpr ⟨_, mem_singleton.mpr rfl, h⟩
  omega

lemma whole_page (hap : ∀ q ∈ s.heap.pages, (⟨page, pageSize⟩ : Span).Apart q) :
    Invariant ⟨freshPage s.heap page pageSize, [add32 page sizeofBlock] ++ s.live⟩ free := by
  have hne : page ≠ page + sizeofPointer := by simp [sizeofPointer]
  have hmem : (freshPage s.heap page pageSize).mem page = pageSize := by
    simp [freshPage, Heap.setNext, Heap.setSize, update_of_ne hne]
  have hnew := liveSpan_start hplaced hmem
  have hsize := hplaced.header
  simp only [sizeofBlock] at hsize
  refine page_added inv hpage hplaced hap rfl ?_ ?_ ?_ ?_
  · intro w hw
    simp only [freshPage, Heap.setNext, Heap.setSize, pageAlloc, if_neg hpage, sizeofPointer]
    rw [update_of_ne (by omega), update_of_ne (by omega)]
  · intro p hp
    rw [mem_singleton.mp hp, hnew]
    exact ⟨hplaced, by simp [freshPage, Heap.next, Heap.setNext]⟩
  · intro x
    simp only [map_cons, map_nil, cover_cons, cover_nil, hnew]
    rfl
  · simp only [map_cons, map_nil, total_cons, total_nil, hnew]
    rfl

lemma split_page (hn : sizeofBlock ≤ n) (hn4 : sizeofPointer ∣ n) (hroom : n + 16 < pageSize)
    (hap : ∀ q ∈ s.heap.pages, (⟨page, pageSize⟩ : Span).Apart q) :
    Invariant ⟨splitPage s.heap page pageSize n,
      [add32 (page + n) sizeofBlock, add32 page sizeofBlock] ++ s.live⟩ free ∧
    liveSpan (splitPage s.heap page pageSize n) (add32 (page + n) sizeofBlock) =
      ⟨page + n, pageSize - n⟩ ∧
    liveSpan (splitPage s.heap page pageSize n) (add32 page sizeofBlock) = ⟨page, n⟩ := by
  have hin := hplaced.inside
  simp only [Span.stop, sizeofBlock] at hin hn
  have hlow : Placed ⟨page, n⟩ :=
    ⟨hn, hplaced.pos, by simp only [Span.stop]; omega, hplaced.startAligned, hn4⟩
  have hhigh : Placed ⟨page + n, pageSize - n⟩ :=
    ⟨by simp only [sizeofBlock]; omega, by simp only; omega, by simp only [Span.stop]; omega,
      Nat.dvd_add hplaced.startAligned hn4, Nat.dvd_sub hplaced.sizeAligned hn4⟩
  have hmlow : (splitPage s.heap page pageSize n).mem page = n := by
    simp only [splitPage, Heap.setNext, Heap.setSize, sizeofPointer]
    rw [update_of_ne (by omega), update_of_ne (by omega), update_self]
  have hmhigh : (splitPage s.heap page pageSize n).mem (page + n) = pageSize - n := by
    simp only [splitPage, Heap.setNext, Heap.setSize, sizeofPointer]
    rw [update_of_ne (by omega), update_self]
  have hnlow := liveSpan_start hlow hmlow
  have hnhigh := liveSpan_start hhigh hmhigh
  refine ⟨?_, hnhigh, hnlow⟩
  refine page_added inv hpage hplaced hap rfl ?_ ?_ ?_ ?_
  · intro w hw
    simp only [splitPage, freshPage, Heap.setNext, Heap.setSize, pageAlloc, if_neg hpage,
      sizeofPointer]
    rw [update_of_ne (by omega), update_of_ne (by omega),
      update_of_ne (by omega), update_of_ne (by omega),
      update_of_ne (by omega)]
  · intro p hp
    rcases mem_pair.mp hp with rfl | rfl
    · rw [hnhigh]
      exact ⟨hhigh, by simp [splitPage, Heap.next, Heap.setNext]⟩
    · rw [hnlow]
      refine ⟨hlow, ?_⟩
      simp only [splitPage, freshPage, Heap.next, Heap.setNext, Heap.setSize, sizeofPointer]
      rw [update_of_ne (by omega), update_of_ne (by omega), update_of_ne (by omega), update_self]
  · intro x
    have hs := covers_split page n (pageSize - n) x
    rw [Nat.add_sub_cancel' (by omega)] at hs
    simp only [map_cons, map_nil, cover_cons, cover_nil, hnlow, hnhigh, hs]
    omega
  · simp only [map_cons, map_nil, total_cons, total_nil, hnlow, hnhigh]
    omega

lemma kmallocPages_spec (hn : sizeofBlock ≤ n) (hn4 : sizeofPointer ∣ n) (hle : n ≤ pageSize)
    (hlt : pageSize < 2 ^ 32) (hap : ∀ q ∈ s.heap.pages, (⟨page, pageSize⟩ : Span).Apart q) :
    ∃ h' free', kmallocPages s.heap n pageSize page = .ok (add32 page sizeofBlock, h') ∧
      Invariant ⟨h', add32 page sizeofBlock :: s.live⟩ free' := by
  have hin := hplaced.inside
  simp only [Span.stop] at hin
  have hrest : sub32 pageSize n = pageSize - n := sub32_of_le hle hlt
  by_cases hroom : sizeofBlock + 8 < pageSize - n
  · have hlink : add32 page n = page + n := by
      apply add32_of_lt
      simp only [sizeofBlock] at hroom
      omega
    obtain ⟨hinv, hhigh, hlow⟩ := inv.split_page hpage hplaced hn hn4
      (by simp only [sizeofBlock] at hroom; omega) hap
    obtain ⟨h', hok, hinv'⟩ := hinv.kmfree_spec (mem_cons_self ..) (by
      intro _ c hc htouch
      have hdis := hinv.live_apart_free (p := add32 page sizeofBlock) (by simp) c hc
      have hcs := (hinv.placedFree c hc).header
      simp only [hlow, hhigh] at hdis htouch
      simp only [Span.Apart, Span.stop, sizeofBlock] at hdis htouch hcs hn
      omega)
    refine ⟨h', release ⟨page + n, pageSize - n⟩ free, ?_, ?_⟩
    · simp only [splitPage, freshPage] at hok
      simp only [kmallocPages, if_neg hpage, hrest, if_pos hroom, hlink, hok]
    · simpa [hhigh] using hinv'
  · refine ⟨freshPage s.heap page pageSize, free, ?_, inv.whole_page hpage hplaced hap⟩
    rw [kmallocPages, if_neg hpage, hrest, if_neg hroom]
    rfl
end

lemma kmalloc_spec (inv : Invariant s free) {size page : ℕ} (hbits : 8 ≤ pageBits)
    (hsize : size + 16 + 2 ^ pageBits ≤ 2 ^ 32)
    (hpage : PageContract pageBits s.heap page (pageSizeOf pageBits size)) :
    (page = 0 ∧ kmalloc pageBits s.heap size page = .error .outOfMemory) ∨
      ∃ ptr h' free', kmalloc pageBits s.heap size page = .ok (ptr, h') ∧
        Invariant ⟨h', ptr :: s.live⟩ free' := by
  obtain ⟨hn, hn4, hfits, hlarge⟩ := blockSizeOf_spec hbits hsize
  obtain ⟨hp1, hp2, hp3⟩ := alignUp_spec hfits
  have hloop := kmallocLoop_spec inv.walk inv.length_lt hn hn4 hlarge
  rw [← inv.chain.first] at hloop
  have h4 : sizeofPointer ∣ 2 ^ pageBits := pow_dvd_pow 2 (by omega : 2 ≤ pageBits)
  cases htake : takeFit (blockSizeOf size) 16 free with
  | some p =>
    obtain ⟨b, rest⟩ := p
    rw [htake] at hloop
    obtain ⟨h', hok, k⟩ := hloop
    refine Or.inr ⟨add32 b.start sizeofBlock, h', rest, ?_, inv.take hn hn4 htake k⟩
    simp only [lastStart, List.getLast?_nil, map_none, getD_none] at hok
    simp only [kmalloc, hok]
  | none =>
    rw [htake] at hloop
    simp only [lastStart, List.getLast?_nil, map_none, getD_none] at hloop
    have hcall : kmalloc pageBits s.heap size page =
        kmallocPages s.heap (blockSizeOf size) (pageSizeOf pageBits size) page := by
      simp only [kmalloc, hloop]
    rw [hcall]
    by_cases h0 : page = 0
    · refine Or.inl ⟨h0, ?_⟩
      rw [kmallocPages, if_pos h0]
    · rcases hpage with hnull | ⟨halign, hend, hap⟩
      · exact absurd hnull h0
      have hplaced : Placed ⟨page, pageSizeOf pageBits size⟩ :=
        ⟨hn.trans hp1, Nat.pos_of_ne_zero h0, hend, h4.trans halign, h4.trans hp3⟩
      obtain ⟨h', free', hok, hinv⟩ := inv.kmallocPages_spec h0 hplaced hn hn4 hp1
        (by rw [pageSizeOf]; omega) hap
      exact Or.inr ⟨_, h', free', hok, hinv⟩

lemma store (inv : Invariant s free) {ptr addr value : ℕ} (hlive : ptr ∈ s.live)
    (hlow : (liveSpan s.heap ptr).start + sizeofBlock ≤ addr)
    (hhigh : addr + sizeofPointer ≤ (liveSpan s.heap ptr).stop) :
    Invariant ⟨{ s.heap with mem := update s.heap.mem addr value }, s.live⟩ free := by
  have hin : (liveSpan s.heap ptr).start ≤ addr ∧ addr < (liveSpan s.heap ptr).stop := by
    simp only [sizeofBlock, sizeofPointer] at hlow hhigh
    omega
  have hout : ∀ p ∈ s.live, Misses addr (liveSpan s.heap p) := by
    intro p hp
    by_cases hstart : (liveSpan s.heap p).start = (liveSpan s.heap ptr).start
    · simp only [Misses, hstart, sizeofBlock, sizeofPointer] at hlow ⊢
      omega
    · have hpair := pairwise_apart (fun b hb => by
          have := (inv.placed_liveSpans b hb).header
          simp only [sizeofBlock] at this
          omega) inv.live_once
      have hne : liveSpan s.heap p ≠ liveSpan s.heap ptr := fun h => hstart (by rw [h])
      have hap := hpair.forall (List.mem_map_of_mem hp) (List.mem_map_of_mem hlive) hne
      have hps := (inv.placedLive p hp).header
      simp only [Misses, Span.Apart, Span.stop, sizeofBlock, sizeofPointer] at hap hps hin ⊢
      omega
  have hsame : ∀ p ∈ s.live, liveSpan { s.heap with mem := update s.heap.mem addr value } p =
        liveSpan s.heap p := by
    intro p hp
    apply liveSpan_congr
    exact update_of_ne (Ne.symm (hout p hp).1) _ _
  have hspans := map_live_frame hsame
  refine ⟨?_, inv.separated, inv.placedFree, ?_, ?_, inv.pagesInside, inv.pagesOnce, ?_,
    inv.bytesFree, ?_⟩
  · refine chained_update inv.chain fun c hc => ?_
    have hap := inv.live_apart_free hlive c hc
    have hcs := (inv.placedFree c hc).header
    simp only [Misses, Span.Apart, Span.stop, sizeofBlock, sizeofPointer] at hap hcs hin ⊢
    omega
  · intro p hp
    simp only [hsame p hp]
    exact inv.placedLive p hp
  · intro p hp
    simp only [hsame p hp]
    exact (update_of_ne (Ne.symm (hout p hp).2) _ _).trans (inv.unlinked p hp)
  · intro x
    simp only [System.liveSpans, hspans]
    exact inv.tiled x
  · simp only [System.liveSpans, hspans]
    exact inv.bytesAllocated
end Invariant

lemma freeListFrom_eq {m : ℕ → ℕ} {p fuel : ℕ} {l : List Span} (h : Chained m p l 0)
    (hpos : ∀ b ∈ l, 0 < b.start) (hfuel : l.length < fuel) : freeListFrom m fuel p = l := by
  induction l generalizing p fuel with
  | nil =>
    obtain _ | fuel := fuel
    · omega
    have hp : p = 0 := h
    simp [freeListFrom, hp]
  | cons b l ih =>
    obtain _ | fuel := fuel
    · omega
    obtain ⟨hp, hs, hrest⟩ := h
    have hb := hpos b (by simp)
    have hne : p ≠ 0 := by omega
    rw [freeListFrom, if_neg hne, hp, hs,
      ih hrest (fun c hc => hpos c (by simp [hc])) (by simp only [length_cons] at hfuel; omega)]

lemma Invariant.freeList_eq (inv : Invariant s free) : s.heap.freeList = free :=
  freeListFrom_eq inv.chain (fun b hb => (inv.placedFree b hb).pos) inv.length_lt

/-- A release does not join a free block with a block that ends at the top of the
address space. -/
def NoMergeAtTop (s : System) : Event → Prop
  | .free ptr => (liveSpan s.heap ptr).stop = 2 ^ 32 →
      ∀ c ∈ s.heap.freeList, c.stop ≠ (liveSpan s.heap ptr).start
  | _ => True

structure Sound (s : System) : Prop where
  linked : Chained s.heap.mem s.heap.freeBlocks s.heap.freeList 0
  ascending : s.heap.freeList.Pairwise fun a b => a.start < b.start
  disjoint : s.heap.freeList.Pairwise Span.Apart
  coalesced : s.heap.freeList.IsChain fun a b => a.stop ≠ b.start
  liveDisjoint : s.liveSpans.Pairwise Span.Apart
  liveApart : ∀ b ∈ s.liveSpans, ∀ c ∈ s.heap.freeList, b.Apart c
  tiled : ∀ r ∈ s.heap.pages, ∀ x, r.start ≤ x → x < r.stop →
    cover (s.heap.freeList ++ s.liveSpans) x = 1
  bytesFree : s.heap.bytesFree = total s.heap.freeList
  bytesAllocated : s.heap.bytesAllocated = total s.liveSpans

lemma Invariant.sound (inv : Invariant s free) : Sound s := by
  have hsize : ∀ b : Span, Placed b → 0 < b.size := fun b hb => by
    have := hb.header
    simp only [sizeofBlock] at this
    omega
  have hlist := inv.freeList_eq
  constructor
  · rw [hlist]
    exact inv.chain
  · rw [hlist]
    refine inv.separated.imp ?_
    intro a b hab
    simp only [Span.stop] at hab
    omega
  · rw [hlist]
    exact inv.separated.imp fun hab => Or.inl hab.le
  · rw [hlist]
    exact (inv.separated.imp fun hab => hab.ne).isChain
  · exact pairwise_apart (fun b hb => hsize b (inv.placed_liveSpans b hb)) inv.live_once
  · rw [hlist]
    intro b hb
    obtain ⟨p, hp, rfl⟩ := List.mem_map.mp hb
    exact inv.live_apart_free hp
  · intro r hr x h1 h2
    have h3 : 0 < cover s.heap.pages x := cover_pos_iff.mpr ⟨r, hr, h1, h2⟩
    have h4 := inv.pagesOnce x
    have h5 := inv.tiled x
    rw [hlist, cover_append]
    omega
  · rw [hlist]
    exact inv.bytesFree
  · exact inv.bytesAllocated

lemma Invariant.step {t : System} {e : Event} (hbits : 8 ≤ pageBits) (inv : Invariant s free)
    (h : Guarded NoMergeAtTop (Step pageBits) s e t) : ∃ free', Invariant t free' := by
  obtain ⟨hguard, hpermit, hdone⟩ := h
  cases e with
  | malloc size page =>
    rcases inv.kmalloc_spec hbits hpermit.1 hpermit.2 with ⟨_, hout⟩ | ⟨ptr, h', free', hok, hinv⟩
    · simp [perform, hout, Except.map] at hdone
    · simp only [perform, hok, Except.map, Except.ok.injEq] at hdone
      subst hdone
      exact ⟨free', hinv⟩
  | free ptr =>
    obtain ⟨h', hok, hinv⟩ := inv.kmfree_spec hpermit (by
      have := hguard
      simp only [NoMergeAtTop, inv.freeList_eq] at this
      exact this)
    simp only [perform, hok, Except.map, Except.ok.injEq] at hdone
    subst hdone
    exact ⟨_, hinv⟩
  | store addr value =>
    obtain ⟨ptr, hlive, hlow, hhigh⟩ := hpermit
    simp only [perform, Except.ok.injEq] at hdone
    subst hdone
    exact ⟨free, inv.store hlive hlow hhigh⟩

instance (s : System) (e : Event) : Decidable (NoMergeAtTop s e) :=
  match e with
  | .malloc .. | .free _ | .store .. => by dsimp only [NoMergeAtTop]; infer_instance

def advance (pageBits : ℕ) (guard : System → Event → Bool) (s : System) (e : Event) :
    Option System :=
  if guard s e ∧ Permitted pageBits s e then (perform pageBits s e).toOption else none

lemma advance_step {guard : System → Event → Bool} {t : System} {e : Event}
    (h : advance pageBits guard s e = some t) : guard s e = true ∧ Step pageBits s e t := by
  unfold advance at h
  split_ifs at h with hc
  refine ⟨hc.1, hc.2, ?_⟩
  cases hp : perform pageBits s e with
  | error stop => simp [hp, Except.toOption] at h
  | ok u =>
    simp only [hp, Except.toOption, some.injEq] at h
    rw [h]

/-- In every history without a merge at the top of the address space the heap is sound, and a
request fails only for want of pages. -/
theorem kernel_heap_sound {pageBits : ℕ} (hbits : 8 ≤ pageBits) {mem : ℕ → ℕ} {es : List Event}
    {s : System} (hrun : Run (Guarded NoMergeAtTop (Step pageBits)) ⟨initKernelHeap mem, []⟩ es s) :
    Sound s ∧
      (∀ ptr ∈ s.live, NoMergeAtTop s (.free ptr) → ∃ h, kmfree s.heap ptr = .ok h) ∧
      ∀ size page, Permitted pageBits s (.malloc size page) →
        (page = 0 ∧ kmalloc pageBits s.heap size page = .error .outOfMemory) ∨
          ∃ r, kmalloc pageBits s.heap size page = .ok r := by
  obtain ⟨free, inv⟩ := hrun.preserves (I := fun s => ∃ free, Invariant s free)
    ⟨[], invariant_init mem⟩ (fun _ _ _ ⟨_, inv⟩ h => inv.step hbits h)
  refine ⟨inv.sound, ?_, ?_⟩
  · intro ptr hlive hguard
    simp only [NoMergeAtTop, inv.freeList_eq] at hguard
    obtain ⟨h, hok, _⟩ := inv.kmfree_spec hlive hguard
    exact ⟨h, hok⟩
  · intro size page hpermit
    rcases inv.kmalloc_spec hbits hpermit.1 hpermit.2 with hout | ⟨ptr, h, _, hok, _⟩
    · exact Or.inl hout
    · exact Or.inr ⟨_, hok⟩

def topHistory : List Event :=
  [.malloc 100 0xFFFFF000, .malloc 3980 0, .free 0xFFFFF008, .free 0xFFFFF074]

def vectorMemory : ℕ → ℕ := fun addr => if addr = 0 then 8192 else 0

/-- A block at the end of memory is joined with address 0. -/
theorem kmfree_joins_null : ∃ s, Run (Step 12) ⟨initKernelHeap vectorMemory, []⟩ topHistory s ∧
    s.heap.bytesFree ≠ total s.heap.freeList := by
  exact exists_run (f := advance 12 fun _ _ => true) (fun s e t h => (advance_step h).2)
    (by decide +kernel)

theorem kernel_heap_sound_lower_page : ∃ s,
    Run (Guarded NoMergeAtTop (Step 12)) ⟨initKernelHeap vectorMemory, []⟩
      [.malloc 100 0x10000, .malloc 3980 0, .free 0x10008, .free 0x10074] s ∧ Sound s := by
  refine (exists_run (p := fun _ => True) (guarded_of_advance (f := advance 12)
    fun _ _ _ _ => advance_step) (by decide +kernel)).imp fun s ⟨hrun, _⟩ => ⟨hrun, ?_⟩
  exact (kernel_heap_sound (by norm_num) hrun).1

end Gloworm.Kmalloc
