import Gloworm.BitmapWords
import Gloworm.TransitionRuns
import Gloworm.UpdatedSums

/-! A block of pages with a bitmap of the pages in use and a reference count for each page. The bitmap,
the counts and the number of free pages always tell how many references to each page are held. -/
namespace Gloworm.Page
open Function Bitmap Transition UpdatedSums

structure PageBlock where
  totalPages : ℕ
  freePages : ℤ
  base : ℕ
  bitmap : ℕ → BitVec 16
  refcount : ℕ → ℕ

def extend (block : PageBlock) (startBit contiguousPages : ℕ) : ℕ → ℕ → ℕ
  | 0, endBit => endBit
  | fuel + 1, endBit =>
    if endBit < block.totalPages ∧ endBit - startBit < contiguousPages then
      if bitAt block.bitmap endBit then endBit
      else extend block startBit contiguousPages fuel (endBit + 1)
    else endBit

def search (block : PageBlock) (contiguousPages : ℕ) : ℕ → ℕ → Option (ℕ × ℕ)
  | 0, _ => none
  | fuel + 1, startBit =>
    if startBit < block.totalPages then
      if block.bitmap (startBit / 16) = 0xFFFF#16 then
        search block contiguousPages fuel (startBit + 16)
      else if bitAt block.bitmap startBit then search block contiguousPages fuel (startBit + 1)
      else
        let endBit := extend block startBit contiguousPages contiguousPages (startBit + 1)
        if block.totalPages < endBit ∨ endBit - startBit < contiguousPages then
          search block contiguousPages fuel (startBit + 1)
        else some (startBit, endBit)
    else none

def takePage (block : PageBlock) (bit : ℕ) : PageBlock :=
  { block with
    refcount := update block.refcount bit 1
    bitmap := setBit block.bitmap bit }

def pageBlockAlloc (block : PageBlock) (pageBits size : ℕ) : Option ℕ × PageBlock :=
  let contiguousPages := size / 2 ^ pageBits
  match search block contiguousPages (block.totalPages + 1) 0 with
  | none => (none, block)
  | some (startBit, endBit) =>
    let taken := (List.range' startBit (endBit - startBit)).foldl takePage block
    (some (block.base + startBit * 2 ^ pageBits),
      { taken with freePages := taken.freePages - contiguousPages })

def dropPage (block : PageBlock) (page : ℕ) : PageBlock :=
  let refcount := (block.refcount page + (2 ^ 16 - 1)) % 2 ^ 16
  let dropped := { block with refcount := update block.refcount page refcount }
  if refcount ≠ 0 then dropped
  else { dropped with bitmap := clearBit block.bitmap page, freePages := block.freePages + 1 }

def pageBlockFree (block : PageBlock) (pageBits ptr size : ℕ) : PageBlock :=
  (List.range' ((ptr - block.base) / 2 ^ pageBits) (size / 2 ^ pageBits)).foldl dropPage block

def sharePage (block : PageBlock) (page : ℕ) : PageBlock :=
  { block with
    refcount := update block.refcount page ((block.refcount page + 1) % 2 ^ 16) }

def pageBlockMakeRef (block : PageBlock) (pageBits ptr size : ℕ) : PageBlock :=
  (List.range' ((ptr - block.base) / 2 ^ pageBits) (size / 2 ^ pageBits)).foldl sharePage block

inductive Call
  | alloc (n : ℕ)
  | makeRef (page n : ℕ)
  | free (page n : ℕ)

structure Held where
  block : PageBlock
  refs : ℕ → ℕ

def addRefs (refs : ℕ → ℕ) (page n : ℕ) : ℕ → ℕ := fun p =>
  if page ≤ p ∧ p < page + n then refs p + 1 else refs p

def dropRefs (refs : ℕ → ℕ) (page n : ℕ) : ℕ → ℕ := fun p =>
  if page ≤ p ∧ p < page + n then refs p - 1 else refs p

def perform (pageBits : ℕ) (s : Held) : Call → Held
  | .alloc n => match pageBlockAlloc s.block pageBits (n * 2 ^ pageBits) with
    | (none, block) => ⟨block, s.refs⟩
    | (some ptr, block) => ⟨block, addRefs s.refs ((ptr - block.base) / 2 ^ pageBits) n⟩
  | .makeRef page n =>
    ⟨pageBlockMakeRef s.block pageBits (s.block.base + page * 2 ^ pageBits) (n * 2 ^ pageBits),
      addRefs s.refs page n⟩
  | .free page n =>
    ⟨pageBlockFree s.block pageBits (s.block.base + page * 2 ^ pageBits) (n * 2 ^ pageBits),
      dropRefs s.refs page n⟩

/-- At least one page is allocated, and references are held, fewer than 65536 to each page. -/
def Permitted (s : Held) : Call → Prop
  | .alloc n => 1 ≤ n
  | .makeRef page n => ∀ p, page ≤ p → p < page + n → 0 < s.refs p ∧ s.refs p + 1 < 2 ^ 16
  | .free page n => ∀ p, page ≤ p → p < page + n → 0 < s.refs p

def Step (pageBits : ℕ) (s : Held) (call : Call) (t : Held) : Prop :=
  Permitted s call ∧ perform pageBits s call = t

variable {block : PageBlock} {n fuel startBit p pageBits : ℕ}

def clearBits (block : PageBlock) : ℤ :=
  ∑ p ∈ Finset.range block.totalPages, if bitAt block.bitmap p = false then 1 else 0

/-- Bits and counts tell how many references are held. -/
structure Tells (start block : PageBlock) (refs : ℕ → ℕ) : Prop where
  totalPages : block.totalPages = start.totalPages
  base : block.base = start.base
  bit : ∀ p < block.totalPages, bitAt block.bitmap p = true ↔ 0 < refs p
  refcount : ∀ p < block.totalPages, block.refcount p = refs p
  word : ∀ p, refs p < 2 ^ 16
  inside : ∀ p, 0 < refs p → p < block.totalPages

lemma clearBits_setBit (hp : p < block.totalPages) (hclear : bitAt block.bitmap p = false) :
    (∑ q ∈ Finset.range block.totalPages,
      if bitAt (setBit block.bitmap p) q = false then (1 : ℤ) else 0) = clearBits block - 1 := by
  have h := count_update (1 : ℤ) (· = false) (Finset.mem_range.mpr hp) (bitAt block.bitmap) true
  rw [← bitAt_setBit_eq (by norm_num), hclear, if_pos rfl, if_neg (by simp)] at h
  rw [clearBits]
  omega

lemma clearBits_clearBit (hp : p < block.totalPages) (hset : bitAt block.bitmap p = true) :
    (∑ q ∈ Finset.range block.totalPages,
      if bitAt (clearBit block.bitmap p) q = false then (1 : ℤ) else 0) = clearBits block + 1 := by
  have h := count_update (1 : ℤ) (· = false) (Finset.mem_range.mpr hp) (bitAt block.bitmap) false
  rw [← bitAt_clearBit_eq (by norm_num), hset, if_pos rfl, if_neg (by simp)] at h
  rw [clearBits]
  omega

section Pages
variable {start : PageBlock} {refs : ℕ → ℕ}

section
variable (h : Tells start block refs)
include h

lemma Tells.write {block' : PageBlock} {b : Bool} {c : ℕ}
    (htotal : block'.totalPages = block.totalPages) (hbase : block'.base = block.base)
    (hbits : bitAt block'.bitmap = update (bitAt block.bitmap) p b)
    (href : block'.refcount = update block.refcount p c) (hb : b = true ↔ 0 < c) (hc : c < 2 ^ 16)
    (hp : p < block.totalPages) : Tells start block' (update refs p c) := by
  refine ⟨htotal.trans h.totalPages, hbase.trans h.base, fun q hq => ?_, fun q hq => ?_,
    fun q => ?_, fun q hq => ?_⟩
  · rw [hbits]
    by_cases hqp : q = p
    · rw [hqp, update_self, update_self, hb]
    · rw [update_of_ne hqp, update_of_ne hqp]
      exact h.bit q (htotal ▸ hq)
  · rw [href]
    by_cases hqp : q = p
    · rw [hqp, update_self, update_self]
    · rw [update_of_ne hqp, update_of_ne hqp]
      exact h.refcount q (htotal ▸ hq)
  · by_cases hqp : q = p
    · rwa [hqp, update_self]
    · rw [update_of_ne hqp]
      exact h.word q
  · rw [htotal]
    by_cases hqp : q = p
    · rwa [hqp]
    · rw [update_of_ne hqp] at hq
      exact h.inside q hq

lemma Tells.held (hp : 0 < refs p) :
    block.refcount p = refs p ∧ bitAt block.bitmap p = true ∧ p < block.totalPages :=
  ⟨h.refcount p (h.inside p hp), (h.bit p (h.inside p hp)).mpr hp, h.inside p hp⟩

lemma Tells.takePage (hp : p < block.totalPages) (hzero : refs p = 0) :
    Tells start (Page.takePage block p) (update refs p (refs p + 1)) ∧
      clearBits (Page.takePage block p) - (Page.takePage block p).freePages =
        clearBits block - block.freePages - 1 := by
  have hclear : bitAt block.bitmap p = false := by
    have := h.bit p hp
    simpa [hzero] using this
  have hbits : clearBits (Page.takePage block p) = clearBits block - 1 := clearBits_setBit hp hclear
  rw [hzero, hbits]
  exact ⟨h.write rfl rfl (bitAt_setBit_eq (by norm_num) _ _) rfl (by simp) (by norm_num) hp,
    sub_right_comm _ _ _⟩

lemma Tells.sharePage (hp : 0 < refs p) (hlt : refs p + 1 < 2 ^ 16) :
    Tells start (Page.sharePage block p) (update refs p (refs p + 1)) := by
  obtain ⟨href, hset, hin⟩ := h.held hp
  have hbits : bitAt block.bitmap = update (bitAt block.bitmap) p true := by
    rw [← hset, update_eq_self]
  refine h.write rfl rfl hbits ?_ (by simp) hlt hin
  rw [Page.sharePage, href, Nat.mod_eq_of_lt hlt]

lemma Tells.dropPage (hp : 0 < refs p) :
    Tells start (Page.dropPage block p) (update refs p (refs p - 1)) ∧
      clearBits (Page.dropPage block p) - (Page.dropPage block p).freePages =
        clearBits block - block.freePages := by
  obtain ⟨href, hset, hin⟩ := h.held hp
  have hword := h.word p
  have hcount : (block.refcount p + (2 ^ 16 - 1)) % 2 ^ 16 = refs p - 1 := by
    rw [href]
    omega
  simp only [Page.dropPage, hcount]
  by_cases hlast : refs p - 1 = 0
  · rw [if_neg (by simpa using hlast)]
    refine ⟨h.write rfl rfl (bitAt_clearBit_eq (by norm_num) _ _) rfl (by simp [hlast]) (by omega)
      hin, ?_⟩
    have hbits := clearBits_clearBit hin hset
    simp only [clearBits] at hbits ⊢
    omega
  · rw [if_pos (by simpa using hlast)]
    have hbits : bitAt block.bitmap = update (bitAt block.bitmap) p true := by
      rw [← hset, update_eq_self]
    refine ⟨h.write rfl rfl hbits rfl (by simp only [true_iff]; omega) (by omega) hin, ?_⟩
    simp [clearBits]
end
end Pages
section Ranges
variable {start : PageBlock} {refs : ℕ → ℕ} {first : ℕ}

lemma foldl_range'_succ {α : Type*} (f : α → ℕ → α) (a : α) :
    (List.range' first (n + 1)).foldl f a = f ((List.range' first n).foldl f a) (first + n) := by
  rw [List.range'_concat, List.foldl_append, Nat.one_mul]
  rfl

section
variable (h : Tells start block refs)
include h

/-- Pages that are changed one after the other. -/
lemma Tells.run {f : PageBlock → ℕ → PageBlock} {g : ℕ → ℕ} {P : ℕ → ℕ → Prop} {c : ℤ}
    (hop : ∀ block refs p, Tells start block refs → P p (refs p) →
      Tells start (f block p) (update refs p (g (refs p))) ∧
        clearBits (f block p) - (f block p).freePages = clearBits block - block.freePages - c)
    (hp : ∀ p, first ≤ p → p < first + n → P p (refs p)) :
    Tells start ((List.range' first n).foldl f block)
        (fun p => if first ≤ p ∧ p < first + n then g (refs p) else refs p) ∧
      clearBits ((List.range' first n).foldl f block) -
          ((List.range' first n).foldl f block).freePages =
        clearBits block - block.freePages - n * c := by
  induction n with
  | zero =>
    have hnone : (fun p => if first ≤ p ∧ p < first + 0 then g (refs p) else refs p) = refs :=
      funext fun p => if_neg (by omega)
    rw [hnone]
    exact ⟨h, by simp⟩
  | succ n ih =>
    obtain ⟨ht, hbits⟩ := ih fun p hlo hhi => hp p hlo (by omega)
    have hend : ¬ (first ≤ first + n ∧ first + n < first + n) := by omega
    have hstep := hop _ _ (first + n) ht (by
      rw [if_neg hend]
      exact hp _ (by omega) (by omega))
    have hrefs : update (fun p => if first ≤ p ∧ p < first + n then g (refs p) else refs p)
        (first + n) (g (refs (first + n))) =
        fun p => if first ≤ p ∧ p < first + (n + 1) then g (refs p) else refs p := by
      funext p
      by_cases hpn : p = first + n
      · rw [hpn, update_self, if_pos (by omega)]
      · rw [update_of_ne hpn]
        exact if_congr (by omega) rfl rfl
    rw [if_neg hend, hrefs, hbits] at hstep
    rw [foldl_range'_succ]
    refine ⟨hstep.1, hstep.2.trans ?_⟩
    push_cast
    ring

end

end Ranges

end Gloworm.Page
