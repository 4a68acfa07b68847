import Gloworm.BufcacheFaultModel

/-! What every call keeps of the list of buffers and of their contents. A use of a buffer is marked
by the buffer and by whether its holder has written to it. -/
open List Option

namespace Gloworm.Bufcache
open Function Queue LinkedSegments
variable {β : Type}

structure SameButFlags (c c' : Cache β) : Prop where
  dev : c'.dev = c.dev
  flags : c'.flags = c.flags
  blockSize : c'.blockSize = c.blockSize
  numEntries : c'.numEntries = c.numEntries
  blocks : c'.blocks = c.blocks
  num : ∀ b, (c'.bufs b).num = (c.bufs b).num
  block : ∀ b, (c'.bufs b).block = (c.bufs b).block
  refcount : ∀ b, (c'.bufs b).refcount = (c.bufs b).refcount

lemma SameButFlags.refl (c : Cache β) : SameButFlags c c :=
  ⟨rfl, rfl, rfl, rfl, rfl, fun _ => rfl, fun _ => rfl, fun _ => rfl⟩

variable {c : Cache β}

lemma SameButFlags.trans {c' c'' : Cache β} (a : SameButFlags c c')
    (b : SameButFlags c' c'') : SameButFlags c c'' :=
  ⟨b.dev.trans a.dev, b.flags.trans a.flags, b.blockSize.trans a.blockSize,
    b.numEntries.trans a.numEntries, b.blocks.trans a.blocks,
    fun x => (b.num x).trans (a.num x), fun x => (b.block x).trans (a.block x),
    fun x => (b.refcount x).trans (a.refcount x)⟩

@[simp] lemma bufs_modify (c : Cache β) (b a : ℕ) (f : Buf β → Buf β) :
    (c.modify b f).bufs a = if a = b then f (c.bufs b) else c.bufs a := by
  by_cases h : a = b
  · simp [Cache.modify, h]
  · simp [Cache.modify, h]

lemma clear_dirty (flags : ℕ) : flags &&& (0xFFFF ^^^ bfDirty) &&& bfDirty = 0 := by
  have hmask : (0xFFFF ^^^ bfDirty) &&& bfDirty = 0 := by decide
  rw [Nat.and_assoc, hmask, Nat.and_zero]

lemma set_dirty (flags : ℕ) : (flags ||| bfDirty) &&& bfDirty ≠ 0 := by
  have h : (flags ||| bfDirty) &&& bfDirty = bfDirty := by
    apply Nat.eq_of_testBit_eq
    intro i
    simp only [Nat.testBit_and, Nat.testBit_or]
    cases Nat.testBit bfDirty i <;> simp
  rw [h]
  decide

variable {b : ℕ}

lemma writeEntry_spec (hflags : c.flags = 0) (disk : ℕ → β)
    (hd : c.dirty b) : SameButFlags c (writeEntry c disk b).1 ∧ ¬ (writeEntry c disk b).1.dirty b ∧
    (∀ a, a ≠ b → (writeEntry c disk b).1.bufs a = c.bufs a) ∧
    (writeEntry c disk b).2 = update disk (c.offset (c.bufs b).num) (c.bufs b).block := by
  have hw : writeEntry c disk b =
      (c.modify b fun x => { x with flags := x.flags &&& (0xFFFF ^^^ bfDirty) },
        update disk (c.offset (c.bufs b).num) (c.bufs b).block) := by
    rw [writeEntry, if_neg (not_not.mpr hd), hflags, if_neg (by simp)]
  rw [hw]
  refine ⟨⟨rfl, rfl, rfl, rfl, rfl, ?_, ?_, ?_⟩, ?_, ?_, rfl⟩
  iterate 3
    intro a
    by_cases ha : a = b <;> simp [ha]
  · simp only [Cache.dirty, bufs_modify, if_true, not_not]
    exact clear_dirty _
  · intro a ha
    simp [ha]

lemma holds_touch {xs : List ℕ} (h : Holds c.blocks fun _ => xs)
    (hb : b ∈ xs) : Holds (c.touch b).blocks fun _ => b :: xs.erase b := by
  have hrem := h.remove (k := ()) hb
  rw [update_unit] at hrem
  have hins := hrem.insert (k := ()) fun _ => (h.nodup ()).not_mem_erase
  rwa [update_unit] at hins

lemma holds_createEntry {xs : List ℕ} (h : Holds c.blocks fun _ => xs)
    (hb : b ∉ xs) (zero : β) : Holds (createEntry c b zero).blocks fun _ => b :: xs := by
  obtain ⟨hn, hp⟩ := h.free b fun _ => hb
  have hsame : ({ c.blocks with
      next := update c.blocks.next b none
      prev := update c.blocks.prev b none } : Pool Unit ℕ) = c.blocks := by
    rw [← hn, update_eq_self, hn, ← hp, update_eq_self]
  have hq : (createEntry c b zero).blocks = queueInsert c.blocks () b := by
    rw [← hsame]
    rfl
  have hins := h.insert (k := ()) fun _ => hb
  rwa [hq, ← update_unit xs]

def victim (c : Cache β) (num : ℕ) : Option ℕ :=
  if findBlock c num = some none ∧ bufcacheMax ≤ c.numEntries then (lastUnreferenced c).join
  else none

end Gloworm.Bufcache
namespace Gloworm.BufcacheFault
open Function Queue LinkedSegments Bufcache
variable {β : Type} {c c' : Cache β} {marks rest : List (ℕ × Bool)} {xs ys unread : List ℕ}
  {disk left : ℕ → β} {a b num : ℕ} {m : ℕ × Bool}

structure Entries (c : Cache β) (marks : List (ℕ × Bool)) (xs : List ℕ) : Prop where
  holds : Holds c.blocks fun _ => xs
  flags : c.flags = 0
  count : c.numEntries = xs.length
  distinct : ∀ a ∈ xs, ∀ b ∈ xs, (c.bufs a).num = (c.bufs b).num → a = b
  refs : ∀ a ∈ xs, (c.bufs a).refcount = (marks.countP fun m => m.1 = a : ℕ)
  held : ∀ m ∈ marks, m.1 ∈ xs

/-- Buffers hold what was left in their blocks unless their last read failed, and so does the device
unless a buffer is dirty or a holder has written to it. -/
structure Contents (c : Cache β) (disk left : ℕ → β) (marks : List (ℕ × Bool))
    (unread xs : List ℕ) : Prop where
  blockSize : 0 < c.blockSize
  inside : ∀ a ∈ xs, (c.bufs a).num * c.blockSize < 2 ^ 32
  block : ∀ a ∈ xs, a ∉ unread → (c.bufs a).block = left (c.bufs a).num
  clean : ∀ a ∈ xs, ¬ c.dirty a → (a, true) ∉ marks →
    disk ((c.bufs a).num * c.blockSize) = left (c.bufs a).num
  absent : ∀ num, num * c.blockSize < 2 ^ 32 → (∀ a ∈ xs, (c.bufs a).num ≠ num) →
    disk (num * c.blockSize) = left num
  idle : ∀ a ∈ unread, a ∈ xs ∧ ¬ 0 < (c.bufs a).refcount ∧ ¬ c.dirty a

lemma mem_touched (hb : b ∈ xs) : a ∈ b :: xs.erase b ↔ a ∈ xs := by
  rw [mem_cons]
  by_cases hab : a = b
  · simp [hab, hb]
  · simp [hab, mem_erase_of_ne]

lemma length_touched (hb : b ∈ xs) : (b :: xs.erase b).length = xs.length := by
  have hpos := length_pos_of_mem hb
  rw [length_cons, length_erase_of_mem hb]
  omega

lemma releaseBlock_modify (c : Cache β) (b : ℕ) (dirty : Bool) :
    releaseBlock c b dirty = c.modify b fun x =>
      ⟨if x.refcount - 1 < 0 then 0 else x.refcount - 1,
        if dirty then x.flags ||| bfDirty else x.flags, x.num, x.block⟩ := by
  cases dirty with
  | false => rfl
  | true => simp [releaseBlock, markBlockDirty, Cache.modify]

variable {f : Buf β → Buf β}

lemma modify_field {γ : Type} (field : Buf β → γ)
    (h : field (f (c.bufs b)) = field (c.bufs b)) (a : ℕ) :
    field ((c.modify b f).bufs a) = field (c.bufs a) := by
  rw [bufs_modify]
  split_ifs with hab
  · rw [hab, h]
  · rfl

def Answer.isDone : Answer β → Bool
  | .done => true
  | .failed _ => false

lemma writeEntry_clean (hclean : ¬ c.dirty b) (disk : ℕ → β) (answer : Answer β) :
    writeEntry c disk b answer = (c, disk) := by
  cases answer with
  | done => exact if_pos hclean
  | failed junk => exact if_pos hclean

/-- Writing an entry changes no other buffer and no other place of the device, and the entry's own
place gets its block whenever the entry is clean afterwards. -/
lemma writeEntry_effect (hflags : c.flags = 0) (disk : ℕ → β) (b : ℕ) (answer : Answer β) :
    SameButFlags c (writeEntry c disk b answer).1 ∧
    (∀ a, a ≠ b → (writeEntry c disk b answer).1.bufs a = c.bufs a) ∧
    (∀ i, i ≠ c.offset (c.bufs b).num → (writeEntry c disk b answer).2 i = disk i) ∧
    (c.dirty b → ¬ (writeEntry c disk b answer).1.dirty b →
      (writeEntry c disk b answer).2 (c.offset (c.bufs b).num) = (c.bufs b).block) ∧
    (answer.isDone = true → ¬ (writeEntry c disk b answer).1.dirty b) := by
  by_cases hdirty : c.dirty b
  · cases answer with
    | done =>
      obtain ⟨hsame, hclean, hother, hdisk⟩ := writeEntry_spec hflags disk hdirty
      refine ⟨hsame, hother, fun i hi => ?_, fun _ _ => ?_, fun _ => hclean⟩
      · change (Bufcache.writeEntry c disk b).2 i = _
        rw [hdisk, update_of_ne hi]
      · change (Bufcache.writeEntry c disk b).2 _ = _
        rw [hdisk, update_self]
    | failed junk =>
      have hwrite : writeEntry c disk b (.failed junk) =
          (c, update disk (c.offset (c.bufs b).num) junk) := by
        rw [writeEntry, if_neg (not_not.mpr hdirty), hflags, if_neg (by simp)]
      rw [hwrite]
      refine ⟨.refl c, fun _ _ => rfl, fun i hi => update_of_ne hi _ _, fun _ hclean => ?_,
        fun hdone => ?_⟩
      · exact absurd hdirty hclean
      · simp [Answer.isDone] at hdone
  · rw [writeEntry_clean hdirty]
    exact ⟨.refl c, fun _ _ => rfl, fun _ _ => rfl, fun hd => absurd hd hdirty, fun _ => hdirty⟩

namespace Entries
section
variable (h : Entries c marks xs)
include h

lemma findBlock_spec (num : ℕ) :
    findBlock c num = some (xs.find? fun b => (c.bufs b).num = num) := by
  rw [findBlock, h.holds.head (), h.count]
  exact walk_next (h.holds.linked ()) (Nat.lt_succ_self _)

lemma lastUnreferenced_spec :
    lastUnreferenced c = some (xs.reverse.find? fun b => ¬ 0 < (c.bufs b).refcount) := by
  rw [lastUnreferenced, h.holds.tail (), h.count]
  exact walk_prev (h.holds.linked ()) (Nat.lt_succ_self _)

lemma used (hm : m ∈ marks) : 0 < (c.bufs m.1).refcount := by
  rw [h.refs _ (h.held m hm)]
  exact_mod_cast countP_pos_iff.mpr ⟨m, hm, by simp⟩

lemma transfer (hmem : ∀ a, a ∈ ys ↔ a ∈ xs) (hlen : ys.length = xs.length)
    (hholds : Holds c'.blocks fun _ => ys) (hflags : c'.flags = c.flags)
    (hcount : c'.numEntries = c.numEntries) (hnum : ∀ a, (c'.bufs a).num = (c.bufs a).num)
    (hrefs : ∀ a ∈ xs, (c'.bufs a).refcount = (rest.countP fun m => m.1 = a : ℕ))
    (hheld : ∀ m ∈ rest, m.1 ∈ xs) : Entries c' rest ys := by
  refine ⟨hholds, hflags.trans h.flags, ?_, ?_, ?_, ?_⟩
  · rw [hcount, hlen, h.count]
  · intro a ha b hb
    rw [hnum, hnum]
    exact h.distinct a ((hmem a).mp ha) b ((hmem b).mp hb)
  · intro a ha
    exact hrefs a ((hmem a).mp ha)
  · intro m hm
    exact (hmem _).mpr (hheld m hm)

lemma same (hsame : SameButFlags c c') : Entries c' marks xs := by
  refine h.transfer (fun _ => Iff.rfl) rfl (hsame.blocks ▸ h.holds) hsame.flags hsame.numEntries
    hsame.num (fun a ha => ?_) h.held
  rw [hsame.refcount]
  exact h.refs a ha

lemma hit (hb : b ∈ xs) :
    Entries ((c.modify b fun x => { x with refcount := x.refcount + 1 }).touch b)
      ((b, false) :: marks) (b :: xs.erase b) := by
  refine h.transfer (fun _ => mem_touched hb) (length_touched hb) (holds_touch h.holds hb) rfl rfl
    (modify_field (f := fun x => { x with refcount := x.refcount + 1 }) Buf.num rfl) ?_ ?_
  · intro a ha
    simp only [Cache.touch, bufs_modify, countP_cons]
    by_cases hab : a = b
    · subst hab
      simp [h.refs a ha]
    · simp [hab, Ne.symm hab, h.refs a ha]
  · rintro m hm
    rcases mem_cons.mp hm with rfl | hm
    · exact hb
    · exact h.held m hm

lemma changed (hperm : marks.Perm (m :: rest)) (flag : Bool)
    (hnum : ∀ x, (f x).num = x.num) (href : ∀ x, (f x).refcount = x.refcount) :
    Entries (c.modify m.1 f) ((m.1, flag) :: rest) xs := by
  refine h.transfer (fun _ => Iff.rfl) rfl h.holds rfl rfl
    (modify_field Buf.num (hnum _)) ?_ ?_
  · intro a ha
    rw [modify_field Buf.refcount (href _), h.refs a ha, hperm.countP_eq, countP_cons, countP_cons]
  · intro k hk
    rcases mem_cons.mp hk with rfl | hk
    · exact h.held m (hperm.mem_iff.mpr mem_cons_self)
    · exact h.held k (hperm.mem_iff.mpr (mem_cons_of_mem _ hk))

lemma released (hperm : marks.Perm (m :: rest)) (dirty : Bool) :
    Entries (releaseBlock c m.1 dirty) rest xs := by
  have hm : m ∈ marks := hperm.mem_iff.mpr mem_cons_self
  have hused := h.used hm
  rw [releaseBlock_modify]
  refine h.transfer (fun _ => Iff.rfl) rfl h.holds rfl rfl (modify_field Buf.num rfl) ?_
    fun k hk => h.held k (hperm.mem_iff.mpr (mem_cons_of_mem _ hk))
  intro a ha
  have href := h.refs a ha
  rw [hperm.countP_eq, countP_cons] at href
  rw [bufs_modify]
  by_cases hab : a = m.1
  · subst hab
    simp only [decide_true, if_true] at href ⊢
    rw [if_neg (by omega)]
    omega
  · rw [if_neg hab]
    simpa [Ne.symm hab] using href

lemma marked (b : ℕ) : Entries (markBlockDirty c b) marks xs := by
  refine h.transfer (fun _ => Iff.rfl) rfl h.holds rfl rfl (modify_field Buf.num rfl)
    (fun a ha => ?_) h.held
  rw [← h.refs a ha]
  exact modify_field Buf.refcount rfl a

/-- Buffer `b` takes block `num`, and is held unless it could not be read. -/
lemma claim (hholds : Holds c'.blocks fun _ => ys) (hflags : c'.flags = 0)
    (hcount : c'.numEntries = ys.length) (hby : b ∈ ys) (hmem : ∀ a, a ≠ b → (a ∈ ys ↔ a ∈ xs))
    (hothers : ∀ a, a ≠ b → (c'.bufs a).num = (c.bufs a).num ∧
      (c'.bufs a).refcount = (c.bufs a).refcount) (hself : (c'.bufs b).num = num)
    (hunheld : ∀ m ∈ marks, m.1 ≠ b) (hmiss : ∀ a ∈ xs, (c.bufs a).num ≠ num) {found : Option ℕ}
    (hfound : found = some b ∧ (c'.bufs b).refcount = 1 ∨ found = none ∧ (c'.bufs b).refcount = 0) :
    Entries c' (found.toList.map (·, false) ++ marks) ys := by
  have hin : ∀ a ∈ ys, a ≠ b → a ∈ xs := fun a ha hne => (hmem a hne).mp ha
  have hz : marks.countP (fun m => m.1 = b) = 0 := by
    rw [countP_eq_zero]
    intro m hm
    simpa using hunheld m hm
  refine ⟨hholds, hflags, hcount, ?_, ?_, ?_⟩
  · intro a ha a' ha' he
    by_cases hab : a = b <;> by_cases hab' : a' = b
    · rw [hab, hab']
    · rw [hab, hself, (hothers a' hab').1] at he
      exact absurd he.symm (hmiss a' (hin a' ha' hab'))
    · rw [hab', hself, (hothers a hab).1] at he
      exact absurd he (hmiss a (hin a ha hab))
    · rw [(hothers a hab).1, (hothers a' hab').1] at he
      exact h.distinct a (hin a ha hab) a' (hin a' ha' hab') he
  · intro a ha
    by_cases hab : a = b
    · rw [hab]
      rcases hfound with ⟨rfl, hone⟩ | ⟨rfl, hzero⟩
      · simp [hone, hz]
      · simp [hzero, hz]
    · have hne : ¬ b = a := fun he => hab he.symm
      rw [(hothers a hab).2, h.refs a (hin a ha hab)]
      rcases hfound with ⟨rfl, -⟩ | ⟨rfl, -⟩ <;> simp [hne]
  · intro m hm
    rcases mem_append.mp hm with hm | hm
    · rcases hfound with ⟨rfl, -⟩ | ⟨rfl, -⟩
      · obtain rfl : m = (b, false) := by simpa using hm
        exact hby
      · simp at hm
    · exact (hmem _ (hunheld m hm)).mpr (h.held m hm)
end
end Entries

lemma claimEntry_spec (c : Cache β) (disk : ℕ → β) (b num : ℕ) (answer : Answer β) :
    (∀ a, a ≠ b → (claimEntry c disk b num answer).2.bufs a = c.bufs a) ∧
    (claimEntry c disk b num answer).2.blocks = c.blocks ∧
    (claimEntry c disk b num answer).2.flags = c.flags ∧
    (claimEntry c disk b num answer).2.blockSize = c.blockSize ∧
    (claimEntry c disk b num answer).2.numEntries = c.numEntries ∧
    ((claimEntry c disk b num answer).1 = some b ∧
        (claimEntry c disk b num answer).2.bufs b = ⟨1, 0, num, disk (c.offset num)⟩ ∨
      (claimEntry c disk b num answer).1 = none ∧ answer.isDone = false ∧
        ∃ junk, (claimEntry c disk b num answer).2.bufs b = ⟨0, 0, num, junk⟩) := by
  cases answer with
  | done =>
    refine ⟨fun a ha => ?_, rfl, rfl, rfl, rfl, .inl ⟨rfl, ?_⟩⟩
    · simp [claimEntry, readEntry, Bufcache.readEntry, ha]
    · simp [claimEntry, readEntry, Bufcache.readEntry, Cache.modify, Cache.offset]
  | failed junk =>
    refine ⟨fun a ha => ?_, rfl, rfl, rfl, rfl, .inr ⟨rfl, rfl, junk, ?_⟩⟩
    · simp [claimEntry, readEntry, ha]
    · simp [claimEntry, readEntry]

def claimResult (r : Cache β × (ℕ → β)) (b num : ℕ) (read : Answer β) :
    Option ℕ × Cache β × (ℕ → β) :=
  ((claimEntry r.1 r.2 b num read).1, (claimEntry r.1 r.2 b num read).2, r.2)

lemma recycle_effect (hflags : c.flags = 0) (disk : ℕ → β) (b : ℕ) (answer : Answer β) :
    ∃ c', (recycle c disk b answer).1 = c'.touch b ∧ SameButFlags c c' ∧
      (∀ a, a ≠ b → c'.bufs a = c.bufs a) ∧
      (∀ i, i ≠ c.offset (c.bufs b).num → (recycle c disk b answer).2 i = disk i) ∧
      (¬ c.dirty b → (recycle c disk b answer).2 = disk) ∧
      (c.dirty b → (c.bufs b).num ≠ 0 → answer.isDone = true →
        (recycle c disk b answer).2 (c.offset (c.bufs b).num) = (c.bufs b).block) := by
  by_cases hnum : (c.bufs b).num = 0
  · have hrec : recycle c disk b answer = (c.touch b, disk) := by simp [recycle, hnum]
    rw [hrec]
    exact ⟨c, rfl, .refl c, fun _ _ => rfl, fun _ _ => rfl, fun _ => rfl,
      fun _ hne => absurd hnum hne⟩
  · have hrec : recycle c disk b answer =
        ((writeEntry c disk b answer).1.touch b, (writeEntry c disk b answer).2) := by
      simp [recycle, hnum]
    obtain ⟨hsame, hothers, hdisk, hown, hdone⟩ := writeEntry_effect hflags disk b answer
    rw [hrec]
    refine ⟨_, rfl, hsame, hothers, hdisk, fun hclean => ?_, fun hd _ ha => hown hd (hdone ha)⟩
    rw [writeEntry_clean hclean]

variable {fresh : Option ℕ} {zero : β} {write read : Answer β} {r : Option ℕ × Cache β × (ℕ → β)}

/-- What `get_block` leaves of the list. -/
structure Taken (c : Cache β) (marks : List (ℕ × Bool)) (xs : List ℕ) (num : ℕ)
    (fresh : Option ℕ) (r : Option ℕ × Cache β × (ℕ → β)) (ys : List ℕ) : Prop where
  entries : Entries r.2.1 (r.1.toList.map (·, false) ++ marks) ys
  most : xs.length ≤ bufcacheMax → ys.length ≤ bufcacheMax
  mem : ∀ a, a ∈ ys ↔ a ∈ if r.2.1.numEntries = c.numEntries then xs else fresh.toList ++ xs
  kept : ∀ a ∈ ys, (r.2.1.bufs a).num = num ∨ a ∈ xs ∧ (r.2.1.bufs a).num = (c.bufs a).num
  used : ∀ a ∈ xs, 0 < (c.bufs a).refcount → a ∈ ys ∧ (r.2.1.bufs a).num = (c.bufs a).num
  found : ∀ b ∈ r.1, (r.2.1.bufs b).num = num

namespace Entries
variable (h : Entries c marks xs)
include h

lemma getBlock_cases (hr : getBlock c disk num fresh zero write read = some r) :
    (∃ b ∈ xs, (c.bufs b).num = num ∧ claimed c num fresh = none ∧
      r = (some b, (c.modify b fun x => { x with refcount := x.refcount + 1 }).touch b, disk)) ∨
    (∀ a ∈ xs, (c.bufs a).num ≠ num) ∧ ((claimed c num fresh = none ∧ r = (none, c, disk)) ∨
      (∃ b, fresh = some b ∧ claimed c num fresh = some b ∧ c.numEntries < bufcacheMax ∧
        r = claimResult (recycle (createEntry c b zero) disk b write) b num read) ∨
      ∃ b ∈ xs, ¬ 0 < (c.bufs b).refcount ∧ claimed c num fresh = some b ∧
        victim c num = some b ∧ r = claimResult (recycle c disk b write) b num read) := by
  have hfind := h.findBlock_spec num
  rw [getBlock, hfind] at hr
  unfold claimed victim
  rw [hfind]
  cases hf : xs.find? fun b => (c.bufs b).num = num with
  | some b =>
    simp only [hf] at hr
    split_ifs at hr
    refine .inl ⟨b, List.mem_of_find?_eq_some hf, by simpa using List.find?_some hf, ?_,
      (some.inj hr).symm⟩
    simp
  | none =>
    refine .inr ⟨fun a ha => by simpa using List.find?_eq_none.mp hf a ha, ?_⟩
    simp only [hf, loadBlock] at hr
    by_cases hdev : c.dev = 0
    · rw [if_pos hdev] at hr
      exact .inl ⟨by simp [hdev], (some.inj hr).symm⟩
    · rw [if_neg hdev, findFreeEntry.eq_def, h.lastUnreferenced_spec] at hr
      rw [h.lastUnreferenced_spec, if_pos ⟨rfl, hdev⟩]
      by_cases hroom : c.numEntries < bufcacheMax
      · simp only [if_pos hroom] at hr ⊢
        cases fresh with
        | none => exact .inl ⟨rfl, (some.inj hr).symm⟩
        | some b => exact .inr (.inl ⟨b, rfl, rfl, hroom, (some.inj hr).symm⟩)
      · simp only [if_neg hroom] at hr ⊢
        cases hl : xs.reverse.find? fun b => ¬ 0 < (c.bufs b).refcount with
        | none => simp only [hl, map_none, reduceCtorEq] at hr
        | some b =>
          simp only [hl, map_some] at hr
          refine .inr (.inr ⟨b, mem_reverse.mp (List.mem_of_find?_eq_some hl),
            by simpa using List.find?_some hl, rfl, ?_, (some.inj hr).symm⟩)
          simp [not_lt.mp hroom]

lemma victim_mem (hv : victim c num = some b) : b ∈ xs := by
  unfold victim at hv
  rw [h.lastUnreferenced_spec, join_some] at hv
  split_ifs at hv
  exact mem_reverse.mp (List.mem_of_find?_eq_some hv)

lemma unheld (hb : b ∈ xs) (hidle : ¬ 0 < (c.bufs b).refcount) : ∀ m ∈ marks, m.1 ≠ b := by
  rintro m hm rfl
  exact hidle (h.used hm)

lemma taken (hholds : Holds c'.blocks fun _ => ys) (hflags : c'.flags = 0)
    (hcount : c'.numEntries = ys.length) (hmost : xs.length ≤ bufcacheMax → ys.length ≤ bufcacheMax)
    (hmem : ∀ a, a ∈ ys ↔ a ∈ if c'.numEntries = c.numEntries then xs else fresh.toList ++ xs)
    (hby : b ∈ ys) (hsame : ∀ a, a ≠ b → (a ∈ ys ↔ a ∈ xs))
    (hothers : ∀ a, a ≠ b → (c'.bufs a).num = (c.bufs a).num ∧
      (c'.bufs a).refcount = (c.bufs a).refcount) (hunheld : ∀ m ∈ marks, m.1 ≠ b)
    (hmiss : ∀ a ∈ xs, (c.bufs a).num ≠ num) (hidle : b ∈ xs → ¬ 0 < (c.bufs b).refcount) :
    Taken c marks xs num fresh (claimResult (c', disk) b num read) ys := by
  obtain ⟨hbufs, hblocks, hflags', -, hcount', hanswer⟩ := claimEntry_spec c' disk b num read
  have hself : ((claimEntry c' disk b num read).2.bufs b).num = num := by
    rcases hanswer with ⟨-, hb⟩ | ⟨-, -, junk, hb⟩ <;> rw [hb]
  have hothers : ∀ a, a ≠ b → ((claimEntry c' disk b num read).2.bufs a).num = (c.bufs a).num ∧
        ((claimEntry c' disk b num read).2.bufs a).refcount = (c.bufs a).refcount := by
    intro a hab
    rw [hbufs a hab]
    exact hothers a hab
  refine ⟨h.claim (hblocks.symm ▸ hholds) (hflags'.trans hflags) (hcount'.trans hcount) hby hsame
    hothers hself hunheld hmiss ?_, hmost, ?_, ?_, ?_, ?_⟩
  · rcases hanswer with ⟨hfound, hb⟩ | ⟨hnone, -, junk, hb⟩
    · exact .inl ⟨hfound, by rw [hb]⟩
    · exact .inr ⟨hnone, by rw [hb]⟩
  · intro a
    rw [hmem a, ← hcount']
    rfl
  · intro a ha
    by_cases hab : a = b
    · exact .inl (hab ▸ hself)
    · exact .inr ⟨(hsame a hab).mp ha, (hothers a hab).1⟩
  · intro a ha hpos
    have hab : a ≠ b := fun he => hidle (he ▸ ha) (he ▸ hpos)
    exact ⟨(hsame a hab).mpr ha, (hothers a hab).1⟩
  · intro a ha
    rcases hanswer with ⟨hfound, -⟩ | ⟨hnone, -⟩
    · obtain rfl : b = a := some.inj (hfound.symm.trans ha)
      exact hself
    · exact absurd (hnone.symm.trans ha) (by simp)

lemma created (hb : b ∉ xs) (hroom : c.numEntries < bufcacheMax)
    (hmiss : ∀ a ∈ xs, (c.bufs a).num ≠ num) : Taken c marks xs num (some b)
      (claimResult (recycle (createEntry c b zero) disk b write) b num read) (b :: xs) := by
  obtain ⟨c', hc, hsame, -⟩ := recycle_effect (c := createEntry c b zero) h.flags disk b write
  rw [← Prod.mk.eta (p := recycle _ _ _ _), hc]
  have hnum : (c'.touch b).numEntries = c.numEntries + 1 := hsame.numEntries
  refine h.taken ?_ (hsame.flags.trans h.flags) ?_ ?_ ?_ mem_cons_self ?_ ?_ ?_ hmiss
    fun hin => absurd hin hb
  · have hcreated := holds_createEntry h.holds hb zero
    rw [← hsame.blocks] at hcreated
    have htouched := holds_touch hcreated (b := b) (by simp)
    rwa [erase_cons_head] at htouched
  · rw [hnum, h.count, length_cons]
  · intro _
    rw [length_cons, ← h.count]
    exact hroom
  · intro a
    have hne : ¬ (c'.touch b).numEntries = c.numEntries := by omega
    simp [hne]
  · intro a hab
    simp [hab]
  · intro a hab
    have hsrc : (createEntry c b zero).bufs a = c.bufs a := by simp [createEntry, hab]
    rw [← hsrc]
    exact ⟨hsame.num a, hsame.refcount a⟩
  · intro m hm he
    exact hb (he ▸ h.held m hm)

lemma recycled (hb : b ∈ xs) (hidle : ¬ 0 < (c.bufs b).refcount)
    (hmiss : ∀ a ∈ xs, (c.bufs a).num ≠ num) (fresh : Option ℕ) : Taken c marks xs num fresh
      (claimResult (recycle c disk b write) b num read) (b :: xs.erase b) := by
  obtain ⟨c', hc, hsame, -⟩ := recycle_effect h.flags disk b write
  rw [← Prod.mk.eta (p := recycle _ _ _ _), hc]
  have hnum : (c'.touch b).numEntries = c.numEntries := hsame.numEntries
  have hlen := length_touched hb
  refine h.taken ?_ (hsame.flags.trans h.flags) ?_ (fun hmost => hlen ▸ hmost) ?_ mem_cons_self
    (fun a _ => mem_touched hb) ?_ (h.unheld hb hidle) hmiss fun _ => hidle
  · exact holds_touch (hsame.blocks.symm ▸ h.holds) hb
  · rw [hnum, h.count, hlen]
  · intro a
    rw [if_pos hnum, mem_touched hb]
  · exact fun a _ => ⟨hsame.num a, hsame.refcount a⟩

lemma get (hfresh : ∀ b ∈ fresh, b ∉ xs) (hr : getBlock c disk num fresh zero write read = some r) :
    ∃ ys, Taken c marks xs num fresh r ys := by
  rcases h.getBlock_cases hr with ⟨b, hb, hnum, -, rfl⟩ | ⟨hmiss, ⟨-, rfl⟩ |
    ⟨b, rfl, -, hroom, rfl⟩ | ⟨b, hb, hidle, -, -, rfl⟩⟩
  · have hsame := modify_field (c := c) (b := b) (f := fun x => { x with refcount := x.refcount + 1 })
      Buf.num rfl
    refine ⟨_, h.hit hb, fun hmost => length_touched hb ▸ hmost, fun a => ?_, fun a ha => ?_,
      fun a ha _ => ⟨(mem_touched hb).mpr ha, hsame a⟩, ?_⟩
    · rw [mem_touched hb]
      simp [Cache.touch, Cache.modify]
    · exact .inr ⟨(mem_touched hb).mp ha, hsame a⟩
    · intro a ha
      obtain rfl : b = a := some.inj ha
      exact (hsame b).trans hnum
  · exact ⟨xs, h, id, fun a => by rw [if_pos rfl], fun a ha => .inr ⟨ha, rfl⟩,
      fun a ha _ => ⟨ha, rfl⟩, by simp⟩
  · exact ⟨_, h.created (hfresh b rfl) hroom hmiss⟩
  · exact ⟨_, h.recycled hb hidle hmiss fresh⟩
end Entries

/-- The block lies within the device, its last read has not failed, and no dirty buffer is taken for
it whose write fails or is left out. -/
def Safe (c : Cache β) (num : ℕ) (unread : List ℕ) (write : Answer β) : Prop :=
  num * c.blockSize < 2 ^ 32 ∧ (∀ b ∈ (findBlock c num).join, b ∉ unread) ∧
    ∀ b ∈ victim c num, c.dirty b → (c.bufs b).num ≠ 0 ∧ write.isDone = true

def stillUnread (unread : List ℕ) (found : Bool) : Option ℕ → List ℕ
  | none => unread
  | some b => if found then unread.filter (· ≠ b) else b :: unread.filter (· ≠ b)

lemma mem_stillUnread (found : Bool) (hab : a ≠ b) :
    a ∈ stillUnread unread found (some b) ↔ a ∈ unread := by
  cases found <;> simp [stillUnread, hab]

lemma self_mem_stillUnread (found : Bool) :
    b ∈ stillUnread unread found (some b) ↔ found = false := by
  cases found <;> simp [stillUnread]

lemma not_written {found : Option ℕ} :
    (a, true) ∈ found.toList.map (·, false) ++ marks ↔ (a, true) ∈ marks := by
  simp

namespace Contents
variable (h : Contents c disk left marks unread xs)
include h

lemma transfer (hmem : ∀ a, a ∈ ys ↔ a ∈ xs) (hsize : c'.blockSize = c.blockSize)
    (hnum : ∀ a, (c'.bufs a).num = (c.bufs a).num)
    (hblock : ∀ a, (c'.bufs a).block = (c.bufs a).block)
    (hclean : ∀ a ∈ xs, ¬ c'.dirty a → (a, true) ∉ rest → ¬ c.dirty a ∧ (a, true) ∉ marks)
    (hidle : ∀ a ∈ unread, ¬ 0 < (c'.bufs a).refcount ∧ ¬ c'.dirty a) :
    Contents c' disk left rest unread ys := by
  refine ⟨hsize ▸ h.blockSize, ?_, ?_, ?_, ?_, ?_⟩
  · intro a ha
    rw [hnum, hsize]
    exact h.inside a ((hmem a).mp ha)
  · intro a ha hread
    rw [hnum, hblock]
    exact h.block a ((hmem a).mp ha) hread
  · intro a ha hd hw
    rw [hnum, hsize]
    obtain ⟨hd', hw'⟩ := hclean a ((hmem a).mp ha) hd hw
    exact h.clean a ((hmem a).mp ha) hd' hw'
  · intro num hn hno
    rw [hsize] at hn ⊢
    refine h.absent num hn fun a ha => ?_
    rw [← hnum]
    exact hno a ((hmem a).mpr ha)
  · intro a ha
    exact ⟨(hmem a).mpr (h.idle a ha).1, hidle a ha⟩

lemma place_ne (ha : b ∈ xs) {i : ℕ} (hi : i ≠ (c.bufs b).num) :
    i * c.blockSize ≠ c.offset (c.bufs b).num := by
  rw [Cache.offset, Nat.mod_eq_of_lt (h.inside b ha)]
  exact fun hsame => hi (Nat.eq_of_mul_eq_mul_right h.blockSize hsame)

lemma modified (hmem : ∀ a, a ∈ ys ↔ a ∈ xs) (hb : b ∉ unread)
    (hnum : ∀ x, (f x).num = x.num) (hblock : ∀ x, (f x).block = x.block)
    (hother : ∀ a, a ≠ b → (a, true) ∈ marks → (a, true) ∈ rest)
    (hself : ¬ (c.modify b f).dirty b → (b, true) ∉ rest → ¬ c.dirty b ∧ (b, true) ∉ marks) :
    Contents (c.modify b f) disk left rest unread ys := by
  have hbufs : ∀ a, a ≠ b → (c.modify b f).bufs a = c.bufs a := fun a hab => by simp [hab]
  refine h.transfer hmem rfl (modify_field Buf.num (hnum _)) (modify_field Buf.block (hblock _))
    ?_ ?_
  · intro a _ hd hw
    by_cases hab : a = b
    · subst hab
      exact hself hd hw
    · rw [Cache.dirty, hbufs a hab] at hd
      exact ⟨hd, fun hin => hw (hother a hab hin)⟩
  · intro a ha
    have hab : a ≠ b := fun he => hb (he ▸ ha)
    rw [Cache.dirty, hbufs a hab]
    exact (h.idle a ha).2

variable (he : Entries c marks xs)
include he

lemma read_of_used (hm : m ∈ marks) : m.1 ∉ unread := fun hin => (h.idle _ hin).2.1 (he.used hm)

lemma marked (hm : m ∈ marks) : Contents (markBlockDirty c m.1) disk left marks unread xs := by
  refine h.modified (fun _ => Iff.rfl) (h.read_of_used he hm) (fun _ => rfl) (fun _ => rfl)
    (fun _ _ hin => hin) fun hd _ => absurd ?_ hd
  simpa [Cache.dirty] using set_dirty (c.bufs m.1).flags

lemma released (hperm : marks.Perm (m :: rest)) {dirty : Bool} (hdirty : m.2 = true → dirty = true) :
    Contents (releaseBlock c m.1 dirty) disk left rest unread xs := by
  have hm : m ∈ marks := hperm.mem_iff.mpr mem_cons_self
  rw [releaseBlock_modify]
  refine h.modified (fun _ => Iff.rfl) (h.read_of_used he hm) (fun _ => rfl) (fun _ => rfl) ?_ ?_
  · intro a hab hin
    exact (mem_cons.mp (hperm.mem_iff.mp hin)).resolve_left fun hsame => hab (congrArg Prod.fst hsame)
  · intro hd hw
    obtain rfl : dirty = false := by
      by_contra hdirty'
      rw [Bool.not_eq_false] at hdirty'
      exact hd (by simpa [Cache.dirty, hdirty'] using set_dirty (c.bufs m.1).flags)
    refine ⟨by simpa [Cache.dirty] using hd, fun hin => ?_⟩
    rcases mem_cons.mp (hperm.mem_iff.mp hin) with hsame | hin
    · exact absurd (hdirty (congrArg Prod.snd hsame.symm)) (by simp)
    · exact hw hin

lemma stored (hperm : marks.Perm (m :: rest)) (value : β) :
    Contents (c.modify m.1 fun x => { x with block := value }) disk
      (update left (c.bufs m.1).num value) ((m.1, true) :: rest) unread xs := by
  have hm : m ∈ marks := hperm.mem_iff.mpr mem_cons_self
  have hread := h.read_of_used he hm
  have hnum := modify_field (c := c) (b := m.1) (f := fun x => { x with block := value }) Buf.num rfl
  have hother : ∀ a ∈ xs, a ≠ m.1 → (c.bufs a).num ≠ (c.bufs m.1).num :=
    fun a ha hne hsame => hne (he.distinct a ha _ (he.held m hm) hsame)
  refine ⟨h.blockSize, ?_, ?_, ?_, ?_, ?_⟩
  · intro a ha
    rw [hnum]
    exact h.inside a ha
  · intro a ha hin
    rw [hnum]
    by_cases hab : a = m.1
    · simp [hab]
    · rw [bufs_modify, if_neg hab, update_of_ne (hother a ha hab)]
      exact h.block a ha hin
  · intro a ha hd hw
    rw [hnum]
    obtain ⟨hab, hw⟩ : a ≠ m.1 ∧ (a, true) ∉ rest := by simpa using hw
    rw [Cache.dirty, bufs_modify, if_neg hab] at hd
    rw [update_of_ne (hother a ha hab)]
    refine h.clean a ha hd fun hin => ?_
    rcases mem_cons.mp (hperm.mem_iff.mp hin) with rfl | hin
    · exact hab rfl
    · exact hw hin
  · intro num hn hno
    have hne : num ≠ (c.bufs m.1).num := fun hsame =>
      hno m.1 (he.held m hm) ((hnum m.1).trans hsame.symm)
    rw [update_of_ne hne]
    exact h.absent num hn fun a ha hsame => hno a ha ((hnum a).trans hsame)
  · intro a ha
    have hab : a ≠ m.1 := fun hsame => hread (hsame ▸ ha)
    rw [Cache.dirty, bufs_modify, if_neg hab]
    exact h.idle a ha

lemma written (hb : b ∈ xs) (answer : Answer β) :
    Contents (writeEntry c disk b answer).1 (writeEntry c disk b answer).2 left marks unread xs := by
  obtain ⟨hsame, hothers, hdisk, hown, -⟩ := writeEntry_effect he.flags disk b answer
  by_cases hdirty : c.dirty b
  · have hread : b ∉ unread := fun hin => (h.idle b hin).2.2 hdirty
    have hkeeps : ∀ i, i ≠ (c.bufs b).num →
        (writeEntry c disk b answer).2 (i * c.blockSize) = disk (i * c.blockSize) :=
      fun i hi => hdisk _ (h.place_ne hb hi)
    refine ⟨hsame.blockSize ▸ h.blockSize, ?_, ?_, ?_, ?_, ?_⟩
    · intro a ha
      rw [hsame.num, hsame.blockSize]
      exact h.inside a ha
    · intro a ha hin
      rw [hsame.num, hsame.block]
      exact h.block a ha hin
    · intro a ha hd hw
      rw [hsame.num, hsame.blockSize]
      by_cases hab : a = b
      · subst hab
        have hplace := hown hdirty hd
        rw [Cache.offset, Nat.mod_eq_of_lt (h.inside a ha)] at hplace
        rw [hplace, h.block a ha hread]
      · rw [Cache.dirty, hothers a hab] at hd
        rw [hkeeps _ fun hsame' => hab (he.distinct a ha b hb hsame')]
        exact h.clean a ha hd hw
    · intro num hn hno
      simp only [hsame.num, hsame.blockSize] at hn hno ⊢
      rw [hkeeps num (Ne.symm (hno b hb))]
      exact h.absent num hn hno
    · intro a ha
      have hab : a ≠ b := fun hsame' => hread (hsame' ▸ ha)
      rw [Cache.dirty, hothers a hab]
      exact h.idle a ha
  · rw [writeEntry_clean hdirty]
    exact h

lemma claim {disk' : ℕ → β} (hmem : ∀ a, a ≠ b → (a ∈ ys ↔ a ∈ xs)) (hby : b ∈ ys)
    (hsize : c'.blockSize = c.blockSize) (hothers : ∀ a, a ≠ b → c'.bufs a = c.bufs a)
    (hdisk : ∀ i, (b ∈ xs → i ≠ (c.bufs b).num) → disk' (i * c.blockSize) = disk (i * c.blockSize))
    (hold : b ∈ xs → disk' ((c.bufs b).num * c.blockSize) = left (c.bufs b).num)
    (hnum : num * c.blockSize < 2 ^ 32) (hmiss : ∀ a ∈ xs, (c.bufs a).num ≠ num) :
    Contents (claimResult (c', disk') b num read).2.1 disk' left
      ((claimResult (c', disk') b num read).1.toList.map (·, false) ++ marks)
      (stillUnread unread (claimResult (c', disk') b num read).1.isSome (some b)) ys ∧
    (∀ a ∈ (claimResult (c', disk') b num read).1,
      ((claimResult (c', disk') b num read).2.1.bufs a).block = left num) ∧ (read.isDone = true →
      stillUnread unread (claimResult (c', disk') b num read).1.isSome (some b) ⊆ unread) := by
  obtain ⟨hbufs, -, -, hsize', -, hanswer⟩ := claimEntry_spec c' disk' b num read
  have habsent : disk' (num * c.blockSize) = left num := by
    rw [hdisk num fun hb => Ne.symm (hmiss b hb)]
    exact h.absent num hnum hmiss
  have hoff : c'.offset num = num * c.blockSize := by
    rw [Cache.offset, hsize, Nat.mod_eq_of_lt hnum]
  rw [hoff, habsent] at hanswer
  simp only [claimResult]
  set t := claimEntry c' disk' b num read with ht
  have hkeeps : ∀ a, a ≠ b → t.2.bufs a = c.bufs a :=
    fun a hab => (hbufs a hab).trans (hothers a hab)
  have hself : (t.2.bufs b).num = num := by
    rcases hanswer with ⟨-, hb⟩ | ⟨-, -, junk, hb⟩ <;> rw [hb]
  have hblock : t.1.isSome = true → (t.2.bufs b).block = left num := by
    rcases hanswer with ⟨-, hb⟩ | ⟨hnone, -⟩
    · exact fun _ => by rw [hb]
    · simp [hnone]
  have hidle : t.1.isSome = false → ¬ 0 < (t.2.bufs b).refcount ∧ ¬ t.2.dirty b := by
    rcases hanswer with ⟨hfound, -⟩ | ⟨-, -, junk, hb⟩
    · simp [hfound]
    · simp [Cache.dirty, hb]
  refine ⟨⟨hsize' ▸ hsize ▸ h.blockSize, ?_, ?_, ?_, ?_, ?_⟩, ?_, ?_⟩
  · intro a ha
    rw [hsize', hsize]
    by_cases hab : a = b
    · rwa [hab, hself]
    · rw [hkeeps a hab]
      exact h.inside a ((hmem a hab).mp ha)
  · intro a ha hin
    by_cases hab : a = b
    · subst hab
      rw [self_mem_stillUnread] at hin
      rw [hself]
      exact hblock (Bool.eq_true_of_not_eq_false hin)
    · rw [mem_stillUnread _ hab] at hin
      rw [hkeeps a hab]
      exact h.block a ((hmem a hab).mp ha) hin
  · intro a ha hd hw
    rw [hsize', hsize]
    by_cases hab : a = b
    · rw [hab, hself]
      exact habsent
    · rw [not_written] at hw
      rw [Cache.dirty, hkeeps a hab] at hd
      have hax := (hmem a hab).mp ha
      rw [hkeeps a hab, hdisk _ fun hb hsame => hab (he.distinct a hax b hb hsame)]
      exact h.clean a hax hd hw
  · intro i hi hno
    rw [hsize', hsize] at hi ⊢
    by_cases hib : b ∈ xs ∧ i = (c.bufs b).num
    · rw [hib.2]
      exact hold hib.1
    · rw [hdisk i fun hb hsame => hib ⟨hb, hsame⟩]
      refine h.absent i hi fun a ha hsame => ?_
      by_cases hab : a = b
      · subst hab
        exact hib ⟨ha, hsame.symm⟩
      · exact hno a ((hmem a hab).mpr ha) (by rw [hkeeps a hab, hsame])
  · intro a ha
    by_cases hab : a = b
    · subst hab
      exact ⟨hby, hidle (self_mem_stillUnread _ |>.mp ha)⟩
    · obtain ⟨hx, hfree⟩ := h.idle a ((mem_stillUnread _ hab).mp ha)
      rw [Cache.dirty, hkeeps a hab]
      exact ⟨(hmem a hab).mpr hx, hfree⟩
  · intro a ha
    rcases hanswer with ⟨hfound, hb⟩ | ⟨hnone, -⟩
    · obtain rfl : b = a := some.inj (hfound.symm.trans ha)
      rw [hb]
    · exact absurd (hnone.symm.trans ha) (by simp)
  · intro hdone
    rcases hanswer with ⟨hfound, -⟩ | ⟨-, hfailed, -⟩
    · rw [hfound]
      exact fun _ ha => List.mem_of_mem_filter ha
    · exact absurd (hdone.symm.trans hfailed) (by simp)

lemma get (hsafe : Safe c num unread write)
    (hr : getBlock c disk num fresh zero write read = some r) (ht : Taken c marks xs num fresh r ys)
    (hfresh : ∀ b ∈ fresh, b ∉ xs) : Contents r.2.1 r.2.2 left (r.1.toList.map (·, false) ++ marks)
      (stillUnread unread r.1.isSome (claimed c num fresh)) ys ∧
    (∀ b ∈ r.1, (r.2.1.bufs b).block = left num) ∧
    (read.isDone = true → stillUnread unread r.1.isSome (claimed c num fresh) ⊆ unread) := by
  obtain ⟨hnum, hfound, hvictim⟩ := hsafe
  have hmem := ht.mem
  rcases he.getBlock_cases hr with ⟨b, hb, hbnum, hclaimed, rfl⟩ | ⟨hmiss, ⟨hclaimed, rfl⟩ |
    ⟨b, rfl, hclaimed, hroom, rfl⟩ | ⟨b, hb, hidle, hclaimed, hv, rfl⟩⟩ <;> rw [hclaimed]
  · have hread : b ∉ unread := by
      refine hfound b ?_
      rw [he.findBlock_spec]
      cases hf : xs.find? fun b => (c.bufs b).num = num with
      | none => exact absurd hbnum (by simpa using List.find?_eq_none.mp hf b hb)
      | some a =>
        have ha := List.mem_of_find?_eq_some hf
        have han : (c.bufs a).num = num := by simpa using List.find?_some hf
        rw [he.distinct a ha b hb (han.trans hbnum.symm)]
        rfl
    have hkept : ∀ a, a ∈ ys ↔ a ∈ xs := by
      intro a
      rw [hmem a]
      simp [Cache.touch, Cache.modify]
    have hmod := h.modified hkept hread (f := fun x => { x with refcount := x.refcount + 1 })
      (fun _ => rfl) (fun _ => rfl) (fun _ _ hin => mem_cons_of_mem (b, false) hin)
      (fun hd hw => ⟨by simpa [Cache.dirty] using hd, by simpa using hw⟩)
    refine ⟨⟨hmod.blockSize, hmod.inside, hmod.block, hmod.clean, hmod.absent, hmod.idle⟩, ?_,
      fun _ => Subset.refl _⟩
    intro a ha
    obtain rfl : b = a := some.inj ha
    simp [Cache.touch, h.block b hb hread, hbnum]
  · refine ⟨h.transfer (fun a => ?_) rfl (fun _ => rfl) (fun _ => rfl) (fun _ _ hd hw => ⟨hd, hw⟩)
      fun a ha => (h.idle a ha).2, by simp, fun _ => Subset.refl _⟩
    rw [hmem a, if_pos rfl]
  · have hx := hfresh b rfl
    have hrec : recycle (createEntry c b zero) disk b write =
        ((createEntry c b zero).touch b, disk) := by
      have hz : ((createEntry c b zero).bufs b).num = 0 := by simp [createEntry]
      simp [recycle, hz]
    rw [hrec] at hmem ⊢
    have hentries : ∀ a, a ∈ ys ↔ a = b ∨ a ∈ xs := by
      intro a
      have hne : ¬ (claimResult ((createEntry c b zero).touch b, disk) b num
          read).2.1.numEntries = c.numEntries := by
        rw [claimResult, (claimEntry_spec _ _ _ _ _).2.2.2.2.1]
        simp [Cache.touch, createEntry]
      rw [hmem a, if_neg hne]
      simp
    refine h.claim he (fun a hab => ?_) ((hentries b).mpr (.inl rfl)) rfl (fun a hab => ?_)
      (fun _ _ => rfl) (fun hin => absurd hin hx) hnum hmiss
    · simp [hentries, hab]
    · simp [Cache.touch, createEntry, hab]
  · obtain ⟨c', hc, hsame, hothers, hdisk, hclean, hwrite⟩ := recycle_effect he.flags disk b write
    have hsize : (c'.touch b).numEntries = c.numEntries := hsame.numEntries
    have hentries : ∀ a, a ∈ ys ↔ a ∈ xs := by
      intro a
      have hkeep : (claimResult (recycle c disk b write) b num read).2.1.numEntries =
          c.numEntries := by
        rw [claimResult, (claimEntry_spec _ _ _ _ _).2.2.2.2.1, hc]
        exact hsize
      rw [hmem a, if_pos hkeep]
    rw [← Prod.mk.eta (p := recycle _ _ _ _), hc]
    refine h.claim he (fun a _ => hentries a) ((hentries b).mpr hb) hsame.blockSize hothers ?_
      (fun _ => ?_) hnum hmiss
    · exact fun i hi => hdisk _ (h.place_ne hb (hi hb))
    · by_cases hdirty : c.dirty b
      · obtain ⟨hne, hdone⟩ := hvictim b hv hdirty
        have hplace := hwrite hdirty hne hdone
        rw [Cache.offset, Nat.mod_eq_of_lt (h.inside b hb)] at hplace
        rw [hplace, h.block b hb fun hin => (h.idle b hin).2.2 hdirty]
      · rw [hclean hdirty]
        exact h.clean b hb hdirty fun hin => he.unheld hb hidle _ hin rfl
end Contents

lemma syncLoop_spec {I : Cache β → (ℕ → β) → Prop} {answers : ℕ → Answer β}
    (hwrite : ∀ c disk b, b ∈ xs → I c disk →
      I (writeEntry c disk b (answers b)).1 (writeEntry c disk b (answers b)).2)
    (hflags : ∀ c disk, I c disk → c.flags = 0) (hin : ∀ y ∈ ys, y ∈ xs) {fuel : ℕ} {p : Option ℕ}
    (hseg : Seg c.blocks.next c.blocks.prev p ys none) (hfuel : ys.length < fuel) (h : I c disk) :
    ∃ c' disk', syncLoop answers fuel c disk ys.head? = some (c', disk') ∧ I c' disk' ∧
      SameButFlags c c' ∧
      ((∀ b, (answers b).isDone = true) → ∀ a, c'.dirty a → c.dirty a ∧ a ∉ ys) := by
  induction ys generalizing c disk p fuel with
  | nil =>
    obtain _ | fuel := fuel
    · omega
    exact ⟨c, disk, rfl, h, .refl c, fun _ a ha => ⟨ha, by simp⟩⟩
  | cons y ys ih =>
    obtain _ | fuel := fuel
    · omega
    obtain ⟨-, hnext, hrest⟩ := hseg
    obtain ⟨hs, hother, -, -, hdone⟩ := writeEntry_effect (hflags c disk h) disk y (answers y)
    obtain ⟨c', disk', hrun, hI, hs', hdirty⟩ := ih (fun z hz => hin z (by simp [hz]))
      (p := some y) (by rw [hs.blocks]; exact hrest) (Nat.lt_of_succ_lt_succ hfuel)
      (hwrite c disk y (hin y (by simp)) h)
    refine ⟨c', disk', ?_, hI, hs.trans hs', fun hall a ha => ?_⟩
    · rw [List.head?_cons, syncLoop, ← hrun]
      simp only [hs.blocks, hnext, Option.or_none]
    · obtain ⟨hd, hy⟩ := hdirty hall a ha
      have hne : a ≠ y := by
        rintro rfl
        exact hdone (hall a) hd
      rw [Cache.dirty, hother a hne] at hd
      exact ⟨hd, by simp [hne, hy]⟩

lemma Entries.synced (h : Entries c marks xs) (disk : ℕ → β) (answers : ℕ → Answer β) :
    ∃ c' disk', syncBufcache c disk answers = some (c', disk') ∧ SameButFlags c c' ∧
      ((∀ b, (answers b).isDone = true) → ∀ a ∈ xs, ¬ c'.dirty a) ∧
      ∀ left unread, Contents c disk left marks unread xs →
        Contents c' disk' left marks unread xs := by
  obtain ⟨c', disk', hrun, ⟨-, hcontents⟩, hsame, hclean⟩ := syncLoop_spec
    (I := fun c' disk' => Entries c' marks xs ∧ ∀ left unread, Contents c disk left marks unread xs →
      Contents c' disk' left marks unread xs)
    (fun c1 disk1 b hb hi => ⟨hi.1.same (writeEntry_effect hi.1.flags disk1 b (answers b)).1,
      fun left unread hc => (hi.2 left unread hc).written hi.1 hb (answers b)⟩)
    (fun _ _ hi => hi.1.flags) (fun _ hy => hy) (h.holds.linked ()) (Nat.lt_succ_self _)
    ⟨h, fun _ _ hc => hc⟩
  refine ⟨c', disk', ?_, hsame, fun hall a ha hd => (hclean hall a hd).2 ha, hcontents⟩
  rw [syncBufcache, h.holds.head (), h.count]
  exact hrun

end Gloworm.BufcacheFault
