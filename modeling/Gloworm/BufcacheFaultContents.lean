import Gloworm.BufcacheCoherence

/-! The list of buffers keeps its shape whatever the device and the allocator answer. What the cache
answers when transfers fail is compared with an ideal cache in which the buffers whose last read
failed hold what they should. -/
namespace Gloworm.BufcacheFault
open List Option Queue Transition Bufcache Function
variable {β : Type}

structure Shaped (s : System β) (xs : List ℕ) : Prop where
  holds : Holds s.cache.blocks fun _ => xs
  flags : s.cache.flags = 0
  count : s.cache.numEntries = xs.length
  most : xs.length ≤ bufcacheMax
  entries : ∀ b, b ∈ s.entries ↔ b ∈ xs
  distinct : ∀ a ∈ xs, ∀ b ∈ xs, (s.cache.bufs a).num = (s.cache.bufs b).num → a = b
  refs : ∀ a ∈ xs, (s.cache.bufs a).refcount = (s.uses.countP fun u => u.buf = a : ℕ)
  held : ∀ u ∈ s.uses, u.buf ∈ xs ∧ (s.cache.bufs u.buf).num = u.num

def KeepsHeld (s t : System β) (xs ys : List ℕ) : Prop :=
  ∀ a ∈ xs, 0 < (s.cache.bufs a).refcount → a ∈ ys ∧ (t.cache.bufs a).num = (s.cache.bufs a).num

lemma shaped_start (dev blockSize : ℕ) (mem : ℕ → Buf β) (disk : ℕ → β) :
    Shaped (start dev blockSize mem disk) [] := by
  refine ⟨holds_init, rfl, rfl, Nat.zero_le _, ?_, ?_, ?_, ?_⟩
  all_goals simp [start]

def System.marks (s : System β) : List (ℕ × Bool) := s.uses.map fun u => (u.buf, u.modified)

variable {s t : System β} {xs ys : List ℕ} {u : Use}

lemma shaped_iff : Shaped s xs ↔ Entries s.cache s.marks xs ∧ xs.length ≤ bufcacheMax ∧
    (∀ b, b ∈ s.entries ↔ b ∈ xs) ∧ ∀ u ∈ s.uses, (s.cache.bufs u.buf).num = u.num := by
  have hcount : ∀ a, s.marks.countP (fun m => m.1 = a) = s.uses.countP fun u => u.buf = a :=
    fun a => countP_map
  constructor
  · intro h
    refine ⟨⟨h.holds, h.flags, h.count, h.distinct, fun a ha => ?_, fun m hm => ?_⟩, h.most,
      h.entries, fun u hu => (h.held u hu).2⟩
    · rw [h.refs a ha, hcount]
    · obtain ⟨u, hu, rfl⟩ := List.mem_map.mp hm
      exact (h.held u hu).1
  · rintro ⟨he, hmost, hentries, hnums⟩
    refine ⟨he.holds, he.flags, he.count, hmost, hentries, he.distinct, fun a ha => ?_,
      fun u hu => ⟨?_, hnums u hu⟩⟩
    · rw [he.refs a ha, hcount]
    · exact he.held (u.buf, u.modified) (List.mem_map.mpr ⟨u, hu, rfl⟩)

lemma marks_perm (hu : u ∈ s.uses) : s.marks.Perm ((u.buf, u.modified) ::
    (s.uses.erase u).map fun u => (u.buf, u.modified)) :=
  (perm_cons_erase hu).map _

variable {token : ℕ}

lemma mem_of_useOf (hu : s.useOf token = some u) : u ∈ s.uses :=
  List.mem_of_find?_eq_some hu

namespace Shaped
variable (h : Shaped s xs)
include h

/-- The nums of the buffers stay as they are. -/
lemma transfer (he : Entries t.cache t.marks xs) (hent : t.entries = s.entries)
    (hnum : ∀ a, (t.cache.bufs a).num = (s.cache.bufs a).num)
    (huses : ∀ u ∈ t.uses, ∃ v ∈ s.uses, v.buf = u.buf ∧ v.num = u.num) :
    (Shaped t xs ∧ KeepsHeld s t xs xs) ∧ ∀ a, (t.cache.bufs a).num = (s.cache.bufs a).num := by
  refine ⟨⟨shaped_iff.mpr ⟨he, h.most, fun b => hent ▸ h.entries b, fun u hu => ?_⟩,
    fun a ha _ => ⟨ha, hnum a⟩⟩, hnum⟩
  obtain ⟨v, hv, hbuf, hvnum⟩ := huses u hu
  rw [hnum, ← hbuf, (h.held v hv).2, hvnum]

variable {fresh : Option ℕ}

lemma taken {num : ℕ} {r : Option ℕ × Cache β × (ℕ → β)}
    (ht : Taken s.cache s.marks xs num fresh r ys) : Shaped (s.afterGet num token fresh r) ys ∧
      KeepsHeld s (s.afterGet num token fresh r) xs ys := by
  have he := (shaped_iff.mp h).1
  have hmarks : (s.afterGet num token fresh r).marks = r.1.toList.map (·, false) ++ s.marks := by
    obtain ⟨_ | b, c, disk⟩ := r <;> rfl
  have hold : ∀ u ∈ s.uses, (r.2.1.bufs u.buf).num = u.num := by
    intro u hu
    obtain ⟨hin, hnum⟩ := h.held u hu
    have hmark : (u.buf, u.modified) ∈ s.marks := List.mem_map.mpr ⟨u, hu, rfl⟩
    exact (ht.used _ hin (he.used hmark)).2.trans hnum
  refine ⟨shaped_iff.mpr ⟨hmarks ▸ ht.entries, ht.most h.most, fun b => ?_, ?_⟩, ht.used⟩
  · rw [ht.mem b]
    dsimp only [System.afterGet]
    split_ifs
    · exact h.entries b
    · simp [h.entries]
  · have hfound := ht.found
    obtain ⟨_ | b, c, disk⟩ := r
    · exact hold
    · intro u hu
      rcases mem_cons.mp hu with rfl | hu
      · exact hfound b rfl
      · exact hold u hu

lemma fresh_new (hfresh : ∀ b ∈ fresh, b ∉ s.entries) :
    ∀ b ∈ fresh, b ∉ xs := fun b hb hin => hfresh b hb ((h.entries b).mpr hin)

/-- Every call but `get_block` keeps the list and the numbers. -/
lemma kept {e : Event β} (hstep : Step s e t)
    (hget : ∀ num token fresh zero write read, e ≠ .get num token fresh zero write read) :
    (Shaped t xs ∧ KeepsHeld s t xs xs) ∧ ∀ a, (t.cache.bufs a).num = (s.cache.bufs a).num := by
  obtain ⟨hperm, hdo⟩ := hstep
  have he := (shaped_iff.mp h).1
  cases e with
  | get num token fresh zero write read => exact absurd rfl (hget num token fresh zero write read)
  | modify token value =>
    obtain ⟨u, hu, rfl⟩ := map_eq_some_iff.mp hdo
    have hu := mem_of_useOf hu
    have hchanged := he.changed (marks_perm hu) true (f := fun x => { x with block := value })
      (fun _ => rfl) fun _ => rfl
    refine h.transfer hchanged rfl (modify_field (f := fun x => { x with block := value })
      Buf.num rfl) fun v hv => ?_
    rcases mem_cons.mp hv with rfl | hv
    · exact ⟨u, hu, rfl, rfl⟩
    · exact ⟨v, mem_of_mem_erase hv, rfl, rfl⟩
  | markDirty token =>
    obtain ⟨u, hu, rfl⟩ := map_eq_some_iff.mp hdo
    exact h.transfer (he.marked u.buf) rfl
      (modify_field (f := fun x => { x with flags := x.flags ||| bfDirty }) Buf.num rfl)
      fun v hv => ⟨v, hv, rfl, rfl⟩
  | release token dirty =>
    obtain ⟨u, hu, rfl⟩ := map_eq_some_iff.mp hdo
    refine h.transfer (he.released (marks_perm (mem_of_useOf hu)) dirty) rfl (fun a => ?_)
      fun v hv => ⟨v, mem_of_mem_erase hv, rfl, rfl⟩
    dsimp only
    rw [releaseBlock_modify]
    exact modify_field Buf.num rfl a
  | sync answers =>
    obtain ⟨r, hr, rfl⟩ := map_eq_some_iff.mp hdo
    obtain ⟨c, disk, hrun, hsame, -⟩ := he.synced s.disk answers
    obtain rfl : (c, disk) = r := some.inj (hrun.symm.trans hr)
    exact h.transfer (he.same hsame) rfl hsame.num fun v hv => ⟨v, hv, rfl, rfl⟩

lemma step {e : Event β} (hstep : Step s e t) : ∃ ys, Shaped t ys ∧ KeepsHeld s t xs ys := by
  cases e with
  | get num token fresh zero write read =>
    obtain ⟨hperm, hdo⟩ := hstep
    obtain ⟨r, hr, rfl⟩ := map_eq_some_iff.mp hdo
    obtain ⟨ys, ht⟩ := (shaped_iff.mp h).1.get (h.fresh_new hperm.2) hr
    exact ⟨ys, h.taken ht⟩
  | _ => exact ⟨xs, (h.kept hstep nofun).1⟩

omit h in
lemma of_run {dev blockSize : ℕ} {mem : ℕ → Buf β} {disk : ℕ → β} {es : List (Event β)}
    (hrun : Run Step (start dev blockSize mem disk) es s) : ∃ xs, Shaped s xs :=
  hrun.preserves (I := fun s => ∃ xs, Shaped s xs) ⟨[], shaped_start dev blockSize mem disk⟩
    fun _ _ _ ⟨_, h⟩ hstep => (h.step hstep).imp fun _ => And.left
end Shaped

/-- In every history, with any failures, the list is counted, has no block twice, and a held buffer
keeps its place and its block. -/
theorem bufcache_structure {dev blockSize : ℕ} {mem : ℕ → Buf β} {disk : ℕ → β}
    {es : List (Event β)} {s : System β} (hrun : Run Step (start dev blockSize mem disk) es s) :
    ∃ xs, Holds s.cache.blocks (fun _ => xs) ∧ s.cache.numEntries = xs.length ∧
      s.cache.numEntries ≤ bufcacheMax ∧ xs.Nodup ∧
      (∀ a ∈ xs, ∀ b ∈ xs, (s.cache.bufs a).num = (s.cache.bufs b).num → a = b) ∧
      (∀ e t, Step s e t → ∃ ys, Holds t.cache.blocks (fun _ => ys) ∧
        ∀ a ∈ xs, 0 < (s.cache.bufs a).refcount →
          a ∈ ys ∧ (t.cache.bufs a).num = (s.cache.bufs a).num) ∧
      (∀ u ∈ s.uses, u.buf ∈ xs ∧ 0 < (s.cache.bufs u.buf).refcount ∧
        (s.cache.bufs u.buf).num = u.num) ∧
      ∀ u ∈ s.uses, ∀ v ∈ s.uses, u.num = v.num → u.buf = v.buf := by
  obtain ⟨xs, h⟩ := Shaped.of_run hrun
  refine ⟨xs, h.holds, h.count, h.count ▸ h.most, h.holds.nodup (), h.distinct, ?_, ?_, ?_⟩
  · intro e t hstep
    obtain ⟨ys, ht, hkeeps⟩ := h.step hstep
    exact ⟨ys, ht.holds, hkeeps⟩
  · intro u hu
    obtain ⟨hin, hnum⟩ := h.held u hu
    refine ⟨hin, ?_, hnum⟩
    rw [h.refs _ hin]
    exact_mod_cast countP_pos_iff.mpr ⟨u, hu, by simp⟩
  · intro u hu v hv heq
    obtain ⟨hinu, hnumu⟩ := h.held u hu
    obtain ⟨hinv, hnumv⟩ := h.held v hv
    exact h.distinct _ hinu _ hinv (by rw [hnumu, hnumv, heq])

instance (s : System β) (e : Event β) : Decidable (Permitted s e) := by
  cases e <;> unfold Permitted <;> infer_instance

def advance (guard : System β → Event β → Bool) (s : System β) (e : Event β) :
    Option (System β) :=
  if guard s e ∧ Permitted s e then perform s e else none

lemma advance_step {guard : System β → Event β → Bool} {e : Event β}
    (h : advance guard s e = some t) : guard s e = true ∧ Step s e t := by
  unfold advance at h
  split_ifs at h with hc
  exact ⟨hc.1, hc.2, h⟩

theorem bufcache_structure_shared : ∃ s : System ℕ,
    Run Step (start 1 1024 (fun _ => ⟨0, 0, 0, 0⟩) fun _ => 0)
      [.get 3 0 (some 1000) 0 .done (.failed 5), .get 3 1 none 0 .done .done,
        .get 3 2 none 0 .done .done] s ∧
      s.uses.length = 2 ∧ ∀ u ∈ s.uses, ∀ v ∈ s.uses, u.num = v.num → u.buf = v.buf := by
  refine (exists_run (p := fun s => s.uses.length = 2) (f := advance fun _ _ => true)
    (fun s e t h => (advance_step h).2) (by decide +kernel)).imp
    fun s ⟨hrun, huses⟩ => ⟨hrun, huses, ?_⟩
  obtain ⟨-, -, -, -, -, -, -, -, hshared⟩ := bufcache_structure hrun
  exact hshared

def Use.hold (u : Use) : Hold := ⟨u.token, u.buf, u.modified⟩

def System.idealBuf (s : System β) (a : ℕ) : Buf β :=
  if a ∈ s.unread then
    ⟨(s.cache.bufs a).refcount, (s.cache.bufs a).flags, (s.cache.bufs a).num,
      s.left (s.cache.bufs a).num⟩
  else s.cache.bufs a

def System.ideal (s : System β) : Bufcache.System β :=
  ⟨⟨s.cache.dev, s.cache.flags, s.cache.blockSize, s.cache.numEntries, s.cache.blocks,
    s.idealBuf⟩, s.disk, s.entries, s.uses.map Use.hold, s.left⟩

section Ideal
variable {a : ℕ}

lemma ideal_num : (s.ideal.cache.bufs a).num = (s.cache.bufs a).num := by
  change (s.idealBuf a).num = _
  unfold System.idealBuf
  split_ifs <;> rfl

lemma ideal_refcount : (s.ideal.cache.bufs a).refcount = (s.cache.bufs a).refcount := by
  change (s.idealBuf a).refcount = _
  unfold System.idealBuf
  split_ifs <;> rfl

lemma ideal_dirty : s.ideal.cache.dirty a ↔ s.cache.dirty a := by
  unfold Cache.dirty
  change (s.idealBuf a).flags &&& bfDirty ≠ 0 ↔ _
  unfold System.idealBuf
  split_ifs <;> rfl

lemma ideal_of_read (h : a ∉ s.unread) : s.ideal.cache.bufs a = s.cache.bufs a := if_neg h

lemma ideal_of_unread (h : a ∈ s.unread) :
    (s.ideal.cache.bufs a).block = s.left (s.cache.bufs a).num := by
  change (s.idealBuf a).block = _
  rw [System.idealBuf, if_pos h]

lemma ideal_marks : s.ideal.marks = s.marks := map_map
end Ideal

/-- The ideal cache is coherent, and buffers whose read failed are neither held nor modified. -/
structure Faithful (s : System β) (xs : List ℕ) : Prop where
  shaped : Shaped s xs
  coherent : Coherent s.ideal xs
  unread : ∀ a ∈ s.unread, a ∈ xs ∧ ¬ 0 < (s.cache.bufs a).refcount ∧ ¬ s.cache.dirty a
  nonzero : ∀ a ∈ xs, (s.cache.bufs a).num ≠ 0

lemma faithful_iff : Faithful s xs ↔ Shaped s xs ∧
    Contents s.cache s.disk s.left s.marks s.unread xs ∧ ∀ a ∈ xs, (s.cache.bufs a).num ≠ 0 := by
  constructor
  · intro h
    obtain ⟨-, -, hc⟩ := coherent_iff.mp h.coherent
    rw [ideal_marks] at hc
    refine ⟨h.shaped, ⟨hc.blockSize, fun a ha => ?_, fun a ha hread => ?_, fun a ha hd hw => ?_,
      fun num hn hno => ?_, h.unread⟩, h.nonzero⟩
    · have hin := hc.inside a ha
      rw [ideal_num] at hin
      exact hin
    · have hblock := hc.block a ha (by simp)
      rw [ideal_of_read hread] at hblock
      exact hblock
    · have hclean := hc.clean a ha (fun hd' => hd (ideal_dirty.mp hd')) hw
      rw [ideal_num] at hclean
      exact hclean
    · exact hc.absent num hn fun a ha => ideal_num.symm ▸ hno a ha
  · rintro ⟨h, hc, hnonzero⟩
    obtain ⟨he, -, hentries, -⟩ := shaped_iff.mp h
    refine ⟨h, coherent_iff.mpr ⟨?_, hentries, ?_⟩, hc.idle, hnonzero⟩
    · rw [ideal_marks]
      refine he.transfer (fun _ => Iff.rfl) rfl he.holds rfl rfl (fun _ => ideal_num)
        (fun a ha => ?_) he.held
      rw [ideal_refcount, he.refs a ha]
    · rw [ideal_marks]
      refine ⟨hc.blockSize, fun a ha => ?_, fun a ha _ => ?_, fun a ha hd hw => ?_,
        fun num hn hno => ?_, by simp⟩
      · rw [ideal_num]
        exact hc.inside a ha
      · by_cases hread : a ∈ s.unread
        · rw [ideal_of_unread hread, ideal_num]
          rfl
        · rw [ideal_of_read hread]
          exact hc.block a ha hread
      · rw [ideal_num]
        exact hc.clean a ha (fun hd' => hd (ideal_dirty.mpr hd')) hw
      · exact hc.absent num hn fun a ha => ideal_num (s := s) ▸ hno a ha

/-- Block numbers are in range, modified buffers are released as dirty, no buffer is asked for whose
last read failed, and no modified one is recycled by a failing write. -/
def Sound (s : System β) : Event β → Prop
  | .get num _ _ _ write _ => num ≠ 0 ∧ num * s.cache.blockSize < 2 ^ 32 ∧
    (∀ b ∈ (findBlock s.cache num).join, b ∉ s.unread) ∧
    ∀ b ∈ victim s.cache num, s.cache.dirty b → write.isDone = true
  | .release token dirty => ∀ u ∈ s.useOf token, u.modified = true → dirty = true
  | _ => True

lemma Faithful.get (h : Faithful s xs) {num : ℕ} {fresh : Option ℕ} {zero : β}
    {write read : Answer β} {r : Option ℕ × Cache β × (ℕ → β)}
    (hfresh : ∀ b ∈ fresh, b ∉ s.entries) (hg : Sound s (.get num token fresh zero write read))
    (hr : getBlock s.cache s.disk num fresh zero write read = some r) :
    (∃ ys, Faithful (s.afterGet num token fresh r) ys) ∧
      ∀ b ∈ r.1, (r.2.1.bufs b).num = num ∧ (r.2.1.bufs b).block = s.left num := by
  obtain ⟨hshaped, hc, hnonzero⟩ := faithful_iff.mp h
  obtain ⟨hzero, hnum, hfound, hvictim⟩ := hg
  have he := (shaped_iff.mp hshaped).1
  have hnew := hshaped.fresh_new hfresh
  have hsafe : Safe s.cache num s.unread write :=
    ⟨hnum, hfound, fun b hb hd => ⟨hnonzero b (he.victim_mem hb), hvictim b hb hd⟩⟩
  obtain ⟨ys, ht⟩ := he.get hnew hr
  obtain ⟨hc', hblock, -⟩ := hc.get he hsafe hr ht hnew
  have hmarks : (s.afterGet num token fresh r).marks = r.1.toList.map (·, false) ++ s.marks := by
    obtain ⟨_ | b, c, disk⟩ := r <;> rfl
  have hunread : (s.afterGet num token fresh r).unread =
      stillUnread s.unread r.1.isSome (claimed s.cache num fresh) := by
    dsimp only [System.afterGet]
    cases claimed s.cache num fresh <;> rfl
  refine ⟨⟨ys, faithful_iff.mpr ⟨(hshaped.taken ht).1, ?_, fun a ha hz => ?_⟩⟩,
    fun b hb => ⟨ht.found b hb, hblock b hb⟩⟩
  · rw [hmarks, hunread]
    exact hc'
  · rcases ht.kept a ha with hn | ⟨hx, hn⟩
    · exact hzero (hn.symm.trans hz)
    · exact hnonzero a hx (hn.symm.trans hz)

lemma Faithful.step (h : Faithful s xs) {e : Event β} (hstep : Guarded Sound Step s e t) :
    ∃ ys, Faithful t ys := by
  obtain ⟨hg, hstep⟩ := hstep
  obtain ⟨hshaped, hc, hnonzero⟩ := faithful_iff.mp h
  have he := (shaped_iff.mp hshaped).1
  have hkeep : (∀ num token fresh zero write read, e ≠ .get num token fresh zero write read) →
      Contents t.cache t.disk t.left t.marks t.unread xs → ∃ ys, Faithful t ys := by
    intro hget hc'
    obtain ⟨⟨hshaped', -⟩, hnum⟩ := hshaped.kept hstep hget
    exact ⟨xs, faithful_iff.mpr ⟨hshaped', hc',
      fun a ha hz => hnonzero a ha ((hnum a).symm.trans hz)⟩⟩
  obtain ⟨hperm, hdo⟩ := hstep
  cases e with
  | get num token fresh zero write read =>
    obtain ⟨r, hr, rfl⟩ := map_eq_some_iff.mp hdo
    exact (h.get hperm.2 hg hr).1
  | modify token value =>
    obtain ⟨u, hu, rfl⟩ := map_eq_some_iff.mp hdo
    exact hkeep nofun (hc.stored he (marks_perm (mem_of_useOf hu)) value)
  | markDirty token =>
    obtain ⟨u, hu, rfl⟩ := map_eq_some_iff.mp hdo
    have hmark : (u.buf, u.modified) ∈ s.marks := List.mem_map.mpr ⟨u, mem_of_useOf hu, rfl⟩
    exact hkeep nofun (hc.marked he hmark)
  | release token dirty =>
    obtain ⟨u, hu, rfl⟩ := map_eq_some_iff.mp hdo
    exact hkeep nofun (hc.released he (marks_perm (mem_of_useOf hu)) (hg u hu))
  | sync answers =>
    obtain ⟨r, hr, rfl⟩ := map_eq_some_iff.mp hdo
    obtain ⟨c, disk, hrun, -, -, hcontents⟩ := he.synced s.disk answers
    obtain rfl : (c, disk) = r := some.inj (hrun.symm.trans hr)
    exact hkeep nofun (hcontents s.left s.unread hc)

lemma faithful_start {dev blockSize : ℕ} (hsize : 0 < blockSize) (mem : ℕ → Buf β)
    (disk : ℕ → β) : Faithful (start dev blockSize mem disk) [] :=
  ⟨shaped_start dev blockSize mem disk, coherent_start hsize mem disk, by simp [start], by simp⟩

def System.Unsaved (s : System β) (num : ℕ) : Prop :=
  (∃ a ∈ s.entries, (s.cache.bufs a).num = num ∧ s.cache.dirty a) ∨
  ∃ u ∈ s.uses, u.modified = true ∧ u.num = num

/-- In every history of sound calls a block is answered with the contents its holders left, and
these are never lost. -/
theorem bufcache_survives_failures {dev blockSize : ℕ} (hsize : 0 < blockSize) {mem : ℕ → Buf β}
    {disk : ℕ → β} {es : List (Event β)} {s : System β}
    (hrun : Run (Guarded Sound Step) (start dev blockSize mem disk) es s) :
    (∀ num token fresh zero write read b c d, Permitted s (.get num token fresh zero write read) →
      Sound s (.get num token fresh zero write read) →
      getBlock s.cache s.disk num fresh zero write read = some (some b, c, d) →
      (c.bufs b).num = num ∧ (c.bufs b).block = s.left num) ∧
    (∀ num, num * s.cache.blockSize < 2 ^ 32 → ¬ s.Unsaved num →
      s.disk (num * s.cache.blockSize) = s.left num) ∧ ∀ num, num * s.cache.blockSize < 2 ^ 32 →
      (∃ a ∈ s.entries, a ∉ s.unread ∧ (s.cache.bufs a).num = num ∧
        (s.cache.bufs a).block = s.left num) ∨
      s.disk (num * s.cache.blockSize) = s.left num := by
  obtain ⟨xs, h⟩ := hrun.preserves (I := fun s => ∃ xs, Faithful s xs)
    ⟨[], faithful_start hsize mem disk⟩ (fun _ _ _ ⟨_, h⟩ hstep => h.step hstep)
  obtain ⟨hshaped, hc, -⟩ := faithful_iff.mp h
  have he := (shaped_iff.mp hshaped).1
  have hsaved : ∀ num, num * s.cache.blockSize < 2 ^ 32 → ¬ s.Unsaved num →
      s.disk (num * s.cache.blockSize) = s.left num := by
    intro num hnum hno
    by_cases hin : ∃ a ∈ xs, (s.cache.bufs a).num = num
    · obtain ⟨a, ha, rfl⟩ := hin
      refine hc.clean a ha (fun hd => hno (.inl ⟨a, (hshaped.entries a).mpr ha, rfl, hd⟩)) fun hw => ?_
      obtain ⟨u, hu, hmark⟩ := List.mem_map.mp hw
      obtain ⟨rfl, hm⟩ := Prod.mk.inj hmark
      exact hno (.inr ⟨u, hu, hm, (hshaped.held u hu).2.symm⟩)
    · exact hc.absent num hnum fun a ha hsame => hin ⟨a, ha, hsame⟩
  refine ⟨?_, hsaved, ?_⟩
  · intro num token fresh zero write read b c d hperm hg hget
    exact (h.get hperm.2 hg hget).2 b rfl
  · intro num hnum
    by_cases hin : ∃ a ∈ xs, a ∉ s.unread ∧ (s.cache.bufs a).num = num
    · obtain ⟨a, ha, hread, rfl⟩ := hin
      exact .inl ⟨a, (hshaped.entries a).mpr ha, hread, rfl, hc.block a ha hread⟩
    · refine .inr (hsaved num hnum ?_)
      rintro (⟨a, ha, han, hd⟩ | ⟨u, hu, -, hun⟩)
      · exact hin ⟨a, (hshaped.entries a).mp ha, fun hun => (hc.idle a hun).2.2 hd, han⟩
      · obtain ⟨hx, hnum'⟩ := hshaped.held u hu
        have hmark : (u.buf, u.modified) ∈ s.marks := List.mem_map.mpr ⟨u, hu, rfl⟩
        exact hin ⟨u.buf, hx, hc.read_of_used he hmark, hnum'.trans hun⟩

instance (s : System β) (e : Event β) : Decidable (Sound s e) :=
  match e with
  | .get .. | .modify .. | .markDirty _ | .release .. | .sync _ => by
    dsimp only [Sound]; infer_instance

theorem bufcache_survives_failed_sync : ∃ s : System ℕ,
    Run (Guarded Sound Step) (start 1 1024 (fun _ => ⟨0, 0, 0, 0⟩) fun _ => 0)
      [.get 3 0 (some 1000) 0 .done .done, .modify 0 7, .release 0 true,
        .sync fun _ => .failed 9] s ∧
    s.left 3 = 7 ∧ s.disk 3072 = 9 ∧ ∃ a ∈ s.entries, (s.cache.bufs a).block = 7 := by
  refine (exists_run (p := fun s => s.left 3 = 7 ∧ s.disk 3072 = 9 ∧ s.cache.blockSize = 1024)
    (guarded_of_advance fun _ _ _ _ => advance_step) (by decide +kernel)).imp
    fun s ⟨hrun, hleft, hdisk, hsize⟩ => ⟨hrun, hleft, hdisk, ?_⟩
  obtain ⟨-, -, hkept⟩ := bufcache_survives_failures (by decide) hrun
  rcases hkept 3 (by rw [hsize]; decide) with ⟨a, ha, -, -, hblock⟩ | hdisk'
  · exact ⟨a, ha, hblock.trans hleft⟩
  · rw [hsize, hleft] at hdisk'
    exact absurd (hdisk.symm.trans hdisk') (by decide)

theorem failed_read_is_answered : ∃ s : System ℕ,
    Run Step (start 1 1024 (fun _ => ⟨0, 0, 0, 0⟩) fun _ => 0)
      [.get 3 0 (some 1000) 0 .done (.failed 5)] s ∧ s.uses = [] ∧ s.left 3 = 0 ∧
      s.disk 3072 = 0 ∧ ∃ b c d, getBlock s.cache s.disk 3 none 0 .done .done = some (some b, c, d) ∧
        (c.bufs b).block = 5 := by
  refine (exists_run (p := fun s => s.uses = [] ∧ s.left 3 = 0 ∧ s.disk 3072 = 0 ∧
    ∃ r ∈ getBlock s.cache s.disk 3 none 0 .done .done, ∃ b ∈ r.1, (r.2.1.bufs b).block = 5)
    (f := advance fun _ _ => true) (fun s e t h => (advance_step h).2) (by decide +kernel)).imp
    fun s ⟨hrun, huses, hleft, hdisk, ⟨a, c, d⟩, hg, b, ha, hb⟩ =>
      ⟨hrun, huses, hleft, hdisk, b, c, d, ?_, hb⟩
  obtain rfl : a = some b := ha
  exact hg

end Gloworm.BufcacheFault
