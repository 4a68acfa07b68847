import Gloworm.MinixZones

/-! Lookups of the zones of a file, with as many free zones that can be read as there are tables to
be made and with fewer. -/
namespace Gloworm.MinixZone
open Word Bitmap ByteOrder MinixBitmap TableForest Transition List Option

/-- One call of `minix_alloc_zone` for the place `e.1` of a file, with its answer `e.2`. -/
def GrowStep (super : Super) (readable : ℕ → Bool) (file i : ℕ) (s : Store) (e : List ℕ × ℕ)
    (s' : Store) : Prop :=
  e.2 = 0 ∧ Spoiled super s s' ∨ Grown super readable s s' file i e.1 e.2

section Grows
variable {super : Super} {readable : ℕ → Bool} {s s' : Store} {file i : ℕ}
  {steps : List (List ℕ × ℕ)}

section
variable {r : ℕ × ℕ} {q : List ℕ} (hrun : Run (GrowStep super readable file i) s steps s')
include hrun

lemma Grows.sound (hs : Sound super s) : Sound super s' := by
  refine hrun.preserves hs ?_
  rintro _ _ _ _ (⟨-, hspoiled⟩ | hgrown)
  · exact hspoiled.sound
  · exact hgrown.sound

lemma Grows.block (hq : shape.Valid r q) : s'.forest.block r q = s.forest.block r q ∨
      s.forest.block r q = 0 ∧ r = (file, i) ∧ (q, s'.forest.block r q) ∈ steps := by
  induction hrun with
  | nil => exact .inl rfl
  | @snoc t u es e _ hnext ih =>
    have hkeep (h : u.forest.block r q = t.forest.block r q) :
        u.forest.block r q = s.forest.block r q ∨ s.forest.block r q = 0 ∧ r = (file, i) ∧
          (q, u.forest.block r q) ∈ es ++ [e] := by
      rw [h]
      rcases ih with hsame | ⟨hzero, hr, hmem⟩
      · exact .inl hsame
      · exact .inr ⟨hzero, hr, mem_append_left _ hmem⟩
    rcases hnext with ⟨-, hnext⟩ | hnext
    · exact hkeep (hnext.block r q hq)
    · have hblock := hnext.block r q hq
      split_ifs at hblock with hnew
      · obtain ⟨rfl, rfl⟩ := hnew
        right
        refine ⟨?_, rfl, ?_⟩
        · rcases ih with hsame | ⟨hzero, -⟩
          · rw [← hsame]
            exact hnext.empty
          · exact hzero
        · rw [hblock]
          simp
      · exact hkeep hblock

/-- What a file has is never replaced. -/
lemma Grows.keeps (hq : shape.Valid r q) (hne : s.forest.block r q ≠ 0) :
    s'.forest.block r q = s.forest.block r q := by
  rcases Grows.block hrun hq with hsame | ⟨hzero, -⟩
  · exact hsame
  · exact absurd hzero hne

lemma Grows.disk {b : ℕ} (hb : s'.disk b ≠ s.disk b) : b ∈ steps.map Prod.snd ∨ InBitmap super b ∨
      ∃ q, shape.Inner (file, i) q ∧ s.forest.block (file, i) q ≠ 0 ∧
        s.forest.block (file, i) q = b := by
  induction hrun with
  | nil => exact absurd rfl hb
  | @snoc t u es e hprior hnext ih =>
    by_cases hlast : u.disk b = t.disk b
    · rw [hlast] at hb
      rcases ih hb with hmem | hrest
      · left
        rw [map_append]
        exact mem_append_left _ hmem
      · exact .inr hrest
    · rcases hnext with ⟨-, hnext⟩ | hnext
      · exact .inr (.inl (hnext.disk b hlast))
      rcases hnext.disk b hlast with rfl | hbitmap | ⟨hpath, rfl⟩
      · exact .inl (by simp)
      · exact .inr (.inl hbitmap)
      · have hinner : shape.Inner (file, i) e.1.dropLast := by
          obtain ⟨p, j, heq⟩ := (eq_nil_or_concat' e.1).resolve_left hpath
          have hvalid := hnext.valid
          rw [heq] at hvalid ⊢
          rw [dropLast_concat]
          exact hvalid.inner_of_snoc
        have hne : t.forest.block (file, i) e.1.dropLast ≠ 0 := hnext.parent.resolve_left hpath
        rcases Grows.block hprior hinner.1 with hsame | ⟨-, -, hmem⟩
        · right; right
          exact ⟨_, hinner, hsame ▸ hne, hsame.symm⟩
        · left
          rw [map_append]
          exact mem_append_left _ (List.mem_map_of_mem (f := Prod.snd) hmem)

lemma Grows.eq_of_full (hfull : freeZones super s.disk = 0) : s' = s := by
  induction hrun with
  | nil => rfl
  | snoc _ hnext ih =>
    subst ih
    rcases hnext with ⟨-, hnext⟩ | hnext
    · exact hnext.same hfull
    · have hfree := hnext.free
      omega

lemma Grows.free : freeZones super s'.disk = freeZones super s.disk - steps.length := by
  induction hrun with
  | nil => rfl
  | snoc _ hnext ih =>
    rw [length_append, length_singleton]
    rcases hnext with ⟨-, hnext⟩ | hnext
    · have hfree := hnext.free
      omega
    · have hfree := hnext.free
      omega
end
end Grows

lemma freeZones_congr {super : Super} {disk disk' : Disk}
    (hblocks : super.zoneBitmapStart + super.zmapBlocks ≤ 2 ^ 32)
    (h : ∀ b, InBitmap super b → disk' b = disk b) :
    freeZones super disk' = freeZones super disk := by
  rw [freeZones, freeZones]
  congr 1
  apply Finset.filter_congr
  intro n hn
  have hlt := Finset.mem_range.mp hn
  have hmod : (super.zoneBitmapStart + n / 8192) % 2 ^ 32 = super.zoneBitmapStart + n / 8192 :=
    Nat.mod_eq_of_lt (by omega)
  rw [bit, bit, hmod, h _ ⟨by omega, by omega⟩]

section Counts
variable (readable : ℕ → Bool) (t : Forest (ℕ × ℕ)) (r : ℕ × ℕ)

/-- The tables that have to be made on the way from `p`. A table that cannot be read ends it. -/
def missingTables : List ℕ → List ℕ → ℕ
  | _, [] => 0
  | p, j :: rest =>
    if t.block r p = 0 then 1 + missingTables (p ++ [j]) rest
    else if readable (t.block r p) then missingTables (p ++ [j]) rest
    else 0

/-- The zones that are asked for on the way from `p`: the missing tables, and the zone at its end. -/
def wantedZones : List ℕ → List ℕ → ℕ
  | p, [] => if t.block r p = 0 then 1 else 0
  | p, j :: rest =>
    if t.block r p = 0 then 1 + wantedZones (p ++ [j]) rest
    else if readable (t.block r p) then wantedZones (p ++ [j]) rest
    else 0
end Counts

variable {p rest path : List ℕ} {i : ℕ}

lemma missingTables_le (readable : ℕ → Bool) (t : Forest (ℕ × ℕ)) (r : ℕ × ℕ) :
    missingTables readable t r p rest ≤ wantedZones readable t r p rest := by
  induction rest generalizing p with
  | nil => exact Nat.zero_le _
  | cons j rest ih =>
    rw [missingTables, wantedZones]
    split_ifs
    · exact Nat.add_le_add_left ih 1
    · exact ih
    · exact le_rfl

lemma counts_congr {readable : ℕ → Bool} {t t' : Forest (ℕ × ℕ)} {r : ℕ × ℕ}
    (h : ∀ q, p.length ≤ q.length → shape.Valid r q → t'.block r q = t.block r q)
    (hvalid : shape.Valid r (p ++ rest)) :
    missingTables readable t' r p rest = missingTables readable t r p rest ∧
      wantedZones readable t' r p rest = wantedZones readable t r p rest := by
  induction rest generalizing p with
  | nil =>
    rw [append_nil] at hvalid
    rw [wantedZones, wantedZones, h p le_rfl hvalid]
    exact ⟨rfl, rfl⟩
  | cons j rest ih =>
    obtain ⟨hmissing, hwanted⟩ := ih (p := p ++ [j]) (fun q hq => h q (by
      rw [length_append] at hq
      omega)) (by simpa using hvalid)
    rw [missingTables, missingTables, wantedZones, wantedZones, h p le_rfl hvalid.of_append,
      hmissing, hwanted]
    exact ⟨rfl, rfl⟩

section
variable {super : Super} {readable : ℕ → Bool} {s s' : Store} {file zone : ℕ}
  (h : Grown super readable s s' file i p zone)
include h

lemma Grown.zone_eq : s'.forest.block (file, i) p = zone := by
  simp [h.block _ _ h.valid]

lemma Grown.counts {j : ℕ} (hvalid : shape.Valid (file, i) (p ++ [j] ++ rest)) :
    missingTables readable s'.forest (file, i) (p ++ [j]) rest =
        missingTables readable s.forest (file, i) (p ++ [j]) rest ∧
      wantedZones readable s'.forest (file, i) (p ++ [j]) rest =
        wantedZones readable s.forest (file, i) (p ++ [j]) rest := by
  refine counts_congr ?_ hvalid
  intro q hq hvalid'
  rw [h.block _ _ hvalid', if_neg]
  rintro ⟨-, rfl⟩
  simp at hq
end

/-- What a lookup leaves behind that has not followed a table of no file. -/
structure Outcome (super : Super) (readable : ℕ → Bool) (s : Store) (file i : ℕ) (path : List ℕ)
    (found : Found) : Prop where
  grows : ∃ steps, Run (GrowStep super readable file i) s steps found.store ∧
    steps.map Prod.snd = found.taken
  zone : found.zone ≠ 0 → found.zone = found.store.forest.block (file, i) path
  read : ∀ b ∈ found.read, b ≠ 0 ∧
    ∃ q, shape.Inner (file, i) q ∧ found.store.forest.block (file, i) q = b
  failed : 0 ∈ found.taken → found.zone = 0

section Loop
variable {super : Super} {readable : ℕ → Bool} {create : Bool} {s : Store} {file : ℕ}

lemma outcome_stop {zone : ℕ} (hblock : zone ≠ 0 → s.forest.block (file, i) path = zone) :
    Outcome super readable s file i path ⟨zone, s, [], []⟩ :=
  ⟨⟨[], .nil s, rfl⟩, fun hne => (hblock hne).symm, by simp, by simp⟩

lemma outcome_spoiled {s' : Store} (h : Spoiled super s s') :
    Outcome super readable s file i path ⟨0, s', [], [0]⟩ := by
  have hstep : GrowStep super readable file i s (path, 0) s' := .inl ⟨rfl, h⟩
  exact ⟨⟨[(path, 0)], .one hstep, rfl⟩, fun hne => absurd rfl hne, by simp, by simp⟩

lemma Outcome.through {found : Found} {j : ℕ}
    (h : Outcome super readable s file i (p ++ j :: rest) found)
    (hvalid : shape.Valid (file, i) (p ++ j :: rest)) (hne : s.forest.block (file, i) p ≠ 0) :
    Outcome super readable s file i (p ++ j :: rest)
      { found with read := s.forest.block (file, i) p :: found.read } := by
  obtain ⟨⟨steps, hrun, htaken⟩, hzone, hread, hfailed⟩ := h
  refine ⟨⟨steps, hrun, htaken⟩, hzone, ?_, hfailed⟩
  have hinner : shape.Inner (file, i) p := by
    have hsnoc : shape.Valid (file, i) (p ++ [j] ++ rest) := by simpa using hvalid
    exact hsnoc.of_append.inner_of_snoc
  intro b hb
  rcases mem_cons.mp hb with rfl | hb
  · exact ⟨hne, p, hinner, Grows.keeps hrun hinner.1 hne⟩
  · exact hread b hb

lemma Outcome.after {found : Found} {zone : ℕ} {s' : Store}
    (hgrown : Grown super readable s s' file i p zone)
    (h : Outcome super readable s' file i path found) :
    Outcome super readable s file i path { found with taken := zone :: found.taken } := by
  obtain ⟨⟨steps, hrun, htaken⟩, hzone, hread, hfailed⟩ := h
  have hne := hgrown.fresh.1
  have hstep : GrowStep super readable file i s (p, zone) s' := .inr hgrown
  refine ⟨⟨(p, zone) :: steps, (Run.one hstep).trans hrun, ?_⟩, hzone, hread, ?_⟩
  · simp [htaken]
  · intro hzero
    rcases mem_cons.mp hzero with heq | hmem
    · exact absurd heq.symm hne
    · exact hfailed hmem

section
variable (hs : Sound super s) (hi : i < minixV1InodeZonenums)
  (hvalid : shape.Valid (file, i) (p ++ rest))
  (hparent : p = [] ∨ s.forest.block (file, i) p.dropLast ≠ 0)
include hs hi hvalid hparent

/-- With a ready zone for each missing table only tables of the file are followed, and an allocation
fails exactly if more zones are asked for than are ready. -/
lemma zoneLoop_outcome (hroom : create = true →
      missingTables readable s.forest (file, i) p rest ≤ readyZones super readable s.disk ∨
        readable 0 = false) :
    Outcome super readable s file i (p ++ rest)
        (zoneLoop super readable create rest s (s.slot file i p)) ∧
      (0 ∈ (zoneLoop super readable create rest s (s.slot file i p)).taken ↔ create = true ∧
        readyZones super readable s.disk < wantedZones readable s.forest (file, i) p rest) := by
  -- Over the tiers still to walk: a zone allocated on the way is one ready zone less, and one
  -- missing table less, so that the bound on the tables carries over to the next tier.
  induction rest generalizing s p with
  | nil =>
    rw [append_nil] at hvalid ⊢
    rw [zoneLoop, get_slot hi hparent, wantedZones]
    by_cases hblock : s.forest.block (file, i) p = 0
    · rw [if_neg (by simpa using hblock), if_pos hblock]
      cases create with
      | false => exact ⟨outcome_stop fun _ => hblock, by simp⟩
      | true =>
        rcases fillSlot_cases hs hi hvalid hparent hblock readable with
          ⟨hnone, s', heq, hspoiled⟩ | ⟨zone, s', heq, hgrown⟩
        · rw [heq]
          exact ⟨outcome_spoiled hspoiled, by simp [hnone]⟩
        · have hne := hgrown.fresh.1
          have hready := hgrown.ready
          rw [heq]
          simp only [if_true, Nat.mod_eq_of_lt hgrown.zone_lt]
          refine ⟨(outcome_stop fun _ => hgrown.zone_eq).after hgrown, ?_⟩
          simp only [mem_singleton, hne.symm, false_iff, true_and]
          omega
    · rw [if_pos hblock, if_neg hblock]
      exact ⟨outcome_stop fun _ => rfl, by simp⟩
  | cons j rest ih =>
    have hsnoc : shape.Valid (file, i) (p ++ [j] ++ rest) := by simpa using hvalid
    have happend : p ++ j :: rest = p ++ [j] ++ rest := by simp
    rw [zoneLoop, get_slot hi hparent, wantedZones]
    by_cases hblock : s.forest.block (file, i) p = 0
    · rw [if_neg (by simpa using hblock), if_pos hblock]
      cases create with
      | false => exact ⟨outcome_stop fun _ => block_append_of_zero hblock _, by simp⟩
      | true =>
        have hroom := hroom rfl
        rw [missingTables, if_pos hblock] at hroom
        rcases fillSlot_cases hs hi hvalid.of_append hparent hblock readable with
          ⟨hnone, s', heq, hspoiled⟩ | ⟨zone, s', heq, hgrown⟩
        · -- The failed allocation leaves zone 0, and the loop stops as block 0 cannot be read.
          have hboot : readable 0 = false := hroom.resolve_left (by omega)
          rw [heq]
          simp only [if_true, Nat.zero_mod, hboot, Bool.false_eq_true, if_false]
          refine ⟨outcome_spoiled hspoiled, ?_⟩
          simp only [mem_singleton, true_and, true_iff]
          omega
        · have hzone := hgrown.zone_eq
          obtain ⟨hmissing, hwanted⟩ := hgrown.counts hsnoc
          have hready := hgrown.ready
          have hne := hgrown.fresh.1
          obtain ⟨hnext, hfails⟩ := ih hgrown.sound hsnoc (.inr (by simpa [hzone] using hne))
            fun _ => hroom.imp_left fun _ => by omega
          rw [heq]
          simp only [if_true, Nat.mod_eq_of_lt hgrown.zone_lt, hgrown.readable_zone]
          rw [slot_snoc, hzone] at hnext hfails
          constructor
          · rw [← happend] at hnext
            have hthrough := hnext.through hvalid (by simpa [hzone] using hne)
            rw [hzone] at hthrough
            exact hthrough.after hgrown
          · rw [mem_cons, or_iff_right hne.symm, hfails, hwanted]
            simp only [true_and]
            omega
    · rw [if_pos hblock, if_neg hblock]
      rw [missingTables, if_neg hblock] at hroom
      cases hread : readable (s.forest.block (file, i) p) with
      | false => exact ⟨outcome_stop fun hne => absurd rfl hne, by simp⟩
      | true =>
        rw [hread] at hroom
        obtain ⟨hnext, hfails⟩ := ih hs hsnoc (.inr (by simpa using hblock)) hroom
        rw [slot_snoc] at hnext hfails
        rw [← happend] at hnext
        exact ⟨hnext.through hvalid hblock, hfails⟩

/-- With fewer of them the boot block is read in the place of a table. -/
lemma zoneLoop_reads_zero (hboot : readable 0 = true) (hroom : readyZones super readable s.disk <
      missingTables readable s.forest (file, i) p rest) :
    0 ∈ (zoneLoop super readable true rest s (s.slot file i p)).read := by
  induction rest generalizing s p with
  | nil => simp [missingTables] at hroom
  | cons j rest ih =>
    have hsnoc : shape.Valid (file, i) (p ++ [j] ++ rest) := by simpa using hvalid
    rw [zoneLoop, get_slot hi hparent]
    rw [missingTables] at hroom
    by_cases hblock : s.forest.block (file, i) p = 0
    · rw [if_pos hblock] at hroom
      rw [if_neg (by simpa using hblock)]
      rcases fillSlot_cases hs hi hvalid.of_append hparent hblock readable with
        ⟨-, s', heq, -⟩ | ⟨zone, s', heq, hgrown⟩
      · rw [heq]
        simp [hboot]
      · have hzone := hgrown.zone_eq
        have hmissing := (hgrown.counts hsnoc).1
        have hready := hgrown.ready
        have hnext := ih hgrown.sound hsnoc (.inr (by simpa [hzone] using hgrown.fresh.1))
          (by omega)
        rw [heq]
        simp only [if_true, Nat.mod_eq_of_lt hgrown.zone_lt, hgrown.readable_zone]
        rw [slot_snoc, hzone] at hnext
        exact mem_cons_of_mem _ hnext
    · rw [if_neg hblock] at hroom
      rw [if_pos hblock]
      cases hread : readable (s.forest.block (file, i) p) with
      | false => simp [hread] at hroom
      | true =>
        rw [hread] at hroom
        have hnext := ih hs hsnoc (.inr (by simpa using hblock)) hroom
        rw [slot_snoc] at hnext
        exact mem_cons_of_mem _ hnext
end
end Loop

lemma zoneCalculateTier_valid {znum : ℕ} (h : zoneCalculateTier znum = some (i, rest)) (file : ℕ) :
    i < minixV1InodeZonenums ∧ shape.Valid (file, i) rest ∧ rest.length = tierDepth i := by
  have hand : ∀ n : ℕ, n &&& 512 - 1 = n % 512 := fun n => Nat.and_two_pow_sub_one_eq_mod n 9
  have hwidth : minixV1ZonenumsPerZone = 512 := rfl
  have htier : minixV1Tier1Zonenums = 7 := rfl
  rw [zoneCalculateTier] at h
  simp only [Nat.shiftRight_eq_div_pow, hwidth, htier] at h
  split_ifs at h with hdirect hsingle hdouble
  · obtain ⟨rfl, rfl⟩ := Prod.mk.inj (some.inj h)
    have hdepth : tierDepth znum = 0 := if_pos hdirect
    have hi : znum < 9 := by omega
    exact ⟨hi, ⟨by simp, by simp⟩, hdepth.symm⟩
  · obtain ⟨rfl, rfl⟩ := Prod.mk.inj (some.inj h)
    refine ⟨by decide, ⟨by simp [shape, tierDepth, minixV1Tier1Zonenums], ?_⟩, rfl⟩
    intro j hj
    obtain rfl := mem_singleton.mp hj
    exact hsingle
  · obtain ⟨rfl, rfl⟩ := Prod.mk.inj (some.inj h)
    refine ⟨by decide, ⟨by simp [shape, tierDepth, minixV1Tier1Zonenums], ?_⟩, rfl⟩
    intro j hj
    change j < 512
    rcases mem_cons.mp hj with rfl | hj
    · omega
    · obtain rfl := mem_singleton.mp hj
      rw [hand]
      omega

structure Lookup where
  create : Bool
  file : ℕ
  znum : ℕ

section Calls
variable (super : Super) (readable : ℕ → Bool) (s : Store) (call : Lookup)

def Lookup.found : Found := zoneLookup super readable call.create s call.file call.znum

def Lookup.missing : ℕ :=
  match zoneCalculateTier call.znum with
  | none => 0
  | some (i, rest) => missingTables readable s.forest (call.file, i) [] rest

def Lookup.wanted : ℕ :=
  match zoneCalculateTier call.znum with
  | none => 0
  | some (i, rest) => wantedZones readable s.forest (call.file, i) [] rest

def LookupStep (s' : Store) : Prop := (call.found super readable s).store = s'

/-- A free zone that can be read for each table that is to be made, or a boot block that cannot be
read in its place. -/
def Enough : Prop :=
  call.create = false ∨ call.missing readable s ≤ readyZones super readable s.disk ∨
    readable 0 = false

def BelongsTo (file zone : ℕ) : Prop :=
  ∃ i path, shape.Valid (file, i) path ∧ s.forest.block (file, i) path = zone

def TableOf (file block : ℕ) : Prop :=
  ∃ i path, shape.Inner (file, i) path ∧ s.forest.block (file, i) path ≠ 0 ∧
    s.forest.block (file, i) path = block

/-- Only zones of the file are read as tables or answered; without a free zone the answer is 0 and
only tables of the file are written. -/
structure Contained : Prop where
  read : ∀ b ∈ (call.found super readable s).read,
    b ≠ 0 ∧ BelongsTo (call.found super readable s).store call.file b
  zone : (call.found super readable s).zone ≠ 0 →
    BelongsTo (call.found super readable s).store call.file (call.found super readable s).zone
  failed : 0 ∈ (call.found super readable s).taken → (call.found super readable s).zone = 0
  written : 0 ∈ (call.found super readable s).taken → ∀ b,
    (call.found super readable s).store.disk b ≠ s.disk b →
      b ∈ (call.found super readable s).taken ∨ InBitmap super b ∨ TableOf s call.file b

def OnlyTables : Prop :=
  0 ∈ (call.found super readable s).taken → ∀ b,
    (call.found super readable s).store.disk b ≠ s.disk b → TableOf s call.file b
end Calls
section Contained
variable {super : Super} {readable : ℕ → Bool} {s : Store} {call : Lookup}

lemma Outcome.contained (hvalid : shape.Valid (call.file, i) path)
    (h : Outcome super readable s call.file i path (call.found super readable s)) :
    Contained super readable s call := by
  obtain ⟨steps, hrun, htaken⟩ := h.grows
  refine ⟨?_, fun hne => ⟨i, path, hvalid, (h.zone hne).symm⟩, h.failed, ?_⟩
  · intro b hb
    obtain ⟨hne, q, hq, heq⟩ := h.read b hb
    exact ⟨hne, i, q, hq.1, heq⟩
  · intro _ b hb
    rcases Grows.disk hrun hb with hmem | hbitmap | ⟨q, hq, hne, heq⟩
    · rw [htaken] at hmem
      exact .inl hmem
    · exact .inr (.inl hbitmap)
    · exact .inr (.inr ⟨i, q, hq, hne, heq⟩)

lemma found_none (h : zoneCalculateTier call.znum = none) :
    call.found super readable s = ⟨0, s, [], []⟩ := by
  rw [Lookup.found, zoneLookup, h]

lemma found_some (h : zoneCalculateTier call.znum = some (i, rest)) : call.found super readable s =
      zoneLoop super readable call.create rest s (s.slot call.file i []) := by
  rw [Lookup.found, zoneLookup, h]
  rfl

section
variable (hs : Sound super s)
include hs

lemma found_outcome (henough : Enough super readable s call)
    (h : zoneCalculateTier call.znum = some (i, rest)) :
    Outcome super readable s call.file i rest (call.found super readable s) ∧
      (0 ∈ (call.found super readable s).taken ↔ call.create = true ∧
        readyZones super readable s.disk < call.wanted readable s) := by
  obtain ⟨hi, hvalid, -⟩ := zoneCalculateTier_valid h call.file
  rw [found_some h, Lookup.wanted, h]
  refine zoneLoop_outcome hs hi hvalid (.inl rfl) ?_
  intro hcreate
  rcases henough with hfalse | hroom
  · rw [hcreate] at hfalse
    cases hfalse
  · simpa only [Lookup.missing, h] using hroom

lemma contained_iff : Contained super readable s call ↔ Enough super readable s call := by
  cases h : zoneCalculateTier call.znum with
  | none =>
    have hfound : call.found super readable s = ⟨0, s, [], []⟩ := found_none h
    refine ⟨fun _ => .inr (.inl (by simp [Lookup.missing, h])), fun _ => ?_⟩
    constructor <;> simp [hfound]
  | some tiers =>
    obtain ⟨i, rest⟩ := tiers
    obtain ⟨hi, hvalid, -⟩ := zoneCalculateTier_valid h call.file
    constructor
    · intro hcontained
      by_contra hnot
      obtain ⟨hcreate, hless, hboot⟩ : call.create = true ∧ readyZones super readable s.disk <
          missingTables readable s.forest (call.file, i) [] rest ∧ readable 0 = true := by
        simpa [Enough, Lookup.missing, h] using hnot
      have hzero : 0 ∈ (call.found super readable s).read := by
        rw [found_some h, hcreate]
        exact zoneLoop_reads_zero hs hi hvalid (.inl rfl) hboot hless
      exact (hcontained.read 0 hzero).1 rfl
    · intro henough
      exact (found_outcome hs henough h).1.contained hvalid

lemma sound_found (henough : Enough super readable s call) :
    Sound super (call.found super readable s).store := by
  cases h : zoneCalculateTier call.znum with
  | none =>
    rw [found_none h]
    exact hs
  | some tiers =>
    obtain ⟨steps, hrun, -⟩ := (found_outcome hs henough h).1.grows
    exact Grows.sound hrun hs
end

lemma missing_le_wanted (readable : ℕ → Bool) (s : Store) (call : Lookup) :
    call.missing readable s ≤ call.wanted readable s := by
  rw [Lookup.missing, Lookup.wanted]
  split
  · exact le_rfl
  · exact missingTables_le _ _ _

lemma found_fails_iff (hs : Sound super s) (henough : Enough super readable s call) :
    0 ∈ (call.found super readable s).taken ↔
      call.create = true ∧ readyZones super readable s.disk < call.wanted readable s := by
  cases h : zoneCalculateTier call.znum with
  | none => simp [found_none h, Lookup.wanted, h]
  | some tiers => exact (found_outcome hs henough h).2

lemma not_tableOf_inBitmap (hs : Sound super s) {b : ℕ} (hb : InBitmap super b) (file : ℕ) :
    ¬TableOf s file b := by
  rintro ⟨i, path, hinner, hne, rfl⟩
  have hge := hs.reached_ge hinner.1 hne
  have hlayout := hs.layout
  have hlt := hb.2
  rw [Super.zoneBitmapStart] at hlt
  omega

/-- A failed call sets a bit unless all of them were set before. -/
lemma onlyTables_of_enough (hs : Sound super s) (henough : Enough super readable s call) :
    OnlyTables super readable s call ↔
      (0 ∈ (call.found super readable s).taken → freeZones super s.disk = 0) := by
  cases h : zoneCalculateTier call.znum with
  | none => simp [OnlyTables, found_none h]
  | some tiers =>
    obtain ⟨i, rest⟩ := tiers
    obtain ⟨steps, hrun, htaken⟩ := (found_outcome hs henough h).1.grows
    constructor
    · intro honly hzero
      -- Each answer sets a bit as long as one is clear, and no table lies in the bitmap.
      have hlayout := hs.layout
      have hfirst := hs.first
      have hsame : freeZones super (call.found super readable s).store.disk =
          freeZones super s.disk := by
        apply freeZones_congr
        · rw [Super.zoneBitmapStart]
          omega
        · intro b hb
          by_contra hne
          exact not_tableOf_inBitmap hs hb _ (honly hzero b hne)
      have hcount := Grows.free hrun
      have hpos : 0 < steps.length := by
        rw [← htaken] at hzero
        simpa using length_pos_of_mem hzero
      omega
    · intro hfull hzero b hb
      rw [Grows.eq_of_full hrun (hfull hzero)] at hb
      exact absurd rfl hb

lemma onlyTables_iff (hs : Sound super s) :
    Contained super readable s call ∧ OnlyTables super readable s call ↔
      call.create = false ∨ call.wanted readable s ≤ readyZones super readable s.disk ∨
        freeZones super s.disk = 0 ∧ (call.missing readable s = 0 ∨ readable 0 = false) := by
  have hle := missing_le_wanted readable s call
  have hready := readyZones_le super readable s.disk
  rw [contained_iff hs]
  constructor
  · rintro ⟨henough, honly⟩
    rw [onlyTables_of_enough hs henough, found_fails_iff hs henough] at honly
    by_cases hcreate : call.create = false
    · exact .inl hcreate
    by_cases hwanted : call.wanted readable s ≤ readyZones super readable s.disk
    · exact .inr (.inl hwanted)
    have hfull := honly ⟨by simpa using hcreate, by omega⟩
    exact .inr (.inr ⟨hfull, (henough.resolve_left hcreate).imp_left fun _ => by omega⟩)
  · intro hcases
    have henough : Enough super readable s call := by
      rcases hcases with hcreate | hwanted | ⟨-, hnone | hboot⟩
      · exact .inl hcreate
      · exact .inr (.inl (by omega))
      · exact .inr (.inl (by omega))
      · exact .inr (.inr hboot)
    refine ⟨henough, ?_⟩
    rw [onlyTables_of_enough hs henough, found_fails_iff hs henough]
    rintro ⟨hcreate, hless⟩
    rcases hcases with hfalse | hwanted | ⟨hfull, -⟩
    · simp [hcreate] at hfalse
    · omega
    · exact hfull

/-- Lookups are contained as long as there is a free zone that can be read for each table that is to
be made. -/
theorem lookups_contained_iff {s' : Store} {calls : List Lookup} (hs : Sound super s)
    (hrun : Run (Guarded (Enough super readable) (LookupStep super readable)) s calls s') :
    (Contained super readable s' call ↔ Enough super readable s' call) ∧
      (Contained super readable s' call ∧ OnlyTables super readable s' call ↔
        call.create = false ∨ call.wanted readable s' ≤ readyZones super readable s'.disk ∨
          freeZones super s'.disk = 0 ∧ (call.missing readable s' = 0 ∨ readable 0 = false)) := by
  have hs' : Sound super s' := by
    refine hrun.preserves hs ?_
    rintro t call u ht ⟨henough, rfl⟩
    exact sound_found ht henough
  exact ⟨contained_iff hs', onlyTables_iff hs'⟩
end Contained

def emptyStore (first rest boot : Byte) : Store where
  disk b k := if b = 3 then if k = 0 then first else rest else if b = 0 then boot else 0#8
  zones _ _ := 0

lemma emptyStore_block (first rest boot : Byte) (r : ℕ × ℕ) (p : List ℕ) :
    (emptyStore first rest boot).forest.block r p = 0 := by
  have hroot : (emptyStore first rest boot).forest.block r [] = 0 := by
    simp [Store.forest, emptyStore]
  simpa using block_append_of_zero hroot p

lemma emptyStore_bit (first rest boot : Byte) {n : ℕ} (hn : n < 8192) :
    bit (emptyStore first rest boot).disk mkfsSuper.zoneBitmapStart n =
      (if n / 8 = 0 then first else rest).getLsbD (n % 8) := by
  have hstart : mkfsSuper.zoneBitmapStart = 3 := rfl
  rw [hstart, bit_eq_bitAt _ hn]
  rfl

lemma emptyStore_sound {first rest boot : Byte} (hfirst : first.getLsbD 0 = true) :
    Sound mkfsSuper (emptyStore first rest boot) := by
  refine ⟨by decide, by decide, ?_, ?_, ?_⟩
  · intro r p _ _ _ _ _ hne
    exact absurd (emptyStore_block _ _ _ r p) hne
  · intro r p _ hne
    exact absurd (emptyStore_block _ _ _ r p) hne
  · intro n hn hclear
    have hn : n < 8192 := hn
    rw [emptyStore_bit _ _ _ hn] at hclear
    constructor
    · rcases Nat.eq_zero_or_pos n with rfl | hpos
      · exact absurd (hfirst.symm.trans hclear) (by decide)
      · exact hpos
    · change n + 6 - 1 < 2 ^ 16
      omega

/-- The device of a file system of eight blocks. -/
def eightBlocks (b : ℕ) : Bool := b < 8

theorem new_table_contained :
    Contained mkfsSuper eightBlocks (emptyStore 0x03#8 0#8 0#8) ⟨true, 1, 7⟩ := by
  have hsound : Sound mkfsSuper (emptyStore 0x03#8 0#8 0#8) := emptyStore_sound (by decide)
  have hmissing : (⟨true, 1, 7⟩ : Lookup).missing eightBlocks (emptyStore 0x03#8 0#8 0#8) = 1 := by
    decide +kernel
  have hready : 0 < readyZones mkfsSuper eightBlocks (emptyStore 0x03#8 0#8 0#8).disk := by
    rw [readyZones, Finset.card_pos]
    refine ⟨2, Finset.mem_filter.mpr ⟨Finset.mem_range.mpr (by decide), ?_, ?_⟩⟩
    · rw [emptyStore_bit _ _ _ (by norm_num)]
      decide
    · intro m hm _
      have hzone : zoneOf mkfsSuper m < 8 := by
        change m + 6 - 1 < 8
        omega
      exact decide_eq_true hzone
  exact (lookups_contained_iff hsound (.nil _)).1.mpr (.inr (.inl (by omega)))

/-- The first clear bit stands for block 8, behind the end of the device. -/
lemma eightBlocks_not_ready (boot : Byte) :
    readyZones mkfsSuper eightBlocks (emptyStore 0x07#8 0xFF#8 boot).disk = 0 := by
  have hfirst : FirstClear (emptyStore 0x07#8 0xFF#8 boot).disk mkfsSuper.zoneBitmapStart
      mkfsSuper.zmapBlocks 3 := by
    refine ⟨by decide, ?_, ?_⟩
    · rw [emptyStore_bit _ _ _ (by norm_num)]
      decide
    · intro m hm
      rw [emptyStore_bit _ _ _ (by omega)]
      interval_cases m <;> decide
  exact readyZones_of_unreadable hfirst (by decide)

/-- The boot block is taken for a table. -/
theorem boot_block_followed : Sound mkfsSuper (emptyStore 0xFF#8 0xFF#8 0xEB#8) ∧
      0 ∈ ((⟨true, 1, 7⟩ : Lookup).found mkfsSuper (fun _ => true)
        (emptyStore 0xFF#8 0xFF#8 0xEB#8)).taken ∧
      ((⟨true, 1, 7⟩ : Lookup).found mkfsSuper (fun _ => true)
        (emptyStore 0xFF#8 0xFF#8 0xEB#8)).zone = 0xEBEB ∧
      (∀ file, ¬BelongsTo ((⟨true, 1, 7⟩ : Lookup).found mkfsSuper (fun _ => true)
        (emptyStore 0xFF#8 0xFF#8 0xEB#8)).store file 0xEBEB) ∧
      ¬Contained mkfsSuper eightBlocks (emptyStore 0x07#8 0xFF#8 0xEB#8) ⟨true, 1, 7⟩ := by
  have hsound : Sound mkfsSuper (emptyStore 0xFF#8 0xFF#8 0xEB#8) := emptyStore_sound (by decide)
  have hfull : freeZones mkfsSuper (emptyStore 0xFF#8 0xFF#8 0xEB#8).disk = 0 := by
    rw [freeZones, Finset.card_eq_zero, Finset.filter_eq_empty_iff]
    intro n hn
    rw [emptyStore_bit _ _ _ (Finset.mem_range.mp hn), ite_self]
    have hset : ∀ k < 8, (0xFF#8).getLsbD k = true := by decide
    simp [hset (n % 8) (Nat.mod_lt _ (by norm_num))]
  have hfill : fillSlot mkfsSuper (fun _ => true) (emptyStore 0xFF#8 0xFF#8 0xEB#8) (.inode 1 7) =
      (0, emptyStore 0xFF#8 0xFF#8 0xEB#8) := by
    have hvalid : shape.Valid (1, 7) [] := ⟨by simp, by simp⟩
    rcases fillSlot_cases hsound (by decide) hvalid (.inl rfl)
      (emptyStore_block _ _ _ _ _) (fun _ => true) with
      ⟨-, s', heq, hspoiled⟩ | ⟨_, _, -, hgrown⟩
    · rw [hspoiled.same hfull] at heq
      exact heq
    · have hfree := hgrown.free
      omega
  have hfound : (⟨true, 1, 7⟩ : Lookup).found mkfsSuper (fun _ => true)
      (emptyStore 0xFF#8 0xFF#8 0xEB#8) = ⟨0xEBEB, emptyStore 0xFF#8 0xFF#8 0xEB#8, [0], [0]⟩ := by
    have htiers : zoneCalculateTier 7 = some (7, [0]) := by decide
    have hinode : (emptyStore 0xFF#8 0xFF#8 0xEB#8).get (.inode 1 7) = 0 := rfl
    have htable : (emptyStore 0xFF#8 0xFF#8 0xEB#8).get (.table 0 0) = 0xEBEB := by decide +kernel
    rw [Lookup.found, zoneLookup, htiers]
    simp [zoneLoop, hinode, hfill, htable]
  rw [hfound]
  refine ⟨hsound, by simp, rfl, ?_, ?_⟩
  · rintro file ⟨i, path, -, heq⟩
    rw [emptyStore_block] at heq
    exact absurd heq (by norm_num)
  · have hmissing : (⟨true, 1, 7⟩ : Lookup).missing eightBlocks
        (emptyStore 0x07#8 0xFF#8 0xEB#8) = 1 := by decide +kernel
    rw [contained_iff (emptyStore_sound (by decide)), Enough, hmissing, eightBlocks_not_ready]
    decide

end Gloworm.MinixZone
