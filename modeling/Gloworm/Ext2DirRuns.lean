import Gloworm.Ext2DirModel

/-! The entries of every directory block lead from its start exactly to its end, as long as the
insertions and deletions fit. -/
namespace Gloworm.Ext2Dir
open Function Word Tiling Transition List Option
open ByteOrder (swap16 swap16_lt swap16_digits swap16_swap16)

variable {v : ℕ}

lemma rawLen_setRawLen (h : v < 65536) (block : Block) (i : ℕ) :
    rawLen (setRawLen block i v) i = v := by
  simp only [rawLen, setRawLen, update_self]
  rw [update_of_ne (by omega), update_self, BitVec.toNat_ofNat, BitVec.toNat_ofNat]
  omega

lemma entryLen_setRawLen (h : v < 65536) (block : Block) (i : ℕ) :
    entryLen (setRawLen block i (swap16 v)) i = v := by
  rw [entryLen, rawLen_setRawLen (swap16_lt v), swap16_swap16 h]

variable {x : ℕ} {i : ℕ}

lemma setRawLen_of_ne (block : Block) (v : ℕ) (h4 : x ≠ i + 4) (h5 : x ≠ i + 5) :
    setRawLen block i v x = block x := by
  rw [setRawLen, update_of_ne h5, update_of_ne h4]

lemma setInode_of_ne (block : Block) (ino : ℕ) (h : x < i ∨ i + 4 ≤ x) :
    setInode block i ino x = block x := by
  simp only [setInode]
  rw [if_neg (by omega), if_neg (by omega), if_neg (by omega), if_neg (by omega)]

lemma copyBytes_of_ne (block : Block) (bytes : List Byte)
    (h : x < i ∨ i + bytes.length ≤ x) : copyBytes block i bytes x = block x := by
  rw [copyBytes]
  split_ifs with hle
  · exact getD_eq_default _ _ (by omega)
  · rfl

lemma entryLen_congr {block block' : Block} (h4 : block' (x + 4) = block (x + 4))
    (h5 : block' (x + 5) = block (x + 5)) : entryLen block' x = entryLen block x := by
  rw [entryLen, entryLen, rawLen, rawLen, h4, h5]

variable {n : ℕ}

lemma alignUp_four (h : n ≤ 263) : n ≤ alignUp n 4 ∧ alignUp n 4 < n + 4 ∧ 4 ∣ alignUp n 4 :=
  alignUp_spec (k := 2) (by omega)

lemma entryMinLen_bounds (block : Block) (i : ℕ) :
    8 ≤ entryMinLen block i ∧ entryMinLen block i ≤ 264 ∧ 4 ∣ entryMinLen block i := by
  have hlt : nameLen block i < 256 := (block (i + 6)).isLt
  obtain ⟨h1, h2, h3⟩ := alignUp_four (n := 8 + nameLen block i) (by omega)
  rw [entryMinLen]
  omega

abbrev TiledBlock (blockSize : ℕ) (block : Block) : Prop :=
  Tiled 8 4 (entryLen block) 0 blockSize

section Write
variable {blockSize : ℕ} {block block' : Block}

lemma Tiled.entry_before {k : ℕ} (h : Tiled 8 4 (entryLen block) k i)
    (hsame : ∀ x < i, block' x = block x) : Tiled 8 4 (entryLen block') k i :=
  h.congr fun x _ hx => entryLen_congr (hsame _ (by omega)) (hsame _ (by omega))

lemma Tiled.entry_after {j k : ℕ} (h : Tiled 8 4 (entryLen block) i k)
    (hsame : ∀ x, j < x → block' x = block x) (hj : j < i + 4) : Tiled 8 4 (entryLen block') i k :=
  h.congr fun x hx _ => entryLen_congr (hsame _ (by omega)) (hsame _ (by omega))

lemma tiled_split (h : TiledBlock blockSize block) (hi : Boundary blockSize block i) {m : ℕ}
    (hm : 8 ≤ m) (hm4 : 4 ∣ m) (hfit : m + 8 ≤ entryLen block i) :
    let split := setRawLen (setRawLen block i (swap16 m)) (i + m) (swap16 (entryLen block i - m))
    TiledBlock blockSize split ∧ Boundary blockSize split (i + m) ∧
      entryLen split (i + m) = entryLen block i - m := by
  intro split
  have hlt := swap16_lt (rawLen block i)
  rw [← entryLen] at hlt
  obtain ⟨hleast, hunit, hrest⟩ := (hi.1.between h hi.2.le (by norm_num)).head hi.2
  have hle := hrest.le
  have hfirst : entryLen split i = m := by
    have : entryLen split i = entryLen (setRawLen block i (swap16 m)) i :=
      entryLen_congr (setRawLen_of_ne _ _ (by omega) (by omega))
        (setRawLen_of_ne _ _ (by omega) (by omega))
    rw [this, entryLen_setRawLen (by omega)]
  have hsecond : entryLen split (i + m) = entryLen block i - m := entryLen_setRawLen (by omega) _ _
  have hbefore : Tiled 8 4 (entryLen split) 0 i := Tiled.entry_before hi.1 fun x hx =>
    (setRawLen_of_ne _ _ (by omega) (by omega)).trans (setRawLen_of_ne _ _ (by omega) (by omega))
  have hto : Tiled 8 4 (entryLen split) 0 (i + m) := by
    have := hbefore.snoc (by omega) (by rw [hfirst]; exact hm4)
    rwa [hfirst] at this
  have hafter : Tiled 8 4 (entryLen split) (i + entryLen block i) blockSize :=
    Tiled.entry_after (j := i + m + 5) hrest (fun x hx =>
      (setRawLen_of_ne _ _ (by omega) (by omega)).trans (setRawLen_of_ne _ _ (by omega) (by omega)))
      (by omega)
  refine ⟨hto.trans (.cons (by omega) (by rw [hsecond]; exact Nat.dvd_sub hunit hm4) ?_),
    ⟨hto, by omega⟩, hsecond⟩
  rw [hsecond, show i + m + (entryLen block i - m) = i + entryLen block i by omega]
  exact hafter

end Write
section Search
variable {blockSize : ℕ} {block : Block}

lemma Boundary.rest (hi : Boundary blockSize block i) (h : TiledBlock blockSize block) :
    8 ≤ entryLen block i ∧ 4 ∣ entryLen block i ∧
      Tiled 8 4 (entryLen block) (i + entryLen block i) blockSize :=
  (hi.1.between h hi.2.le (by norm_num)).head hi.2

lemma Boundary.le_of_lt (hi : Boundary blockSize block i) (hx : Boundary blockSize block x)
    (hlt : i < x) : i + entryLen block i ≤ x :=
  ((hi.1.between hx.1 hlt.le (by norm_num)).head hlt).2.2.le

lemma rawLen_ne_zero (h : 8 ≤ entryLen block i) : rawLen block i ≠ 0 := by
  intro hzero
  rw [entryLen, hzero, swap16] at h
  omega

lemma findEmptyLoop_spec (h : TiledBlock blockSize block) {fuel : ℕ}
    (hto : Tiled 8 4 (entryLen block) 0 i) (hle : i ≤ blockSize) (hfuel : blockSize < fuel + i)
    (hno : ∀ x < i, Boundary blockSize block x → ¬ Accepts n block x) :
    (findEmptyLoop blockSize n fuel block i = some (block, none) ∧
      ∀ x, Boundary blockSize block x → ¬ Accepts n block x) ∨
    ∃ j, Boundary blockSize block j ∧ Accepts n block j ∧
      (∀ x < j, Boundary blockSize block x → ¬ Accepts n block x) ∧
      ((isUnused block j ∧ n ≤ rawLen block j ∧
        findEmptyLoop blockSize n fuel block i = some (block, some j)) ∨
      (¬(isUnused block j ∧ n ≤ rawLen block j) ∧ entryMinLen block j + n ≤ entryLen block j ∧
        findEmptyLoop blockSize n fuel block i =
          some (setRawLen (setRawLen block j (swap16 (entryMinLen block j)))
            (j + entryMinLen block j) (swap16 (entryLen block j - entryMinLen block j)),
            some (j + entryMinLen block j)))) := by
  induction fuel generalizing i with
  | zero => omega
  | succ fuel ih =>
    rw [findEmptyLoop]
    by_cases hend : blockSize ≤ i
    · rw [if_pos hend]
      exact .inl ⟨rfl, fun x hx => hno x (by have := hx.2; omega) hx⟩
    have hi : Boundary blockSize block i := ⟨hto, by omega⟩
    obtain ⟨hleast, hunit, hrest⟩ := hi.rest h
    simp only [if_neg hend, if_neg (rawLen_ne_zero hleast)]
    by_cases hreuse : isUnused block i = true ∧ n ≤ rawLen block i
    · rw [if_pos hreuse]
      exact .inr ⟨i, hi, .inl hreuse, hno, .inl ⟨hreuse.1, hreuse.2, rfl⟩⟩
    rw [if_neg hreuse]
    by_cases hsplit : entryMinLen block i + n ≤ entryLen block i
    · rw [if_pos hsplit]
      exact .inr ⟨i, hi, .inr hsplit, hno, .inr ⟨hreuse, hsplit, rfl⟩⟩
    rw [if_neg hsplit]
    refine ih (hto.snoc hleast hunit) hrest.le (by omega) fun x hx hbx => ?_
    rcases lt_trichotomy x i with hlt | rfl | hgt
    · exact hno x hlt hbx
    · exact fun hacc => hacc.elim hreuse hsplit
    · have := hi.le_of_lt hbx hgt
      omega

def Placed (blockSize n : ℕ) (res : List Block × Option (ℕ × ℕ)) : Prop :=
  (∀ b ∈ res.1, TiledBlock blockSize b) ∧ ∀ z i, res.2 = some (z, i) →
    ∃ b, res.1[z]? = some b ∧ Boundary blockSize b i ∧ n ≤ entryLen b i

variable {dir : List Block}

lemma Placed.cons {pos : Option (ℕ × ℕ)}
    (h : Placed blockSize n (dir, pos)) (hb : TiledBlock blockSize block) :
    Placed blockSize n (block :: dir, pos.map fun p => (p.1 + 1, p.2)) := by
  refine ⟨fun b hmem => ?_, fun z i hpos => ?_⟩
  · rcases mem_cons.mp hmem with rfl | hrest
    · exact hb
    · exact h.1 b hrest
  · obtain ⟨⟨z', i'⟩, hp, heq⟩ := map_eq_some_iff.mp hpos
    obtain ⟨rfl, rfl⟩ := Prod.mk.inj heq
    obtain ⟨b, hget, hbound, hlen⟩ := h.2 z' i' hp
    exact ⟨b, by simpa using hget, hbound, hlen⟩

lemma Placed.here (hb : TiledBlock blockSize block)
    (hdir : ∀ b ∈ dir, TiledBlock blockSize b) (hi : Boundary blockSize block i)
    (hlen : n ≤ entryLen block i) : Placed blockSize n (block :: dir, some (0, i)) := by
  refine ⟨fun b hmem => ?_, fun z i' hpos => ?_⟩
  · rcases mem_cons.mp hmem with rfl | hrest
    · exact hb
    · exact hdir b hrest
  · obtain ⟨rfl, rfl⟩ := Prod.mk.inj (some.inj hpos)
    exact ⟨block, rfl, hi, hlen⟩

lemma tiledBlock_whole (hsize : 8 ≤ blockSize) (h4 : 4 ∣ blockSize) (hlt : blockSize < 65536) :
    let fresh := setRawLen (fun _ => 0#8) 0 (swap16 (blockSize % 2 ^ 16))
    TiledBlock blockSize fresh ∧ entryLen fresh 0 = blockSize ∧ entryMinLen fresh 0 = 8 := by
  intro fresh
  have hlen : entryLen fresh 0 = blockSize := by
    rw [entryLen_setRawLen (by omega)]
    omega
  refine ⟨.cons (by omega) (by omega) ?_, hlen, ?_⟩
  · rw [hlen, Nat.zero_add]
    exact .nil _
  · have hname : nameLen fresh 0 = 0 := by
      have hsix : fresh (0 + 6) = 0#8 := setRawLen_of_ne _ _ (by omega) (by omega)
      rw [nameLen, hsix]
      rfl
    obtain ⟨h1, h2, h3⟩ := alignUp_four (n := 8 + nameLen fresh 0) (by omega)
    rw [entryMinLen]
    omega

variable {hit : Block → ℕ → Prop}

lemma FirstHit.cons {b : Block}
    (h : FirstHit blockSize hit dir b i) (hno : ∀ x, Boundary blockSize block x → ¬ hit block x) :
    FirstHit blockSize hit (block :: dir) b i := by
  obtain ⟨front, back, rfl, hfront, hi, hhit, hfirst⟩ := h
  refine ⟨block :: front, back, rfl, fun b' hb' => ?_, hi, hhit, hfirst⟩
  rcases mem_cons.mp hb' with rfl | hrest
  · exact hno
  · exact hfront b' hrest

lemma FirstHit.here (hi : Boundary blockSize block i) (hhit : hit block i)
    (hfirst : ∀ x < i, Boundary blockSize block x → ¬ hit block x) :
    FirstHit blockSize hit (block :: dir) block i :=
  ⟨[], dir, rfl, by simp, hi, hhit, hfirst⟩

end Search
section Operations
variable {blockSize : ℕ} {block : Block}

lemma writeName_bytes (name : List Byte) (h6 : x ≠ i + 6)
    (h : x < i + 8 ∨ i + 8 + name.length < x) : writeName name i block x = block x := by
  rw [writeName, update_of_ne h6, copyBytes_of_ne _ _ (by rw [length_append]; simp; omega)]

variable {name : List Byte}

lemma newEntryLen_bounds (h : name.length ≤ 255) :
    8 ≤ newEntryLen name ∧ newEntryLen name ≤ 264 ∧ 8 + name.length ≤ newEntryLen name := by
  obtain ⟨h1, h2, h3⟩ := alignUp_four (n := 8 + name.length) (by omega)
  rw [newEntryLen]
  omega

variable {dir : List Block}

lemma setEntry_before (block : Block) (ino len : ℕ) (name : List Byte) (hx : x < i) :
    setEntry block i ino len name x = block x := by
  simp only [setEntry]
  rw [copyBytes_of_ne _ _ (by omega), update_of_ne (by omega),
    setRawLen_of_ne _ _ (by omega) (by omega), update_of_ne (by omega),
    setInode_of_ne _ _ (by omega)]

lemma entryLen_setEntry (block : Block) (i ino len : ℕ) (name : List Byte) :
    entryLen (setEntry block i ino len name) i = len % 2 ^ 16 := by
  set stored := setRawLen (update (setInode block i ino) (i + 7) ext2FtDir) i
    (swap16 (len % 2 ^ 16)) with hstored
  have hsame : entryLen (setEntry block i ino len name) i = entryLen stored i := by
    refine entryLen_congr ?_ ?_ <;>
    · simp only [setEntry]
      rw [copyBytes_of_ne _ _ (by omega), update_of_ne (by omega)]
  rw [hsame, hstored, entryLen_setRawLen (by omega)]

lemma dirSetup_lengths (hsize : 1024 ≤ blockSize) (hlt : blockSize < 65536) (ino parentIno : ℕ) :
    entryLen (dirSetup blockSize ino parentIno) 0 = 12 ∧
      entryLen (dirSetup blockSize ino parentIno) 12 = blockSize - 12 := by
  constructor
  · have hfirst : entryLen (dirSetup blockSize ino parentIno) 0 =
        entryLen (setEntry (fun _ => 0#8) 0 ino 12 [0x2E#8]) 0 :=
      entryLen_congr (setEntry_before _ _ _ _ (by omega)) (setEntry_before _ _ _ _ (by omega))
    rw [hfirst, entryLen_setEntry]
    norm_num
  · rw [dirSetup, entryLen_setEntry]
    omega

lemma dirSetup_tiled (hsize : 1024 ≤ blockSize) (h4 : 4 ∣ blockSize) (hlt : blockSize < 65536)
    (ino parentIno : ℕ) : TiledBlock blockSize (dirSetup blockSize ino parentIno) := by
  obtain ⟨hdot, hdots⟩ := dirSetup_lengths hsize hlt ino parentIno
  refine .cons (by omega) (by omega) ?_
  rw [hdot, Nat.zero_add]
  refine .cons (by omega) (by omega) ?_
  rw [hdots, Nat.add_sub_cancel' (by omega)]
  exact .nil _
end Operations
section Scans
variable {blockSize : ℕ} {block : Block}

end Scans

end Gloworm.Ext2Dir
