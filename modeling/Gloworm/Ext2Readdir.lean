import Gloworm.CursorReads
import Gloworm.ErrorNumbers
import Gloworm.Ext2DirRuns
import Gloworm.Ext2InodeModel

/-! `ext2_readdir`: a directory is read entry by entry, with the number of the block and the offset in
it put together in the position of the open file. -/
namespace Gloworm.Ext2Dir
open Word Tiling Cursor List

/-- A directory of a file system. `nameMax` is the room for a name in the caller's `struct dirent`. -/
structure Directory where
  mode : ℕ
  logBlockSize : ℕ
  nameMax : ℕ
  blocks : List Block

def Directory.blockSize (dir : Directory) : ℕ := 2 ^ dir.logBlockSize

def inodeAt (block : Block) (i : ℕ) : ℕ :=
  (block i).toNat + (block (i + 1)).toNat * 2 ^ 8 + (block (i + 2)).toNat * 2 ^ 16 +
    (block (i + 3)).toNat * 2 ^ 24

def nameAt (block : Block) (i : ℕ) : List Byte :=
  (List.range (nameLen block i)).map fun k => block (i + 8 + k)

/-- The offset is kept from one block to the next. `error none` is an access outside of an
object. -/
def readdirBlocks (blockSize : ℕ) :
    List Block → ℕ → ℤ → Except (Option ℤ) (Option (ℕ × ℤ × ℤ × Block))
  | [], _, _ => .ok none
  | block :: rest, znum, zpos =>
    match readdirLoop blockSize block (blockSize + 1) zpos with
    | none => .error none
    | some (cur, next) =>
      if isUnused block cur.toNat then readdirBlocks blockSize rest (znum + 1) next
      else .ok (some (znum, cur, next, block))

def ext2Readdir (dir : Directory) (position : ℕ) :
    Except (Option ℤ) (Option ((ℕ × List Byte) × ℕ)) :=
  if !Ext2Inode.isDir dir.mode then .error (some ENOTDIR)
  else
    let znum := position >>> dir.logBlockSize
    let zpos := toShort (position &&& (dir.blockSize - 1) : ℕ)
    match readdirBlocks dir.blockSize (dir.blocks.drop znum) znum zpos with
    | .error e => .error e
    | .ok none => .ok none
    | .ok (some (znum, cur, next, block)) =>
      if dir.nameMax ≤ nameLen block cur.toNat then .error none
      else .ok (some ((inodeAt block cur.toNat, nameAt block cur.toNat),
        (znum <<< dir.logBlockSize ||| toUnsigned next) % 2 ^ 32))

def offsetsFrom (blockSize : ℕ) (block : Block) : ℕ → ℕ → List ℕ
  | 0, _ => []
  | fuel + 1, i =>
    if blockSize ≤ i then [] else i :: offsetsFrom blockSize block fuel (i + entryLen block i)

def liveFrom (blockSize : ℕ) (block : Block) (i : ℕ) : List ℕ :=
  (offsetsFrom blockSize block (blockSize - i) i).filter fun i => !isUnused block i

def entryAt (block : Block) (i : ℕ) : ℕ × List Byte := (inodeAt block i, nameAt block i)

def Directory.liveEntries (dir : Directory) : List (ℕ × List Byte) :=
  dir.blocks.flatMap fun block => (liveFrom dir.blockSize block 0).map (entryAt block)

def EndsLive (blockSize : ℕ) (block : Block) : Prop :=
  ∃ i, Boundary blockSize block i ∧ i + entryLen block i = blockSize ∧ isUnused block i = false

section Block
variable {blockSize i : ℕ} {block : Block}

lemma offsetsFrom_eq (h : Tiled 8 4 (entryLen block) i blockSize) {fuel fuel' : ℕ}
    (hfuel : blockSize - i ≤ fuel) (hfuel' : blockSize - i ≤ fuel') :
    offsetsFrom blockSize block fuel i = offsetsFrom blockSize block fuel' i := by
  induction fuel generalizing i fuel' with
  | zero => cases fuel' with
    | zero => rfl
    | succ fuel' => rw [offsetsFrom, offsetsFrom, if_pos (by omega)]
  | succ fuel ih => cases fuel' with
    | zero => rw [offsetsFrom, offsetsFrom, if_pos (by omega)]
    | succ fuel' =>
      rw [offsetsFrom, offsetsFrom]
      by_cases hend : blockSize ≤ i
      · rw [if_pos hend, if_pos hend]
      · obtain ⟨hleast, -, hrest⟩ := h.head (by omega)
        rw [if_neg hend, if_neg hend]
        exact congrArg (List.cons i) (ih hrest (by omega) (by omega))

lemma liveFrom_end : liveFrom blockSize block blockSize = [] := by
  simp [liveFrom, offsetsFrom]

lemma liveFrom_step (h : Tiled 8 4 (entryLen block) i blockSize) (hlt : i < blockSize) :
    liveFrom blockSize block i =
      if isUnused block i then liveFrom blockSize block (i + entryLen block i)
      else i :: liveFrom blockSize block (i + entryLen block i) := by
  obtain ⟨hleast, -, hrest⟩ := h.head hlt
  obtain ⟨fuel, hfuel⟩ : ∃ fuel, blockSize - i = fuel + 1 := ⟨blockSize - i - 1, by omega⟩
  rw [liveFrom, hfuel, offsetsFrom, if_neg (by omega), filter_cons,
    offsetsFrom_eq hrest (show _ ≤ fuel by omega) le_rfl]
  cases isUnused block i <;> rfl

lemma readdirLoop_spec (hsize : blockSize ≤ 16384) {fuel : ℕ}
    (h : Tiled 8 4 (entryLen block) i blockSize) (hlt : i < blockSize)
    (hfuel : blockSize < fuel + i) :
    (∃ cur : ℕ, Tiled 8 4 (entryLen block) i cur ∧ cur < blockSize ∧ isUnused block cur = false ∧
      readdirLoop blockSize block fuel i = some ((cur : ℤ), ((cur + entryLen block cur : ℕ) : ℤ)) ∧
      liveFrom blockSize block i = cur :: liveFrom blockSize block (cur + entryLen block cur)) ∨
    ∃ cur : ℕ, Tiled 8 4 (entryLen block) i cur ∧ cur < blockSize ∧
      cur + entryLen block cur = blockSize ∧ isUnused block cur = true ∧
      readdirLoop blockSize block fuel i = some ((cur : ℤ), (blockSize : ℤ)) ∧
      liveFrom blockSize block i = [] := by
  induction fuel generalizing i with
  | zero => omega
  | succ fuel ih =>
    obtain ⟨hleast, hunit, hrest⟩ := h.head hlt
    have hle := hrest.le
    have hshort : toShort ((i : ℤ) + entryLen block i) = ((i + entryLen block i : ℕ) : ℤ) := by
      rw [toShort_of_mem (by omega) (by omega), Nat.cast_add]
    have hstep : readdirLoop blockSize block (fuel + 1) i =
        if isUnused block i = true ∧ ((i + entryLen block i : ℕ) : ℤ) < blockSize then
          readdirLoop blockSize block fuel ((i + entryLen block i : ℕ) : ℤ)
        else some ((i : ℤ), ((i + entryLen block i : ℕ) : ℤ)) := by
      rw [readdirLoop]
      simp only [Int.toNat_natCast, hshort]
      rw [if_neg (by omega)]
    rw [hstep, liveFrom_step h hlt]
    cases hused : isUnused block i with
    | false => exact .inl ⟨i, .nil i, hlt, hused, by simp, by simp⟩
    | true =>
      by_cases hend : i + entryLen block i = blockSize
      · exact .inr ⟨i, .nil i, hlt, hend, hused, by simp [hend], by simp [hend, liveFrom_end]⟩
      · have hmore : i + entryLen block i < blockSize := by omega
        rw [if_pos ⟨rfl, by exact_mod_cast hmore⟩, if_pos rfl]
        rcases ih hrest hmore (by omega) with ⟨cur, hto, hcur, hlive, hloop, heq⟩ |
          ⟨cur, hto, hcur, hend, hunused, hloop, heq⟩
        · exact .inl ⟨cur, .cons hleast hunit hto, hcur, hlive, hloop, heq⟩
        · exact .inr ⟨cur, .cons hleast hunit hto, hcur, hend, hunused, hloop, heq⟩

lemma mem_liveFrom (h : Tiled 8 4 (entryLen block) i blockSize) {j : ℕ}
    (hto : Tiled 8 4 (entryLen block) i j) (hlt : j < blockSize) (hlive : isUnused block j = false) :
    j ∈ liveFrom blockSize block i := by
  induction hto with
  | nil i =>
    rw [liveFrom_step h hlt, hlive]
    simp
  | @cons i j hleast hunit rest ih =>
    have hle := rest.le
    obtain ⟨-, -, hrest⟩ := h.head (by omega)
    have hmem := ih hrest hlt hlive
    rw [liveFrom_step h (by omega)]
    split_ifs
    · exact hmem
    · exact mem_cons_of_mem _ hmem

lemma not_endsLive {cur : ℕ} (hcur : Boundary blockSize block cur)
    (hend : cur + entryLen block cur = blockSize) (hunused : isUnused block cur = true) :
    ¬EndsLive blockSize block := by
  rintro ⟨i, hi, hlast, hlive⟩
  rcases lt_trichotomy i cur with hlt | rfl | hgt
  · have := hi.le_of_lt hcur hlt
    have := hcur.2
    omega
  · rw [hunused] at hlive
    cases hlive
  · have := hcur.le_of_lt hi hgt
    have := hi.2
    omega
end Block
section Reading
variable {dir : Directory}

lemma position_split {log z i : ℕ} (hi : i < 2 ^ log) :
    (z * 2 ^ log + i) >>> log = z ∧ (z * 2 ^ log + i) &&& (2 ^ log - 1) = i := by
  constructor
  · rw [Nat.shiftRight_eq_div_pow, mul_comm, Nat.mul_add_div (by positivity),
      Nat.div_eq_of_lt hi, add_zero]
  · rw [Nat.and_two_pow_sub_one_eq_mod, mul_comm, Nat.mul_add_mod, Nat.mod_eq_of_lt hi]

lemma position_join {log z i : ℕ} (hi : i < 2 ^ log) (hword : (z + 1) * 2 ^ log < 2 ^ 32) :
    (z <<< log ||| i) % 2 ^ 32 = z * 2 ^ log + i := by
  rw [← Nat.shiftLeft_add_eq_or_of_lt hi, Nat.shiftLeft_eq, Nat.mod_eq_of_lt]
  rw [add_one_mul] at hword
  omega

variable {front rest : List Block} {block : Block} {blockSize i : ℕ}

section
variable (hdir : Ext2Inode.isDir dir.mode = true) (hsize : dir.blockSize ≤ 16384)
  (hblocks : dir.blocks = front ++ block :: rest)
include hdir hsize hblocks

lemma ext2Readdir_cases (h : Tiled 8 4 (entryLen block) i dir.blockSize) (hlt : i < dir.blockSize) :
    (∃ cur : ℕ, Tiled 8 4 (entryLen block) i cur ∧ cur < dir.blockSize ∧
      isUnused block cur = false ∧ liveFrom dir.blockSize block i =
        cur :: liveFrom dir.blockSize block (cur + entryLen block cur) ∧
      ext2Readdir dir (front.length * dir.blockSize + i) =
        if dir.nameMax ≤ nameLen block cur then .error none
        else .ok (some (entryAt block cur,
          (front.length <<< dir.logBlockSize ||| (cur + entryLen block cur)) % 2 ^ 32))) ∨
    ∃ cur : ℕ, Tiled 8 4 (entryLen block) i cur ∧ cur < dir.blockSize ∧
      cur + entryLen block cur = dir.blockSize ∧ isUnused block cur = true ∧
      liveFrom dir.blockSize block i = [] ∧
      ext2Readdir dir (front.length * dir.blockSize + i) =
        if rest = [] then .ok none else .error none := by
  have hzpos : toShort ((i : ℕ) : ℤ) = i := toShort_of_mem (by omega) (by omega)
  obtain ⟨hznum, hplace⟩ := position_split (z := front.length) hlt
  have hcall : ext2Readdir dir (front.length * dir.blockSize + i) =
      match readdirBlocks dir.blockSize (block :: rest) front.length i with
      | .error e => .error e
      | .ok none => .ok none
      | .ok (some (znum, cur, next, block)) =>
        if dir.nameMax ≤ nameLen block cur.toNat then .error none
        else .ok (some ((inodeAt block cur.toNat, nameAt block cur.toNat),
          (znum <<< dir.logBlockSize ||| toUnsigned next) % 2 ^ 32)) := by
    have hdrop : dir.blocks.drop front.length = block :: rest := by rw [hblocks, drop_left]
    rw [ext2Readdir, Directory.blockSize, if_neg (by simp [hdir]), hznum, hplace, hzpos]
    dsimp only
    rw [hdrop]
  rw [hcall, readdirBlocks]
  rcases readdirLoop_spec hsize h hlt (show _ < dir.blockSize + 1 + i by omega) with
    ⟨cur, hto, hcur, hlive, hloop, heq⟩ | ⟨cur, hto, hcur, hend, hunused, hloop, heq⟩
  · refine .inl ⟨cur, hto, hcur, hlive, heq, ?_⟩
    have hle := ((hto.between h hcur.le (by norm_num)).head hcur).2.2.le
    have hnext : toUnsigned ((cur + entryLen block cur : ℕ) : ℤ) = cur + entryLen block cur := by
      rw [toUnsigned_of_mem (by omega) (by omega), Int.toNat_natCast]
    simp only [hloop, Int.toNat_natCast, hlive, Bool.false_eq_true, if_false, hnext]
    rfl
  · refine .inr ⟨cur, hto, hcur, hend, hunused, heq, ?_⟩
    simp only [hloop, Int.toNat_natCast, hunused, if_true]
    cases rest with
    | nil => rfl
    | cons next rest =>
      have hout : readdirLoop dir.blockSize next (dir.blockSize + 1) dir.blockSize = none := by
        rw [readdirLoop, if_pos (.inr le_rfl)]
      simp [readdirBlocks, hout]

lemma reads_block_iff (hfront : front.length ≤ 1) (htiled : TiledBlock dir.blockSize block)
    (hi : Boundary dir.blockSize block i) (entries : List (ℕ × List Byte)) :
    Reads (ext2Readdir dir) (front.length * dir.blockSize + i) entries ↔
      (∀ j ∈ liveFrom dir.blockSize block i, nameLen block j < dir.nameMax) ∧
      ∃ tail, entries = (liveFrom dir.blockSize block i).map (entryAt block) ++ tail ∧
        (EndsLive dir.blockSize block → Reads (ext2Readdir dir)
          ((front.length <<< dir.logBlockSize ||| dir.blockSize) % 2 ^ 32) tail) ∧
        (¬EndsLive dir.blockSize block → rest = [] ∧ tail = []) := by
  induction hleft : dir.blockSize - i using Nat.strong_induction_on generalizing i entries with
  | _ left ih =>
    have hrest := hi.1.between htiled hi.2.le (by norm_num)
    rcases ext2Readdir_cases hdir hsize hblocks hrest hi.2 with
      ⟨cur, hto, hcur, hlive, heq, hcall⟩ | ⟨cur, hto, hcur, hend, hunused, heq, hcall⟩
    · have hbound : Boundary dir.blockSize block cur := ⟨hi.1.trans hto, hcur⟩
      have hfrom := hto.le
      obtain ⟨hleast, hunit, hnext⟩ := hbound.rest htiled
      have hle := hnext.le
      rw [heq]
      by_cases hname : dir.nameMax ≤ nameLen block cur
      · rw [if_pos hname] at hcall
        refine iff_of_false (not_reads_of_error hcall) ?_
        rintro ⟨hnames, -⟩
        have := hnames cur (by simp)
        omega
      rw [if_neg hname] at hcall
      rw [reads_of_some hcall]
      by_cases hend : cur + entryLen block cur = dir.blockSize
      · have hends : EndsLive dir.blockSize block := ⟨cur, hbound, hend, hlive⟩
        rw [hend, liveFrom_end]
        simp [hends]
        omega
      · have hmore : Boundary dir.blockSize block (cur + entryLen block cur) :=
          ⟨hbound.1.snoc hleast hunit, by omega⟩
        have hposition : (front.length <<< dir.logBlockSize ||| (cur + entryLen block cur)) % 2 ^ 32 =
            front.length * dir.blockSize + (cur + entryLen block cur) :=
          position_join hmore.2 (by
            have hpow : 2 ^ dir.logBlockSize ≤ 16384 := hsize
            nlinarith)
        rw [hposition]
        constructor
        · rintro ⟨others, rfl, hothers⟩
          obtain ⟨hnames, tail, rfl, hlast⟩ := (ih _ (by omega) hmore _ rfl).mp hothers
          refine ⟨?_, tail, rfl, hlast⟩
          simpa using ⟨by omega, hnames⟩
        · rintro ⟨hnames, tail, rfl, hlast⟩
          refine ⟨_, rfl, (ih _ (by omega) hmore _ rfl).mpr ⟨?_, tail, rfl, hlast⟩⟩
          intro j hj
          exact hnames j (mem_cons_of_mem _ hj)
    · have hnot := not_endsLive ⟨hi.1.trans hto, hcur⟩ hend hunused
      rw [heq]
      cases rest with
      | nil =>
        rw [if_pos rfl] at hcall
        rw [reads_of_none hcall]
        simp [hnot]
      | cons next rest =>
        rw [if_neg (by simp)] at hcall
        refine iff_of_false (not_reads_of_error hcall) ?_
        rintro ⟨-, tail, -, -, hlast⟩
        exact absurd (hlast hnot).1 (by simp)
end

/-- At most one block, or two that end with an entry in use and an unused one. -/
def Directory.Enumerable (dir : Directory) : Prop :=
  match dir.blocks with
  | [] => True
  | [_] => True
  | [first, second] => EndsLive dir.blockSize first ∧ ¬EndsLive dir.blockSize second
  | _ => False

lemma reads_behind (hdir : Ext2Inode.isDir dir.mode = true) (hblocks : dir.blocks.length ≤ 1)
    (entries : List (ℕ × List Byte)) :
    Reads (ext2Readdir dir) dir.blockSize entries ↔ entries = [] := by
  apply reads_of_none
  have hznum : dir.blockSize >>> dir.logBlockSize = 1 := by
    rw [Directory.blockSize, Nat.shiftRight_eq_div_pow, Nat.div_self (by positivity)]
  simp only [ext2Readdir, hdir, Bool.not_true, Bool.false_eq_true, if_false, hznum,
    drop_eq_nil_of_le hblocks, readdirBlocks]

def liveIn (blockSize : ℕ) (blocks : List Block) : List (ℕ × List Byte) :=
  blocks.flatMap fun block => (liveFrom blockSize block 0).map (entryAt block)

lemma reads_whole_block_iff (front : List Block) (hdir : Ext2Inode.isDir dir.mode = true)
    (hsize : dir.blockSize ≤ 16384) (hblocks : dir.blocks = front ++ block :: rest)
    (hfront : front.length ≤ 1) (htiled : TiledBlock dir.blockSize block) :
    Reads (ext2Readdir dir) (front.length * dir.blockSize) (liveIn dir.blockSize (block :: rest)) ↔
      (∀ j ∈ liveFrom dir.blockSize block 0, nameLen block j < dir.nameMax) ∧
        (EndsLive dir.blockSize block → Reads (ext2Readdir dir)
          ((front.length <<< dir.logBlockSize ||| dir.blockSize) % 2 ^ 32)
          (liveIn dir.blockSize rest)) ∧
        (¬EndsLive dir.blockSize block → rest = []) := by
  have hstart : Boundary dir.blockSize block 0 := ⟨.nil 0, Nat.two_pow_pos _⟩
  have hread := reads_block_iff hdir hsize hblocks hfront htiled hstart
    (liveIn dir.blockSize (block :: rest))
  rw [add_zero] at hread
  rw [hread, liveIn, flatMap_cons]
  constructor
  · rintro ⟨hnames, tail, heq, hlive, hfree⟩
    obtain rfl := append_cancel_left heq
    exact ⟨hnames, hlive, fun hnot => (hfree hnot).1⟩
  · rintro ⟨hnames, hlive, hfree⟩
    refine ⟨hnames, _, rfl, hlive, fun hnot => ⟨hfree hnot, ?_⟩⟩
    rw [hfree hnot]
    rfl

lemma liveIn_ne_of_endsLive (rest : List Block) (htiled : TiledBlock blockSize block)
    (h : EndsLive blockSize block) : liveIn blockSize (block :: rest) ≠ liveIn blockSize rest := by
  obtain ⟨i, hi, -, hlive⟩ := h
  have hmem := mem_liveFrom htiled hi.1 hi.2 hlive
  intro heq
  rw [liveIn, flatMap_cons] at heq
  have hlength := congrArg List.length heq
  rw [length_append, length_map] at hlength
  have hpos := length_pos_of_mem hmem
  rw [liveIn] at hlength
  omega

/-- Reading answers every entry in use once, in order, exactly if the directory is enumerable and
the names fit into the caller's buffer. -/
theorem ext2_reads_live_iff (hdir : Ext2Inode.isDir dir.mode = true) (hsize : dir.blockSize ≤ 16384)
    (htiled : ∀ block ∈ dir.blocks, TiledBlock dir.blockSize block) :
    Reads (ext2Readdir dir) 0 dir.liveEntries ↔
      (∀ block ∈ dir.blocks, ∀ j ∈ liveFrom dir.blockSize block 0, nameLen block j < dir.nameMax) ∧
        dir.Enumerable := by
  have heven : (0 <<< dir.logBlockSize ||| dir.blockSize) % 2 ^ 32 = dir.blockSize := by
    rw [Nat.zero_shiftLeft, Nat.zero_or, Nat.mod_eq_of_lt (by omega)]
  have hodd : (1 <<< dir.logBlockSize ||| dir.blockSize) % 2 ^ 32 = dir.blockSize := by
    rw [Nat.one_shiftLeft, Directory.blockSize, Nat.or_self, ← Directory.blockSize,
      Nat.mod_eq_of_lt (by omega)]
  rw [Directory.liveEntries, Directory.Enumerable]
  cases hblocks : dir.blocks with
  | nil =>
    have hend : ext2Readdir dir 0 = .ok none := by
      simp [ext2Readdir, hdir, hblocks, readdirBlocks]
    simp [reads_of_none hend]
  | cons first rest =>
    have hfirst := reads_whole_block_iff [] hdir hsize hblocks (by simp)
      (htiled first (by simp [hblocks]))
    simp only [length_nil, zero_mul, heven] at hfirst
    change Reads (ext2Readdir dir) 0 (liveIn dir.blockSize (first :: rest)) ↔ _
    rw [hfirst]
    cases rest with
    | nil =>
      have hend := reads_behind hdir (show dir.blocks.length ≤ 1 by simp [hblocks])
        (liveIn dir.blockSize [])
      rw [hend]
      simp [liveIn]
    | cons second rest =>
      have hsecond := reads_whole_block_iff [first] hdir hsize hblocks (by simp)
        (htiled second (by simp [hblocks]))
      have hdiffer := liveIn_ne_of_endsLive rest (htiled second (by simp [hblocks]))
      simp only [length_singleton, one_mul, hodd] at hsecond
      -- an odd block that ends with an entry in use is read over and over
      have hlast : Reads (ext2Readdir dir) dir.blockSize (liveIn dir.blockSize (second :: rest)) ↔
          (∀ j ∈ liveFrom dir.blockSize second 0, nameLen second j < dir.nameMax) ∧
            ¬EndsLive dir.blockSize second ∧ rest = [] := by
        rw [hsecond]
        constructor
        · rintro ⟨hnames, hlive, hfree⟩
          have hnot : ¬EndsLive dir.blockSize second := fun hends =>
            hdiffer hends ((hsecond.mpr ⟨hnames, hlive, hfree⟩).unique (hlive hends))
          exact ⟨hnames, hnot, hfree hnot⟩
        · rintro ⟨hnames, hnot, hrest⟩
          exact ⟨hnames, fun hends => absurd hends hnot, fun _ => hrest⟩
      have hboth : ((EndsLive dir.blockSize first →
            Reads (ext2Readdir dir) dir.blockSize (liveIn dir.blockSize (second :: rest))) ∧
          (¬EndsLive dir.blockSize first → second :: rest = [])) ↔
          EndsLive dir.blockSize first ∧
            (∀ j ∈ liveFrom dir.blockSize second 0, nameLen second j < dir.nameMax) ∧
              ¬EndsLive dir.blockSize second ∧ rest = [] := by
        rw [hlast]
        by_cases hends : EndsLive dir.blockSize first
        · simp [hends]
        · simp [hends]
      rw [hboth]
      cases rest with
      | nil =>
        simp only [mem_cons, not_mem_nil, or_false, forall_eq_or_imp, forall_eq]
        constructor
        · rintro ⟨hnames, hends, hnames', hnot, -⟩
          exact ⟨⟨hnames, hnames'⟩, hends, hnot⟩
        · rintro ⟨⟨hnames, hnames'⟩, hends, hnot⟩
          exact ⟨hnames, hends, hnames', hnot, trivial⟩
      | cons third rest => simp
end Reading

def newDirectory : Directory := ⟨0o40755, 10, 256, [dirSetup 1024 5 2]⟩

def twoBlocks : Directory := ⟨0o40755, 10, 256, [dirSetup 1024 5 2, dirSetup 1024 6 7]⟩

theorem new_directory_read : Reads (ext2Readdir newDirectory) 0 newDirectory.liveEntries := by
  rw [ext2_reads_live_iff (by decide) (by decide) (by
    intro block hblock
    obtain rfl := mem_singleton.mp hblock
    exact dirSetup_tiled (show 1024 ≤ 1024 from le_rfl) (by norm_num) (by norm_num) 5 2)]
  refine ⟨?_, trivial⟩
  intro block hblock j hj
  obtain rfl := mem_singleton.mp hblock
  have hoffsets : liveFrom newDirectory.blockSize (dirSetup 1024 5 2) 0 = [0, 12] := by
    decide +kernel
  rw [hoffsets] at hj
  simp only [mem_cons, not_mem_nil, or_false] at hj
  rcases hj with rfl | rfl
  · decide +kernel
  · decide +kernel

/-- The entries of the second block are answered over and over, so that the end is never reached. -/
theorem second_block_repeated : ¬∃ entries, Reads (ext2Readdir twoBlocks) 0 entries := by
  have hfirst : ext2Readdir twoBlocks 0 = .ok (some ((5, [0x2E#8]), 12)) := by decide +kernel
  have hsecond : ext2Readdir twoBlocks 12 = .ok (some ((2, [0x2E#8, 0x2E#8]), 1024)) := by
    decide +kernel
  have hthird : ext2Readdir twoBlocks 1024 = .ok (some ((6, [0x2E#8]), 1036)) := by decide +kernel
  have hback : ext2Readdir twoBlocks 1036 = .ok (some ((7, [0x2E#8, 0x2E#8]), 1024)) := by
    decide +kernel
  rintro ⟨entries, hread⟩
  obtain ⟨_, -, hread⟩ := (reads_of_some hfirst).mp hread
  obtain ⟨_, -, hread⟩ := (reads_of_some hsecond).mp hread
  obtain ⟨_, rfl, hnext⟩ := (reads_of_some hthird).mp hread
  obtain ⟨_, rfl, hagain⟩ := (reads_of_some hback).mp hnext
  have hsame := congrArg length (hread.unique hagain)
  simp only [length_cons] at hsame
  omega

end Gloworm.Ext2Dir
