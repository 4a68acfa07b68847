import Gloworm.Ext2DirRuns

/-! What inserting an entry in an ext2 directory leaves of the entries that were there. -/
namespace Gloworm.Ext2Dir
open Word Tiling List Option
open ByteOrder (swap16)

abbrev Reuses (n : ℕ) (block : Block) (i : ℕ) : Prop := isUnused block i ∧ n ≤ rawLen block i

def takeAt (n : ℕ) (block : Block) (i : ℕ) : Block :=
  if Reuses n block i then block
  else setRawLen (setRawLen block i (swap16 (entryMinLen block i))) (i + entryMinLen block i)
    (swap16 (entryLen block i - entryMinLen block i))

def placeAt (n : ℕ) (block : Block) (i : ℕ) : ℕ :=
  if Reuses n block i then i else i + entryMinLen block i

def roomAt (n : ℕ) (block : Block) (i : ℕ) : ℕ :=
  if Reuses n block i then entryLen block i else entryLen block i - entryMinLen block i

def Written (name : List Byte) (i x : ℕ) : Prop := x = i + 6 ∨ i + 8 ≤ x ∧ x ≤ i + 8 + name.length

structure KeptEntry (blockSize : ℕ) (block block' : Block) (x : ℕ) : Prop where
  chain : Boundary blockSize block' x
  inode : ∀ n < 4, block' (x + n) = block (x + n)
  nameLen_eq : nameLen block' x = nameLen block x
  name : ∀ n < nameLen block x, block' (x + 8 + n) = block (x + 8 + n)

/-- The new entry stays in its own record, and all live entries are kept. -/
def InsertsApart (blockSize room : ℕ) (name : List Byte) (dir : List Block) : Prop :=
  ∃ dir' pos, dirAllocEntry blockSize room name dir = some (dir', pos) ∧
    (∀ (z : ℕ) (b : Block), dir[z]? = some b → ∃ b', dir'[z]? = some b' ∧
      ∀ x, Boundary blockSize b x → isUnused b x = false → KeptEntry blockSize b b' x) ∧
    ∀ (z i : ℕ), pos = some (z, i) → ∃ b', dir'[z]? = some b' ∧ Boundary blockSize b' i ∧
      8 + name.length ≤ entryLen b' i ∧ ∀ x, Written name i x → x < i + entryLen b' i

structure ValidBlock (blockSize : ℕ) (block : Block) : Prop where
  tiled : TiledBlock blockSize block
  names : ∀ x, Boundary blockSize block x → isUnused block x = false →
    8 + nameLen block x ≤ entryLen block x

def LeavesByte (blockSize : ℕ) (name : List Byte) (dir : List Block) : Prop :=
  ∀ block i, FirstHit blockSize (Accepts (newEntryLen name)) dir block i →
    8 + name.length < roomAt (newEntryLen name) block i

variable {j x : ℕ} {front back : List Block} {block : Block}

section Search
variable {blockSize n : ℕ}

lemma findEmptyLoop_miss (h : TiledBlock blockSize block)
    (hno : ∀ x, Boundary blockSize block x → ¬Accepts n block x) :
    findEmptyLoop blockSize n (blockSize + 1) block 0 = some (block, none) := by
  rcases findEmptyLoop_spec (n := n) h (.nil 0) (Nat.zero_le _)
    (show blockSize < blockSize + 1 + 0 by omega) (by simp) with ⟨hres, -⟩ | ⟨j, hj, hacc, -⟩
  · exact hres
  · exact absurd hacc (hno j hj)

lemma findEmptyLoop_hit (h : TiledBlock blockSize block) (hj : Boundary blockSize block j)
    (hacc : Accepts n block j) (hfirst : ∀ x < j, Boundary blockSize block x → ¬Accepts n block x) :
    findEmptyLoop blockSize n (blockSize + 1) block 0 =
      some (takeAt n block j, some (placeAt n block j)) := by
  rcases findEmptyLoop_spec (n := n) h (.nil 0) (Nat.zero_le _)
    (show blockSize < blockSize + 1 + 0 by omega) (by simp) with
    ⟨-, hno⟩ | ⟨k, hk, hacc', hfirst', hres⟩
  · exact absurd hacc (hno j hj)
  have hkj : k = j := by
    rcases lt_trichotomy k j with hlt | heq | hgt
    · exact absurd hacc' (hfirst k hlt hk)
    · exact heq
    · exact absurd hacc (hfirst' j hgt hj)
  subst hkj
  rcases hres with ⟨hun, hraw, hres⟩ | ⟨hnot, -, hres⟩
  · rw [hres, takeAt, placeAt, if_pos ⟨hun, hraw⟩, if_pos ⟨hun, hraw⟩]
  · rw [hres, takeAt, placeAt, if_neg hnot, if_neg hnot]

lemma dirFindEmptyEntry_hit (room : ℕ) (hfront : ∀ b ∈ front, TiledBlock blockSize b)
    (h : TiledBlock blockSize block)
    (hno : ∀ b ∈ front, ∀ x, Boundary blockSize b x → ¬Accepts n b x)
    (hj : Boundary blockSize block j) (hacc : Accepts n block j)
    (hfirst : ∀ x < j, Boundary blockSize block x → ¬Accepts n block x) :
    dirFindEmptyEntry blockSize n room (front ++ block :: back) =
      some (front ++ takeAt n block j :: back, some (front.length, placeAt n block j)) := by
  induction front with
  | nil =>
    rw [nil_append, dirFindEmptyEntry, findEmptyLoop_hit h hj hacc hfirst]
    rfl
  | cons b front ih =>
    rw [cons_append, dirFindEmptyEntry, findEmptyLoop_miss (hfront b (by simp)) (hno b (by simp)),
      ih (fun c hc => hfront c (by simp [hc])) fun c hc => hno c (by simp [hc])]
    rfl

variable {dir : List Block}

lemma dirFindEmptyEntry_miss (room : ℕ) (hdir : ∀ b ∈ dir, TiledBlock blockSize b)
    (hno : ∀ b ∈ dir, ∀ x, Boundary blockSize b x → ¬Accepts n b x) :
    dirFindEmptyEntry blockSize n room dir = (growDir blockSize n room).map fun next =>
      (dir ++ next.1, next.2.map fun p => (p.1 + dir.length, p.2)) := by
  induction dir with
  | nil =>
    rw [dirFindEmptyEntry]
    cases growDir blockSize n room with
    | none => rfl
    | some next => simp
  | cons b dir ih =>
    rw [dirFindEmptyEntry, findEmptyLoop_miss (hdir b (by simp)) (hno b (by simp)),
      ih (fun c hc => hdir c (by simp [hc])) fun c hc => hno c (by simp [hc])]
    cases growDir blockSize n room with
    | none => rfl
    | some next =>
      simp only [bind_some, map_some, cons_append, length_cons, Option.map_map]
      congr 3

lemma firstHit_or_none (hdir : ∀ b ∈ dir, TiledBlock blockSize b) :
    (∃ b j, FirstHit blockSize (Accepts n) dir b j) ∨
      ∀ b ∈ dir, ∀ x, Boundary blockSize b x → ¬Accepts n b x := by
  induction dir with
  | nil => exact .inr (by simp)
  | cons b dir ih =>
    rcases findEmptyLoop_spec (n := n) (hdir b (by simp)) (.nil 0) (Nat.zero_le _)
      (show blockSize < blockSize + 1 + 0 by omega) (by simp) with
      ⟨-, hno⟩ | ⟨j, hj, hacc, hfirst, -⟩
    · rcases ih fun c hc => hdir c (by simp [hc]) with ⟨c, j, hhit⟩ | hnone
      · exact .inl ⟨c, j, hhit.cons hno⟩
      · refine .inr fun c hc => ?_
        rcases mem_cons.mp hc with rfl | hc
        · exact hno
        · exact hnone c hc
    · exact .inl ⟨b, j, .here hj hacc hfirst⟩
end Search
section Entry
variable {blockSize i : ℕ} {block' : Block}

lemma boundary_write (hi : Boundary blockSize block i) (hleast : 8 ≤ entryLen block i)
    (hunit : 4 ∣ entryLen block i)
    (hsame : ∀ y, y < i + 6 ∨ i + entryLen block i ≤ y → block' y = block y)
    (hx : Boundary blockSize block x) : Boundary blockSize block' x := by
  refine ⟨?_, hx.2⟩
  rcases Nat.lt_or_ge i x with hlt | hge
  · have hrest := ((hi.1.between hx.1 hlt.le (by norm_num)).head hlt).2.2
    have hlen : entryLen block' i = entryLen block i :=
      entryLen_congr (hsame _ (by omega)) (hsame _ (by omega))
    have hto := Tiled.entry_before hi.1 fun y hy => hsame y (by omega)
    refine hto.trans (.cons (by omega) (by omega) ?_)
    rw [hlen]
    exact Tiled.entry_after (j := i + entryLen block i - 1) hrest
      (fun y hy => hsame y (by omega)) (by omega)
  · exact Tiled.entry_before hx.1 fun y hy => hsame y (by omega)

lemma boundary_split (h : TiledBlock blockSize block) (hi : Boundary blockSize block i) {m : ℕ}
    (hm : 8 ≤ m) (hm4 : 4 ∣ m) (hfit : m + 8 ≤ entryLen block i) (hx : Boundary blockSize block x) :
    Boundary blockSize
      (setRawLen (setRawLen block i (swap16 m)) (i + m) (swap16 (entryLen block i - m))) x := by
  obtain ⟨-, hsecond, hlen⟩ := tiled_split h hi hm hm4 hfit
  refine ⟨?_, hx.2⟩
  obtain ⟨hleast, hunit, -⟩ := hi.rest h
  rcases Nat.lt_or_ge i x with hlt | hge
  · have hrest := ((hi.1.between hx.1 hlt.le (by norm_num)).head hlt).2.2
    refine hsecond.1.trans (.cons (by omega) (by rw [hlen]; exact Nat.dvd_sub hunit hm4) ?_)
    rw [hlen, show i + m + (entryLen block i - m) = i + entryLen block i by omega]
    exact Tiled.entry_after (j := i + m + 5) hrest (fun y hy =>
      (setRawLen_of_ne _ _ (by omega) (by omega)).trans (setRawLen_of_ne _ _ (by omega) (by omega)))
      (by omega)
  · exact Tiled.entry_before hx.1 fun y hy =>
      (setRawLen_of_ne _ _ (by omega) (by omega)).trans (setRawLen_of_ne _ _ (by omega) (by omega))

lemma keptEntry_of_same (hchain : Boundary blockSize block' x)
    (hsame : ∀ y, x ≤ y → y < x + 8 + nameLen block x → y ≠ x + 4 → y ≠ x + 5 →
      block' y = block y) : KeptEntry blockSize block block' x where
  chain := hchain
  inode := fun n hn => hsame _ (by omega) (by omega) (by omega) (by omega)
  nameLen_eq := by
    rw [nameLen, nameLen, hsame (x + 6) (by omega) (by omega) (by omega) (by omega)]
  name := fun n hn => hsame _ (by omega) (by omega) (by omega) (by omega)

lemma writeName_same {name : List Byte} (hx : ¬Written name i x) :
    writeName name i block x = block x := by
  simp only [Written, not_or, not_and, not_le] at hx
  apply writeName_bytes name hx.1
  rcases Nat.lt_or_ge x (i + 8) with hlt | hge
  · exact .inl hlt
  · exact .inr (hx.2 hge)
end Entry
section Insert
variable {blockSize : ℕ} {name : List Byte}

def insertAt (name : List Byte) (block : Block) (j : ℕ) : Block :=
  writeName name (placeAt (newEntryLen name) block j) (takeAt (newEntryLen name) block j)

section
variable (h : TiledBlock blockSize block) (hname : name.length ≤ 255)
  (hj : Boundary blockSize block j) (hacc : Accepts (newEntryLen name) block j)
include h hname hj hacc

lemma boundary_takeAt :
    Boundary blockSize (takeAt (newEntryLen name) block j) (placeAt (newEntryLen name) block j) ∧
      entryLen (takeAt (newEntryLen name) block j) (placeAt (newEntryLen name) block j) =
        roomAt (newEntryLen name) block j := by
  obtain ⟨hlow, -, -⟩ := newEntryLen_bounds hname
  unfold takeAt placeAt roomAt
  split_ifs with hreuse
  · exact ⟨hj, rfl⟩
  · obtain ⟨hmin, -, hmin4⟩ := entryMinLen_bounds block j
    have hsplit := hacc.resolve_left hreuse
    obtain ⟨-, hbound, hlen⟩ := tiled_split h hj hmin hmin4 (by omega)
    exact ⟨hbound, hlen⟩

lemma entryLen_insertAt : entryLen (insertAt name block j) (placeAt (newEntryLen name) block j) =
      roomAt (newEntryLen name) block j := by
  rw [← (boundary_takeAt h hname hj hacc).2]
  exact entryLen_congr (writeName_bytes name (by omega) (by omega))
    (writeName_bytes name (by omega) (by omega))

lemma boundary_insertAt (hroom : 8 + name.length < roomAt (newEntryLen name) block j)
    (hx : Boundary blockSize (takeAt (newEntryLen name) block j) x)
    (hunit : 4 ∣ roomAt (newEntryLen name) block j) :
    Boundary blockSize (insertAt name block j) x := by
  obtain ⟨hbound, hlen⟩ := boundary_takeAt h hname hj hacc
  refine boundary_write hbound (by omega) (by rw [hlen]; exact hunit) ?_ hx
  intro y hy
  apply writeName_same
  simp only [Written]
  omega
end

lemma dvd_roomAt (h : TiledBlock blockSize block) (hj : Boundary blockSize block j) (n : ℕ) :
    4 ∣ roomAt n block j := by
  obtain ⟨-, hunit, -⟩ := hj.rest h
  unfold roomAt
  split_ifs
  · exact hunit
  · exact Nat.dvd_sub hunit (entryMinLen_bounds block j).2.2

lemma name_le_entryMinLen (block : Block) (j : ℕ) : 8 + nameLen block j ≤ entryMinLen block j := by
  have hlt : nameLen block j < 256 := (block (j + 6)).isLt
  exact (alignUp_four (by omega)).1

lemma keptEntry_insertAt (h : ValidBlock blockSize block) (hname : name.length ≤ 255)
    (hj : Boundary blockSize block j) (hacc : Accepts (newEntryLen name) block j)
    (hroom : 8 + name.length < roomAt (newEntryLen name) block j) (hx : Boundary blockSize block x)
    (hlive : isUnused block x = false) : KeptEntry blockSize block (insertAt name block j) x := by
  have hunit := dvd_roomAt h.tiled hj (newEntryLen name)
  have hchain := fun hx' => boundary_insertAt (x := x) h.tiled hname hj hacc hroom hx' hunit
  have hend := h.names x hx hlive
  by_cases hreuse : Reuses (newEntryLen name) block j
  · simp only [takeAt, placeAt, roomAt, insertAt, if_pos hreuse] at hchain hroom ⊢
    refine keptEntry_of_same (hchain hx) ?_
    intro y hlo hhi _ _
    apply writeName_same
    simp only [Written]
    rcases lt_trichotomy x j with hlt | heq | hgt
    · have := hx.le_of_lt hj hlt
      omega
    · rw [heq, hreuse.1] at hlive
      cases hlive
    · have := hj.le_of_lt hx hgt
      omega
  · simp only [takeAt, placeAt, roomAt, insertAt, if_neg hreuse] at hchain hroom ⊢
    obtain ⟨hmin, -, hmin4⟩ := entryMinLen_bounds block j
    have hnamed := name_le_entryMinLen block j
    refine keptEntry_of_same (hchain (boundary_split h.tiled hj hmin hmin4 (by omega) hx)) ?_
    intro y hlo hhi h4 h5
    have hplace : (y < j ∨ y < j + entryMinLen block j ∧ y ≠ j + 4 ∧ y ≠ j + 5) ∨
        j + entryLen block j ≤ y := by
      rcases lt_trichotomy x j with hlt | heq | hgt
      · have := hx.le_of_lt hj hlt
        omega
      · subst heq
        omega
      · have := hj.le_of_lt hx hgt
        omega
    rw [writeName_same (by simp only [Written]; omega), setRawLen_of_ne _ _ (by omega) (by omega),
      setRawLen_of_ne _ _ (by omega) (by omega)]
end Insert
section Directory
variable {blockSize room : ℕ} {name : List Byte} {dir : List Block}

lemma modify_mid {α : Type*} (f : α → α) (front back : List α) (a : α) :
    (front ++ a :: back).modify front.length f = front ++ f a :: back := by
  induction front with
  | nil => rfl
  | cons b front ih => simp [ih]

section
variable {n : ℕ} (hsize : 1024 ≤ blockSize) (h4 : 4 ∣ blockSize) (hlt : blockSize < 65536)
  (hlow : 8 ≤ n) (hhigh : n ≤ 264)
include hsize h4 hlt hlow hhigh

lemma growDir_succ (room : ℕ) :
    ∃ fresh, ValidBlock blockSize fresh ∧ Boundary blockSize fresh 0 ∧ Accepts n fresh 0 ∧
      blockSize ≤ roomAt n fresh 0 + 8 ∧
      growDir blockSize n (room + 1) = some ([takeAt n fresh 0], some (0, placeAt n fresh 0)) := by
  obtain ⟨htiled, hlen, hmin⟩ := tiledBlock_whole (by omega) h4 hlt
  have hzero : rawLen (fun _ => 0#8) 0 = 0 := rfl
  have hunused : isUnused (setRawLen (fun _ => 0#8) 0 (swap16 (blockSize % 2 ^ 16))) 0 = true := by
    simp [isUnused, setRawLen_of_ne]
  rw [growDir, findEmptyLoop, if_neg (by omega)]
  simp only [if_pos hzero]
  generalize setRawLen (fun _ => 0#8) 0 (swap16 (blockSize % 2 ^ 16)) = fresh at *
  have hbound : Boundary blockSize fresh 0 := ⟨.nil 0, by omega⟩
  refine ⟨fresh, ⟨htiled, ?_⟩, hbound, .inr (by omega), ?_, ?_⟩
  · intro x hx hlive
    rcases Nat.eq_zero_or_pos x with rfl | hpos
    · rw [hunused] at hlive
      cases hlive
    · have := hbound.le_of_lt hx hpos
      have := hx.2
      omega
  · unfold roomAt
    split_ifs
    · omega
    · omega
  · unfold takeAt placeAt
    split_ifs with hreuse hfit
    · rfl
    · rfl
    · omega

end

lemma keptEntry_refl (hx : Boundary blockSize block x) : KeptEntry blockSize block block x :=
  keptEntry_of_same hx fun _ _ _ _ _ => rfl

lemma new_entry (h : TiledBlock blockSize block) (hname : name.length ≤ 255)
    (hj : Boundary blockSize block j) (hacc : Accepts (newEntryLen name) block j)
    (hroom : 8 + name.length < roomAt (newEntryLen name) block j) :
    Boundary blockSize (insertAt name block j) (placeAt (newEntryLen name) block j) ∧
      8 + name.length ≤ entryLen (insertAt name block j) (placeAt (newEntryLen name) block j) ∧
      ∀ x, Written name (placeAt (newEntryLen name) block j) x →
        x < placeAt (newEntryLen name) block j +
          entryLen (insertAt name block j) (placeAt (newEntryLen name) block j) := by
  have hlen := entryLen_insertAt h hname hj hacc
  refine ⟨boundary_insertAt h hname hj hacc hroom (boundary_takeAt h hname hj hacc).1
    (dvd_roomAt h hj _), by omega, ?_⟩
  rintro x hx
  simp only [Written] at hx
  omega

section
variable (hno : ∀ b ∈ front, ∀ x, Boundary blockSize b x → ¬Accepts (newEntryLen name) b x)
  (hj : Boundary blockSize block j) (hacc : Accepts (newEntryLen name) block j)
  (hfirst : ∀ x < j, Boundary blockSize block x → ¬Accepts (newEntryLen name) block x)
include hno hj hacc hfirst

lemma dirAllocEntry_hit (hdir : ∀ b ∈ front ++ block :: back, TiledBlock blockSize b) :
    dirAllocEntry blockSize room name (front ++ block :: back) =
      some (front ++ insertAt name block j :: back,
        some (front.length, placeAt (newEntryLen name) block j)) := by
  rw [dirAllocEntry, dirFindEmptyEntry_hit room (fun b hb => hdir b (by simp [hb]))
    (hdir block (by simp)) hno hj hacc hfirst, map_some]
  simp only [modify_mid]
  rfl

lemma insertsApart_hit (hdir : ∀ b ∈ front ++ block :: back, ValidBlock blockSize b)
    (hname : name.length ≤ 255)
    (hroom : 8 + name.length < roomAt (newEntryLen name) block j) :
    InsertsApart blockSize room name (front ++ block :: back) := by
  have hblock := hdir block (by simp)
  refine ⟨_, _, dirAllocEntry_hit hno hj hacc hfirst fun b hb => (hdir b hb).tiled, ?_, ?_⟩
  · intro z b hb
    rcases lt_trichotomy z front.length with hlt | rfl | hgt
    · refine ⟨b, ?_, fun x hx _ => keptEntry_refl hx⟩
      rw [List.getElem?_append_left hlt] at hb ⊢
      exact hb
    · have heq : block = b := by simpa using hb
      subst heq
      exact ⟨_, by simp, fun x hx hlive => keptEntry_insertAt hblock hname hj hacc hroom hx hlive⟩
    · refine ⟨b, ?_, fun x hx _ => keptEntry_refl hx⟩
      obtain ⟨k, rfl⟩ := Nat.exists_eq_add_of_lt hgt
      rw [List.getElem?_append_right (by omega)] at hb ⊢
      rw [show front.length + k + 1 - front.length = k + 1 by omega] at hb ⊢
      simpa using hb
  · intro z i hpos
    obtain ⟨rfl, rfl⟩ := Prod.mk.inj (some.inj hpos)
    exact ⟨_, by simp, new_entry hblock.tiled hname hj hacc hroom⟩
end

lemma insertsApart_miss (hsize : 1024 ≤ blockSize) (h4 : 4 ∣ blockSize) (hlt : blockSize < 65536)
    (hdir : ∀ b ∈ dir, ValidBlock blockSize b) (hname : name.length ≤ 255)
    (hno : ∀ b ∈ dir, ∀ x, Boundary blockSize b x → ¬Accepts (newEntryLen name) b x) :
    InsertsApart blockSize room name dir := by
  have hres := dirFindEmptyEntry_miss room (fun b hb => (hdir b hb).tiled) hno
  cases room with
  | zero =>
    rw [growDir, map_some, append_nil] at hres
    refine ⟨dir, none, by rw [dirAllocEntry, hres]; rfl, ?_, fun z i hpos => by cases hpos⟩
    intro z b hb
    exact ⟨b, hb, fun x hx _ => keptEntry_refl hx⟩
  | succ room =>
    obtain ⟨hlow, hhigh, -⟩ := newEntryLen_bounds hname
    obtain ⟨fresh, hfresh, hbound, hacc, hwhole, hgrow⟩ :=
      growDir_succ hsize h4 hlt hlow hhigh room
    have hroom : 8 + name.length < roomAt (newEntryLen name) fresh 0 := by omega
    rw [hgrow, map_some, map_some] at hres
    refine ⟨dir ++ [insertAt name fresh 0],
      some (dir.length, placeAt (newEntryLen name) fresh 0), ?_, ?_, ?_⟩
    · rw [dirAllocEntry, hres]
      simp only [map_some, zero_add, modify_mid]
      rfl
    · intro z b hb
      have hz : z < dir.length := (List.getElem?_eq_some_iff.mp hb).1
      refine ⟨b, ?_, fun x hx _ => keptEntry_refl hx⟩
      rw [List.getElem?_append_left hz]
      exact hb
    · intro z i hpos
      obtain ⟨rfl, rfl⟩ := Prod.mk.inj (some.inj hpos)
      exact ⟨_, by simp, new_entry hfresh.tiled hname hbound hacc hroom⟩

lemma leavesByte_of_insertsApart (hdir : ∀ b ∈ dir, TiledBlock blockSize b)
    (hname : name.length ≤ 255) (h : InsertsApart blockSize room name dir) :
    LeavesByte blockSize name dir := by
  obtain ⟨dir', pos, hres, -, hpos⟩ := h
  rintro block j ⟨front, back, rfl, hno, hj, hacc, hfirst⟩
  rw [dirAllocEntry_hit hno hj hacc hfirst hdir, some.injEq, Prod.mk.injEq] at hres
  obtain ⟨rfl, rfl⟩ := hres
  obtain ⟨b', hb', -, -, hwritten⟩ := hpos _ _ rfl
  have heq : insertAt name block j = b' := by simpa using hb'
  subst heq
  have hlast := hwritten (placeAt (newEntryLen name) block j + 8 + name.length)
    (.inr ⟨by omega, le_rfl⟩)
  rw [entryLen_insertAt (hdir block (by simp)) hname hj hacc] at hlast
  omega

/-- An insertion is apart exactly when the chosen record has a byte left for the terminator. -/
theorem dirAllocEntry_apart_iff (hsize : 1024 ≤ blockSize) (h4 : 4 ∣ blockSize)
    (hlt : blockSize < 65536) (hdir : ∀ b ∈ dir, ValidBlock blockSize b)
    (hname : 1 ≤ name.length ∧ name.length ≤ 255) :
    InsertsApart blockSize room name dir ↔ LeavesByte blockSize name dir := by
  have htiled := fun b hb => (hdir b hb).tiled
  constructor
  · exact leavesByte_of_insertsApart htiled hname.2
  · intro hleaves
    rcases firstHit_or_none (n := newEntryLen name) htiled with ⟨block, j, hhit⟩ | hnone
    · have hroom := hleaves block j hhit
      obtain ⟨front, back, rfl, hno, hj, hacc, hfirst⟩ := hhit
      exact insertsApart_hit hno hj hacc hfirst hdir hname.2 hroom
    · exact insertsApart_miss hsize h4 hlt hdir hname.2 hnone
end Directory

def gapBlock : Block :=
  let block := setEntry (fun _ => 0#8) 0 2 12 [0x2E#8]
  let block := setEntry block 12 2 12 [0x2E#8, 0x2E#8]
  let block := setEntry block 24 0 12 []
  setEntry block 36 0x105 988 [0x66#8]

lemma gapBlock_boundary (hx : Boundary 1024 gapBlock x) : x = 0 ∨ x = 12 ∨ x = 24 ∨ x = 36 := by
  obtain ⟨h, hlt⟩ := hx
  rcases h.eq_or_next with h0 | h
  · exact .inl h0
  rw [show 0 + entryLen gapBlock 0 = 12 by decide] at h
  rcases h.eq_or_next with h12 | h
  · exact .inr (.inl h12)
  rw [show 12 + entryLen gapBlock 12 = 24 by decide] at h
  rcases h.eq_or_next with h24 | h
  · exact .inr (.inr (.inl h24))
  rw [show 24 + entryLen gapBlock 24 = 36 by decide] at h
  rcases h.eq_or_next with h36 | h
  · exact .inr (.inr (.inr h36))
  rw [show 36 + entryLen gapBlock 36 = 1024 by decide] at h
  have := h.le
  omega

lemma gapBlock_entry {i n : ℕ} (h : Tiled 8 4 (entryLen gapBlock) 0 i)
    (hn : entryLen gapBlock i = n) (hleast : 8 ≤ n) (hunit : 4 ∣ n) :
    Tiled 8 4 (entryLen gapBlock) 0 (i + n) := by
  subst hn
  exact h.snoc hleast hunit

lemma gapBlock_entries : Tiled 8 4 (entryLen gapBlock) 0 24 ∧ TiledBlock 1024 gapBlock := by
  have h12 := gapBlock_entry (.nil 0) (by decide : _ = 12) (by norm_num) (by norm_num)
  have h24 := gapBlock_entry h12 (by decide : _ = 12) (by norm_num) (by norm_num)
  have h36 := gapBlock_entry h24 (by decide : _ = 12) (by norm_num) (by norm_num)
  exact ⟨h24, gapBlock_entry h36 (by decide : _ = 988) (by norm_num) (by norm_num)⟩

lemma gapBlock_valid : ValidBlock 1024 gapBlock where
  tiled := gapBlock_entries.2
  names := by
    intro x hx hlive
    rcases gapBlock_boundary hx with rfl | rfl | rfl | rfl
    · decide
    · decide
    · exact absurd hlive (by decide)
    · decide

theorem short_name_inserted :
    (∀ b ∈ [gapBlock], ValidBlock 1024 b) ∧ InsertsApart 1024 0 [0x61#8] [gapBlock] := by
  have hdir : ∀ b ∈ [gapBlock], ValidBlock 1024 b := by
    intro b hb
    rw [mem_singleton.mp hb]
    exact gapBlock_valid
  refine ⟨hdir, (dirAllocEntry_apart_iff (by norm_num) (by norm_num) (by norm_num) hdir
    (by decide)).mpr ?_⟩
  rintro block i ⟨front, back, hsplit, -, hi, hacc, -⟩
  have hblock : block = gapBlock := by
    have hmem : block ∈ [gapBlock] := by
      rw [hsplit]
      simp
    exact mem_singleton.mp hmem
  subst hblock
  rcases gapBlock_boundary hi with rfl | rfl | rfl | rfl
  · exact absurd hacc (by unfold Accepts; decide +kernel)
  · exact absurd hacc (by unfold Accepts; decide +kernel)
  · decide +kernel
  · decide +kernel

theorem terminator_overwrites_inode : (∀ b ∈ [gapBlock], ValidBlock 1024 b) ∧
      (∃ block', dirAllocEntry 1024 0 [0x61#8, 0x62#8, 0x63#8, 0x64#8] [gapBlock] =
        some ([block'], some (0, 24)) ∧ gapBlock 36 = 0x05#8 ∧ block' 36 = 0x00#8) ∧
      ¬InsertsApart 1024 0 [0x61#8, 0x62#8, 0x63#8, 0x64#8] [gapBlock] := by
  have hdir : ∀ b ∈ [gapBlock], ValidBlock 1024 b := by
    intro b hb
    rw [mem_singleton.mp hb]
    exact gapBlock_valid
  have htiled : ∀ b ∈ [gapBlock], TiledBlock 1024 b := fun b hb => (hdir b hb).tiled
  have hbound : Boundary 1024 gapBlock 24 := ⟨gapBlock_entries.1, by norm_num⟩
  have hacc : Accepts (newEntryLen [0x61#8, 0x62#8, 0x63#8, 0x64#8]) gapBlock 24 := by
    unfold Accepts
    decide +kernel
  have hfirst : ∀ x < 24, Boundary 1024 gapBlock x →
      ¬Accepts (newEntryLen [0x61#8, 0x62#8, 0x63#8, 0x64#8]) gapBlock x := by
    intro x hx hb
    rcases gapBlock_boundary hb with rfl | rfl | rfl | rfl
    · unfold Accepts
      decide +kernel
    · unfold Accepts
      decide +kernel
    · omega
    · omega
  have hres : dirAllocEntry 1024 0 [0x61#8, 0x62#8, 0x63#8, 0x64#8] ([] ++ gapBlock :: []) = _ :=
    dirAllocEntry_hit (by simp) hbound hacc hfirst htiled
  have hplace : placeAt (newEntryLen [0x61#8, 0x62#8, 0x63#8, 0x64#8]) gapBlock 24 = 24 := by
    decide +kernel
  rw [hplace] at hres
  refine ⟨hdir, ⟨insertAt [0x61#8, 0x62#8, 0x63#8, 0x64#8] gapBlock 24, hres, by decide +kernel,
    by decide +kernel⟩, ?_⟩
  intro hapart
  have hleaves := leavesByte_of_insertsApart htiled (by decide) hapart gapBlock 24
    (.here hbound hacc hfirst)
  revert hleaves
  decide +kernel

end Gloworm.Ext2Dir
