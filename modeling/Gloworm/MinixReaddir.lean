import Gloworm.CursorReads
import Gloworm.ErrorNumbers
import Gloworm.Ext2InodeModel

/-! `minix_readdir`: a directory is read entry by entry, with the position in the open file as the
number of the next slot. -/
namespace Gloworm.MinixReaddir
open Cursor List Option
open Ext2Alloc (Byte)

/-- An entry of a directory as it is on the disk, the name without its padding. -/
structure Dirent where
  inode : ℕ
  filename : List Byte
  deriving DecidableEq

abbrev Zone := ℕ → Dirent

structure Directory where
  mode : ℕ
  zones : List Zone
  bound : zones.length ≤ 7 + 512 + 512 * 512

def skipFree (zone : Zone) : ℕ → ℕ → ℕ
  | 0, zpos => zpos
  | fuel + 1, zpos =>
    if zpos < 63 ∧ (zone zpos).inode = 0 then skipFree zone fuel (zpos + 1) else zpos

def scanZones : List Zone → ℕ → ℕ → Option (ℕ × ℕ × Dirent)
  | [], _, _ => none
  | zone :: rest, znum, zpos =>
    let zpos := skipFree zone 64 zpos
    if (zone zpos).inode ≠ 0 then some (znum, zpos, zone zpos) else scanZones rest (znum + 1) zpos

def dirent (entry : Dirent) : Dirent := ⟨entry.inode, entry.filename.take 13⟩

def minixReaddir (dir : Directory) (position : ℕ) : Except ℤ (Option (Dirent × ℕ)) :=
  if !Ext2Inode.isDir dir.mode then .error ENOTDIR
  else
    let znum := position >>> 6
    .ok ((scanZones (dir.zones.drop znum) znum (position &&& 63)).map fun (znum, zpos, entry) =>
      (dirent entry, ((znum <<< 6 ||| zpos) + 1) % 2 ^ 32))

def liveFrom (zone : Zone) (i : ℕ) : List Dirent :=
  (((List.range' i (64 - i)).map zone).filter fun entry => entry.inode ≠ 0).map dirent

def liveEntries (zones : List Zone) : List Dirent := zones.flatMap fun zone => liveFrom zone 0

def readFrom : List Zone → ℕ → List Dirent
  | [], _ => []
  | zone :: rest, zpos => liveFrom zone zpos ++ readFrom rest (if (zone 63).inode = 0 then 63 else 0)

variable {i zpos : ℕ}

section Scan
variable {zone : Zone}

lemma skipFree_spec (zone : Zone) (fuel zpos : ℕ) (hfuel : 64 ≤ fuel + zpos) (hpos : zpos ≤ 63) :
    zpos ≤ skipFree zone fuel zpos ∧ skipFree zone fuel zpos ≤ 63 ∧
      (∀ i, zpos ≤ i → i < skipFree zone fuel zpos → (zone i).inode = 0) ∧
      (skipFree zone fuel zpos < 63 → (zone (skipFree zone fuel zpos)).inode ≠ 0) := by
  induction fuel generalizing zpos with
  | zero => omega
  | succ fuel ih =>
    rw [skipFree]
    split_ifs with hfree
    · obtain ⟨hle, hlast, hskipped, hstop⟩ := ih (zpos + 1) (by omega) (by omega)
      refine ⟨by omega, hlast, fun i hi hlt => ?_, hstop⟩
      by_cases heq : i = zpos
      · rw [heq]
        exact hfree.2
      · exact hskipped i (by omega) hlt
    · exact ⟨le_rfl, hpos, fun i hi hlt => by omega, fun hlt hzero => hfree ⟨hlt, hzero⟩⟩

lemma liveFrom_end (zone : Zone) : liveFrom zone 64 = [] := rfl

lemma liveFrom_free (hpos : zpos < 64) (h : (zone zpos).inode = 0) :
    liveFrom zone zpos = liveFrom zone (zpos + 1) := by
  have hcount : 64 - zpos = 64 - (zpos + 1) + 1 := by omega
  rw [liveFrom, hcount, range'_succ]
  simp [h, liveFrom]

lemma liveFrom_used (hpos : zpos < 64) (h : (zone zpos).inode ≠ 0) :
    liveFrom zone zpos = dirent (zone zpos) :: liveFrom zone (zpos + 1) := by
  have hcount : 64 - zpos = 64 - (zpos + 1) + 1 := by omega
  rw [liveFrom, hcount, range'_succ]
  simp [h, liveFrom]

lemma liveFrom_skip (hle : zpos ≤ i) (hlast : i ≤ 64)
    (h : ∀ k, zpos ≤ k → k < i → (zone k).inode = 0) : liveFrom zone zpos = liveFrom zone i := by
  induction i, hle using Nat.le_induction with
  | base => rfl
  | succ i hle ih =>
    rw [ih (by omega) fun k hk hlt => h k hk (by omega), liveFrom_free (by omega) (h i hle (by omega))]

lemma liveFrom_length_le {k : ℕ} (hle : i ≤ k) (hlast : k ≤ 64) :
    (liveFrom zone k).length ≤ (liveFrom zone i).length := by
  induction k, hle using Nat.le_induction with
  | base => exact le_rfl
  | succ k hle ih =>
    have hprior := ih (by omega)
    by_cases hzero : (zone k).inode = 0
    · rwa [← liveFrom_free (by omega) hzero]
    · rw [liveFrom_used (by omega) hzero, length_cons] at hprior
      omega

lemma liveFrom_length_lt {k : ℕ} (hlt : i < k) (hlast : k ≤ 64) (h : (zone i).inode ≠ 0) :
    (liveFrom zone k).length < (liveFrom zone 0).length := by
  calc (liveFrom zone k).length ≤ (liveFrom zone (i + 1)).length := liveFrom_length_le hlt hlast
    _ < (liveFrom zone i).length := by
      rw [liveFrom_used (by omega) h, length_cons]
      omega
    _ ≤ (liveFrom zone 0).length := liveFrom_length_le (by omega) (by omega)
end Scan
section Reading
variable {dir : Directory}

lemma minixReaddir_eq (hdir : Ext2Inode.isDir dir.mode = true) {front rest : List Zone}
    (hzones : dir.zones = front ++ rest) (hpos : zpos ≤ 63) :
    minixReaddir dir (64 * front.length + zpos) =
      .ok ((scanZones rest front.length zpos).map fun (znum, zpos, entry) =>
        (dirent entry, ((znum <<< 6 ||| zpos) + 1) % 2 ^ 32)) := by
  have hznum : (64 * front.length + zpos) >>> 6 = front.length := by
    rw [Nat.shiftRight_eq_div_pow]
    omega
  have hplace : (64 * front.length + zpos) &&& 63 = zpos := by
    rw [show (63 : ℕ) = 2 ^ 6 - 1 from rfl, Nat.and_two_pow_sub_one_eq_mod]
    omega
  simp only [minixReaddir, hdir, Bool.not_true, Bool.false_eq_true, if_false, hznum, hplace, hzones,
    drop_left]

lemma position_eq {znum : ℕ} (hpos : zpos ≤ 63) (hnum : znum < 2 ^ 25) :
    ((znum <<< 6 ||| zpos) + 1) % 2 ^ 32 = 64 * znum + (zpos + 1) := by
  rw [← Nat.shiftLeft_add_eq_or_of_lt (show zpos < 2 ^ 6 by omega), Nat.shiftLeft_eq]
  omega

lemma reads_readFrom (hdir : Ext2Inode.isDir dir.mode = true) (rest : List Zone) :
    ∀ front zpos, dir.zones = front ++ rest → zpos ≤ 63 →
      Reads (minixReaddir dir) (64 * front.length + zpos) (readFrom rest zpos) := by
  induction rest with
  | nil =>
    intro front zpos hzones hpos
    exact .done (minixReaddir_eq hdir hzones hpos)
  | cons zone tail ih =>
    intro front zpos hzones hpos
    have hnum : front.length < 2 ^ 25 := by
      have hbound := dir.bound
      rw [hzones, length_append] at hbound
      omega
    have hnext : dir.zones = (front ++ [zone]) ++ tail := by simp [hzones]
    have hlength : 64 * (front ++ [zone]).length = 64 * front.length + 64 := by simp; ring
    -- the number of slots behind the place decreases while the zone is read
    induction hslots : 63 - zpos using Nat.strong_induction_on generalizing zpos with
    | _ slots inner =>
      have hanswer := minixReaddir_eq hdir hzones hpos
      rw [scanZones] at hanswer
      obtain ⟨hle, hlast, hskipped, hstop⟩ := skipFree_spec zone 64 zpos (by omega) hpos
      generalize skipFree zone 64 zpos = j at hanswer hle hlast hskipped hstop
      have hskip : liveFrom zone zpos = liveFrom zone j := liveFrom_skip hle (by omega) hskipped
      by_cases hused : (zone j).inode = 0
      · have hj : j = 63 := by
          by_contra hne
          exact hstop (by omega) hused
        subst hj
        simp only [hused, ne_eq, not_true_eq_false, if_false] at hanswer
        have hrest := ih (front ++ [zone]) 63 hnext le_rfl
        rw [readFrom, if_pos hused, hskip, liveFrom_free (by norm_num) hused, liveFrom_end,
          nil_append]
        refine hrest.congr ?_
        rw [hanswer, minixReaddir_eq hdir hnext le_rfl]
        simp
      · simp only [ne_eq, hused, not_false_eq_true, if_true, map_some] at hanswer
        rw [position_eq hlast hnum] at hanswer
        rw [readFrom, hskip, liveFrom_used (by omega) hused, cons_append]
        refine .more hanswer ?_
        by_cases hend : j = 63
        · subst hend
          have hrest := ih (front ++ [zone]) 0 hnext (by norm_num)
          rw [hlength, add_zero] at hrest
          rw [liveFrom_end, if_neg hused, nil_append]
          exact hrest
        · have hmore := inner (63 - (j + 1)) (by omega) (j + 1) (by omega) rfl
          rwa [readFrom] at hmore

lemma readFrom_length_le (zones : List Zone) (hpos : zpos ≤ 64) :
    (readFrom zones zpos).length ≤ (liveEntries zones).length := by
  induction zones generalizing zpos with
  | nil => exact le_rfl
  | cons zone rest ih =>
    have hzone : (liveFrom zone zpos).length ≤ (liveFrom zone 0).length :=
      liveFrom_length_le (Nat.zero_le zpos) hpos
    have hplace : (if (zone 63).inode = 0 then 63 else 0) ≤ 64 := by split_ifs <;> norm_num
    have hrest := ih hplace
    simp only [readFrom, liveEntries, flatMap_cons, length_append] at hrest ⊢
    omega

def Entered (zpos : ℕ) (zones : List Zone) : Prop :=
  zpos = 63 → ∀ zone ∈ zones.head?, ∀ i < 63, (zone i).inode = 0

def Contiguous (zones : List Zone) : Prop :=
  zones.IsChain fun zone next => (zone 63).inode = 0 → ∀ i < 63, (next i).inode = 0

lemma readFrom_eq_iff (zones : List Zone) (hpos : zpos = 0 ∨ zpos = 63) :
    readFrom zones zpos = liveEntries zones ↔ Entered zpos zones ∧ Contiguous zones := by
  induction zones generalizing zpos with
  | nil => exact iff_of_true rfl ⟨by simp [Entered], isChain_nil⟩
  | cons zone rest ih =>
    have hnext : (if (zone 63).inode = 0 then 63 else 0) = 0 ∨
        (if (zone 63).inode = 0 then 63 else 0) = 63 := by
      split_ifs <;> simp
    have hfirst : liveFrom zone zpos = liveFrom zone 0 ↔ Entered zpos (zone :: rest) := by
      simp only [Entered, List.head?_cons, mem_def, some.injEq, forall_eq']
      constructor
      · rintro heq rfl i hi
        by_contra hused
        exact absurd (congrArg List.length heq) (liveFrom_length_lt hi (by norm_num) hused).ne
      · intro hfree
        rcases hpos with rfl | rfl
        · rfl
        · exact (liveFrom_skip (by norm_num) (by norm_num) fun k _ hk => hfree rfl k hk).symm
    have hsplit : readFrom (zone :: rest) zpos = liveEntries (zone :: rest) ↔
        liveFrom zone zpos = liveFrom zone 0 ∧
          readFrom rest (if (zone 63).inode = 0 then 63 else 0) = liveEntries rest := by
      constructor
      · intro heq
        have hlength := congrArg List.length heq
        have hzone : (liveFrom zone zpos).length ≤ (liveFrom zone 0).length :=
          liveFrom_length_le (Nat.zero_le zpos) (by omega)
        have hrest := readFrom_length_le rest
          (show (if (zone 63).inode = 0 then 63 else 0) ≤ 64 by omega)
        simp only [readFrom, liveEntries, flatMap_cons, length_append] at hlength hrest heq
        exact append_inj heq (by omega)
      · rintro ⟨hzone, hrest⟩
        rw [readFrom, hzone, hrest]
        rfl
    rw [hsplit, hfirst, ih hnext]
    have hchain : Contiguous (zone :: rest) ↔
        Entered (if (zone 63).inode = 0 then 63 else 0) rest ∧ Contiguous rest := by
      rw [Contiguous, isChain_cons, Entered]
      by_cases hzero : (zone 63).inode = 0
      · simp [hzero, Contiguous]
      · simp [hzero, Contiguous]
    rw [hchain]

/-- Reading answers every entry in use once, in order, exactly if no zone with an entry in front of
its last slot follows one whose last slot is free. -/
theorem reads_live_iff (hdir : Ext2Inode.isDir dir.mode = true) :
    Reads (minixReaddir dir) 0 (liveEntries dir.zones) ↔ Contiguous dir.zones := by
  have hread : Reads (minixReaddir dir) 0 (readFrom dir.zones 0) :=
    reads_readFrom hdir dir.zones [] 0 rfl (by norm_num)
  have hiff := readFrom_eq_iff dir.zones (.inl rfl)
  constructor
  · intro hlive
    exact (hiff.mp (hread.unique hlive)).2
  · intro hchain
    rw [← hiff.mpr ⟨by simp [Entered], hchain⟩]
    exact hread
end Reading

def sparseDirectory (i : ℕ) : Directory where
  mode := 0o40755
  zones := [fun k => if k < 3 then ⟨k + 1, [0x61#8]⟩ else ⟨0, []⟩,
    fun k => if k = i then ⟨9, [0x62#8]⟩ else ⟨0, []⟩]
  bound := by simp

theorem reads_last_slot :
    Reads (minixReaddir (sparseDirectory 63)) 0 (liveEntries (sparseDirectory 63).zones) := by
  rw [reads_live_iff (by decide)]
  refine isChain_cons.mpr ⟨?_, isChain_singleton _⟩
  simp only [List.head?_cons, mem_def, some.injEq, forall_eq']
  intro _ i hi
  rw [if_neg (by omega)]

/-- The scan of the next zone starts at its last slot. -/
theorem first_slot_missed :
    ¬ Reads (minixReaddir (sparseDirectory 0)) 0 (liveEntries (sparseDirectory 0).zones) := by
  have hfirst : minixReaddir (sparseDirectory 0) 0 = .ok (some (⟨1, [0x61#8]⟩, 1)) := by
    decide +kernel
  have hsecond : minixReaddir (sparseDirectory 0) 1 = .ok (some (⟨2, [0x61#8]⟩, 2)) := by
    decide +kernel
  have hthird : minixReaddir (sparseDirectory 0) 2 = .ok (some (⟨3, [0x61#8]⟩, 3)) := by
    decide +kernel
  have hend : minixReaddir (sparseDirectory 0) 3 = .ok none := by decide +kernel
  have hread := Reads.more hfirst (.more hsecond (.more hthird (.done hend)))
  intro hlive
  exact absurd (hread.unique hlive) (by decide +kernel)

end Gloworm.MinixReaddir
