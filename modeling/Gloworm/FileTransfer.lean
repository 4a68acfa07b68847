import Gloworm.ErrorNumbers
import Gloworm.MachineWords
import Gloworm.TransitionRuns

/-! The loop over the blocks of a file that reads and writes share, and the calls of the open files
of a vnode on it, up to the end of the file. What a file system keeps of the file is a parameter. -/
namespace Gloworm.FileTransfer
open Word Function Transition List Option

abbrev Byte := BitVec 8

/-- The operations of a file system on the blocks of a file. -/
structure FileOps (σ : Type) where
  logSize : ℕ
  readable : ℕ → Bool
  lookup : σ → ℕ → ℕ
  create : σ → ℕ → ℕ × σ
  write : σ → ℕ → ℤ → List Byte → σ
  truncate : σ → σ

/-- A range of a block that is copied. -/
structure Piece where
  block : ℕ
  znum : ℕ
  zpos : ℤ
  zlen : ℤ

section Loop
variable {σ : Type}

def pieceLength (logSize : ℕ) (zpos : ℤ) (nbytes : ℕ) : ℤ :=
  let zlen := toShort (2 ^ logSize - zpos)
  if nbytes < toUnsigned zlen then toShort nbytes else zlen

/-- The loop over the blocks of a transfer. -/
def transferLoop (logSize : ℕ) (round : σ → ℕ → ℤ → ℤ → ℕ → σ × Bool) :
    ℕ → σ → ℕ → ℤ → ℕ → ℕ → Option (σ × ℕ × Bool)
  | 0, _, _, _, _, _ => none
  | fuel + 1, s, znum, zpos, nbytes, wbytes =>
    let zlen := pieceLength logSize zpos nbytes
    let (s, more) := round s znum zpos zlen wbytes
    if more then
      let nbytes := toUnsigned (nbytes - zlen)
      let wbytes := toUnsigned (wbytes + zlen)
      if 0 < nbytes then transferLoop logSize round fuel s (znum + 1) 0 nbytes wbytes
      else some (s, wbytes, true)
    else some (s, wbytes, false)

def transfer (logSize : ℕ) (round : σ → ℕ → ℤ → ℤ → ℕ → σ × Bool) (s : σ) (position nbytes : ℕ) :
    Option (σ × ℕ × Bool) :=
  transferLoop logSize round (nbytes + 1) s (position >>> logSize)
    (toShort ((position &&& (2 ^ logSize - 1) : ℕ) : ℤ)) nbytes 0

def pieceLoop (logSize : ℕ) (round : σ → ℕ → ℕ → ℕ → ℕ → σ × Bool) :
    ℕ → σ → ℕ → ℕ → ℕ → Option (σ × ℕ × Bool)
  | 0, _, _, _, _ => none
  | fuel + 1, s, offset, nbytes, wbytes =>
    let zlen := min (2 ^ logSize - offset % 2 ^ logSize) nbytes
    let next := round s (offset / 2 ^ logSize) (offset % 2 ^ logSize) zlen wbytes
    if next.2 then
      if zlen < nbytes then
        pieceLoop logSize round fuel next.1 (offset + zlen) (nbytes - zlen) (wbytes + zlen)
      else some (next.1, wbytes + zlen, true)
    else some (next.1, wbytes, false)

section
variable {logSize nbytes : ℕ} (hlog : logSize ≤ 14)
include hlog

lemma pieceLength_eq {zpos : ℕ} (hzpos : zpos < 2 ^ logSize) (hnbytes : nbytes < 2 ^ 32) :
    pieceLength logSize zpos nbytes = (min (2 ^ logSize - zpos) nbytes : ℕ) := by
  have hsize : 2 ^ logSize ≤ 2 ^ 14 := Nat.pow_le_pow_right (by norm_num) hlog
  have hcast : (2 : ℤ) ^ logSize = ((2 ^ logSize : ℕ) : ℤ) := by push_cast; rfl
  rw [pieceLength, hcast]
  generalize 2 ^ logSize = size at hsize hzpos
  have hshort : toShort ((size : ℤ) - zpos) = (size : ℤ) - zpos :=
    toShort_of_mem (by omega) (by omega)
  have hword : toUnsigned ((size : ℤ) - zpos) = size - zpos := by
    rw [toUnsigned_of_mem (by omega) (by omega)]
    omega
  simp only [hshort, hword]
  split_ifs with hless
  · rw [toShort_of_mem (by omega) (by omega)]
    omega
  · omega

lemma transferLoop_eq {round : σ → ℕ → ℤ → ℤ → ℕ → σ × Bool} {fuel offset wbytes : ℕ} {s : σ}
    (hbytes : wbytes + nbytes < 2 ^ 32) :
    transferLoop logSize round fuel s (offset / 2 ^ logSize) ((offset % 2 ^ logSize : ℕ) : ℤ) nbytes
        wbytes =
      pieceLoop logSize (fun s znum zpos zlen => round s znum zpos zlen) fuel s offset nbytes
        wbytes := by
  induction fuel generalizing s offset nbytes wbytes with
  | zero => rfl
  | succ fuel ih =>
    have hsize : 0 < 2 ^ logSize := Nat.two_pow_pos logSize
    have hmod := Nat.mod_lt offset hsize
    have hdiv := Nat.div_add_mod offset (2 ^ logSize)
    rw [transferLoop, pieceLoop, pieceLength_eq hlog hmod (by omega)]
    generalize hzlen : min (2 ^ logSize - offset % 2 ^ logSize) nbytes = zlen
    have hrest : toUnsigned ((nbytes : ℤ) - zlen) = nbytes - zlen := by
      rw [toUnsigned_of_mem (by omega) (by omega)]
      omega
    have hdone : toUnsigned ((wbytes : ℤ) + zlen) = wbytes + zlen := by
      rw [toUnsigned_of_mem (by omega) (by omega)]
      omega
    simp only [hrest, hdone, Nat.sub_pos_iff_lt]
    split_ifs with hmore hleft
    · have hnext : offset + zlen = 2 ^ logSize * (offset / 2 ^ logSize + 1) := by
        rw [mul_add, mul_one]
        omega
      have hloop : transferLoop logSize round fuel
          (round s (offset / 2 ^ logSize) ((offset % 2 ^ logSize : ℕ) : ℤ) zlen wbytes).1
          ((offset + zlen) / 2 ^ logSize) (((offset + zlen) % 2 ^ logSize : ℕ) : ℤ) (nbytes - zlen)
          (wbytes + zlen) = _ := ih (by omega)
      rw [hnext, Nat.mul_div_cancel_left _ hsize, Nat.mul_mod_right, Nat.cast_zero, ← hnext] at hloop
      exact hloop
    · rfl
    · rfl

lemma transfer_eq (round : σ → ℕ → ℤ → ℤ → ℕ → σ × Bool) (s : σ) {position : ℕ}
    (hbytes : nbytes < 2 ^ 32) : transfer logSize round s position nbytes =
      pieceLoop logSize (fun s znum zpos zlen => round s znum zpos zlen) (nbytes + 1) s position
        nbytes 0 := by
  have hsize : 2 ^ logSize ≤ 2 ^ 14 := Nat.pow_le_pow_right (by norm_num) hlog
  have hmod : position % 2 ^ logSize < 2 ^ logSize := Nat.mod_lt _ (Nat.two_pow_pos logSize)
  rw [transfer, Nat.shiftRight_eq_div_pow, Nat.and_two_pow_sub_one_eq_mod,
    toShort_of_mem (by omega) (by omega)]
  exact transferLoop_eq hlog (by omega)
end
end Loop

/-- A file, and the positions of those that have it open. -/
structure Shared (σ : Type) where
  fs : σ
  isDir : Bool
  size : ℕ
  position : ℕ → ℕ
  size_lt : size < 2 ^ 32
  position_lt : ∀ fd, position fd < 2 ^ 32

inductive Whence
  | set
  | cur
  | fromEnd
  | invalid

inductive Call
  | openFile (fd : ℕ) (append : Bool)
  | read (fd nbytes : ℕ)
  | write (fd : ℕ) (data : List Byte)
  | seek (fd position : ℕ) (whence : Whence)
  | truncate

section Calls
variable {σ : Type} (ops : FileOps σ) (s : Shared σ)

def Shared.moveTo (fd position : ℕ) : Shared σ :=
  { s with
    position := Function.update s.position fd (position % 2 ^ 32)
    position_lt := by
      intro fd'
      rw [Function.update_apply]
      split_ifs
      · exact Nat.mod_lt _ (by norm_num)
      · exact s.position_lt fd' }

def readRound (fs : σ) (pieces : List Piece) (znum : ℕ) (zpos zlen : ℤ) (_ : ℕ) :
    List Piece × Bool :=
  let block := ops.lookup fs znum
  if block ≠ 0 ∧ ops.readable block then (pieces ++ [⟨block, znum, zpos, zlen⟩], true)
  else (pieces, false)

def fileRead (fd nbytes : ℕ) : Option (Except ℤ (List Piece × ℕ)) :=
  if s.isDir then some (.error EISDIR)
  else
    let rest := sub32 s.size (s.position fd)
    let nbytes := if rest < nbytes then rest else nbytes
    (transfer ops.logSize (readRound ops s.fs) [] (s.position fd) nbytes).map fun r =>
      .ok (r.1, r.2.1)

def writeRound (data : List Byte) (fs : σ × ℤ) (znum : ℕ) (zpos zlen : ℤ) (done : ℕ) :
    (σ × ℤ) × Bool :=
  let (block, fs) := ops.create fs.1 znum
  if block = 0 then ((fs, ENOSPC), false)
  else if ops.readable block then
    ((ops.write fs block zpos ((data.drop done).take zlen.toNat), 0), true)
  else ((fs, EIO), false)

def fileWrite (fd : ℕ) (data : List Byte) : Option (ℤ × Shared σ) :=
  if s.isDir then some (EISDIR, s)
  else
    (transfer ops.logSize (writeRound ops data) (s.fs, 0) (s.position fd) data.length).map fun r =>
      let position := (s.position fd + r.2.1) % 2 ^ 32
      (if r.1.2 ≠ 0 then r.1.2 else r.2.1,
        { s.moveTo fd position with
          fs := r.1.1
          size := if s.size < position then position else s.size
          size_lt := by
            split_ifs
            · exact Nat.mod_lt _ (by norm_num)
            · exact s.size_lt })

def fileSeek (fd position : ℕ) : Whence → Shared σ
  | .set => seekTo (position % 2 ^ 32)
  | .cur => seekTo (add32 (s.position fd) position)
  | .fromEnd => seekTo (add32 s.size position)
  | .invalid => s
where
  seekTo (position : ℕ) : Shared σ := s.moveTo fd (if s.size < position then s.size else position)

def fileTruncate : Shared σ :=
  if s.isDir then s
  else { s with fs := ops.truncate s.fs, size := 0, size_lt := by norm_num }

def perform : Call → Option (Shared σ)
  | .openFile fd append => some (s.moveTo fd (if append then s.size else 0))
  | .read fd nbytes => (fileRead ops s fd nbytes).map fun
    | .error _ => s
    | .ok r => s.moveTo fd (add32 (s.position fd) r.2)
  | .write fd data => (fileWrite ops s fd data).map Prod.snd
  | .seek fd position whence => some (fileSeek s fd position whence)
  | .truncate => some (fileTruncate ops s)

def CallStep (call : Call) (t : Shared σ) : Prop := perform ops s call = some t
end Calls
section Bounds
variable {σ : Type} (ops : FileOps σ) (s : Shared σ) (fd n : ℕ)

def HasBlock (fs : σ) (znum : ℕ) : Prop :=
  ops.lookup fs znum ≠ 0 ∧ ops.readable (ops.lookup fs znum) = true

/-- A read answers no more than there is in front of the end, and copies no byte from behind it. -/
def ReadRight : Prop :=
  match fileRead ops s fd n with
  | none => False
  | some (.error _) => True
  | some (.ok (pieces, count)) =>
    (s.size ≤ s.position fd → count = 0) ∧ (s.position fd < s.size → count ≤ s.size - s.position fd) ∧
      ∀ piece ∈ pieces, ∀ k, 0 ≤ k → k < piece.zlen →
        piece.znum * 2 ^ ops.logSize + piece.zpos + k < s.size

def Between (logSize start stop : ℕ) (pieces : List Piece) : Prop :=
  ∀ piece ∈ pieces, start ≤ piece.znum * 2 ^ logSize + piece.zpos ∧
    piece.znum * 2 ^ logSize + piece.zpos + piece.zlen ≤ stop

variable {ops s fd n}

lemma pieceLoop_read (ops : FileOps σ) (fs : σ) (offset : ℕ) {fuel nbytes : ℕ} (hfuel : nbytes < fuel)
    (pieces : List Piece) (wbytes : ℕ) : ∃ copied count ended, pieceLoop ops.logSize
        (fun pieces znum zpos zlen => readRound ops fs pieces znum zpos zlen) fuel pieces offset nbytes
          wbytes = some (pieces ++ copied, wbytes + count, ended) ∧
      count ≤ nbytes ∧ Between ops.logSize offset (offset + nbytes) copied ∧
      (¬HasBlock ops fs (offset / 2 ^ ops.logSize) → count = 0 ∧ copied = []) ∧
      (HasBlock ops fs (offset / 2 ^ ops.logSize) → 0 < nbytes → 0 < count) := by
  induction fuel generalizing offset nbytes pieces wbytes with
  | zero => omega
  | succ fuel ih =>
    have hsize : 0 < 2 ^ ops.logSize := Nat.two_pow_pos _
    have hmod := Nat.mod_lt offset hsize
    have hdiv := Nat.div_add_mod offset (2 ^ ops.logSize)
    rw [pieceLoop]
    by_cases hblock : HasBlock ops fs (offset / 2 ^ ops.logSize)
    · generalize hzlen : min (2 ^ ops.logSize - offset % 2 ^ ops.logSize) nbytes = zlen
      have hround : ∀ done, readRound ops fs pieces (offset / 2 ^ ops.logSize)
          ((offset % 2 ^ ops.logSize : ℕ) : ℤ) zlen done = (pieces ++
            [⟨ops.lookup fs (offset / 2 ^ ops.logSize), offset / 2 ^ ops.logSize,
              ((offset % 2 ^ ops.logSize : ℕ) : ℤ), zlen⟩], true) := fun _ => if_pos hblock
      have hplace : ((offset / 2 ^ ops.logSize : ℕ) : ℤ) * 2 ^ ops.logSize +
          ((offset % 2 ^ ops.logSize : ℕ) : ℤ) = offset := by
        rw [mul_comm]
        exact_mod_cast hdiv
      simp only [hround, if_true]
      generalize hpiece : (⟨ops.lookup fs (offset / 2 ^ ops.logSize), offset / 2 ^ ops.logSize,
        ((offset % 2 ^ ops.logSize : ℕ) : ℤ), zlen⟩ : Piece) = piece
      have hlast : (offset : ℤ) ≤ piece.znum * 2 ^ ops.logSize + piece.zpos ∧
          piece.znum * 2 ^ ops.logSize + piece.zpos + piece.zlen ≤ ((offset + nbytes : ℕ) : ℤ) := by
        subst hpiece
        dsimp only
        rw [hplace]
        omega
      split_ifs with hleft
      · obtain ⟨copied, count, ended, heq, hle, hend, -, -⟩ :=
          ih (offset + zlen) (show nbytes - zlen < fuel by omega) (pieces ++ [piece]) (wbytes + zlen)
        refine ⟨piece :: copied, zlen + count, ended, ?_, by omega, ?_,
          fun h => absurd hblock h, fun _ _ => by omega⟩
        · rw [heq]
          simp [add_assoc]
        · intro other hother
          rcases mem_cons.mp hother with rfl | hother
          · exact hlast
          · have hother := hend other hother
            omega
      · refine ⟨[piece], zlen, true, rfl, by omega, ?_, fun h => absurd hblock h,
          fun _ _ => by omega⟩
        intro other hother
        obtain rfl := mem_singleton.mp hother
        exact hlast
    · have hround : ∀ zpos zlen done, readRound ops fs pieces (offset / 2 ^ ops.logSize) zpos zlen
          done = (pieces, false) := fun _ _ _ => if_neg hblock
      simp only [hround, Bool.false_eq_true, if_false]
      refine ⟨[], 0, false, by simp, by omega, ?_, fun _ => ⟨rfl, rfl⟩, fun h => absurd h hblock⟩
      intro piece hpiece
      simp at hpiece

variable (s fd)

lemma fileRead_spec (hlog : ops.logSize ≤ 14) (hdir : s.isDir = false) (hn : n < 2 ^ 32)
    {nbytes : ℕ} (hnbytes : (if sub32 s.size (s.position fd) < n then sub32 s.size (s.position fd)
      else n) = nbytes) :
    ∃ pieces count, fileRead ops s fd n = some (.ok (pieces, count)) ∧ count ≤ nbytes ∧
      Between ops.logSize (s.position fd) (s.position fd + nbytes) pieces ∧
      (¬HasBlock ops s.fs (s.position fd / 2 ^ ops.logSize) → count = 0 ∧ pieces = []) ∧
      (HasBlock ops s.fs (s.position fd / 2 ^ ops.logSize) → 0 < nbytes → 0 < count) := by
  obtain ⟨pieces, count, ended, heq, hspec⟩ :=
    pieceLoop_read ops s.fs (s.position fd) (Nat.lt_succ_self nbytes) [] 0
  refine ⟨pieces, count, ?_, hspec⟩
  have hlt : nbytes < 2 ^ 32 := by
    split_ifs at hnbytes <;> omega
  rw [fileRead, hdir]
  simp only [Bool.false_eq_true, if_false, hnbytes]
  rw [transfer_eq hlog _ _ hlt, heq]
  simp

lemma readRight_iff (hlog : ops.logSize ≤ 14) (hn : n < 2 ^ 32) :
    ReadRight ops s fd n ↔ s.isDir = true ∨ s.position fd ≤ s.size ∨ n = 0 ∨
      ¬HasBlock ops s.fs (s.position fd / 2 ^ ops.logSize) := by
  cases hdir : s.isDir with
  | true => simp [ReadRight, fileRead, hdir]
  | false =>
    obtain ⟨pieces, count, heq, hle, hbetween, hnone, hsome⟩ :=
      fileRead_spec s fd hlog hdir hn rfl
    have hsize := s.size_lt
    have hposition := s.position_lt fd
    rw [ReadRight, heq]
    simp only [Bool.false_eq_true, false_or]
    rcases Nat.lt_or_ge s.size (s.position fd) with hbehind | hwithin
    · have hrest : 0 < sub32 s.size (s.position fd) := by
        unfold sub32
        omega
      constructor
      · rintro ⟨hzero, -, -⟩
        by_contra hnot
        push Not at hnot
        obtain ⟨-, hpos, hblock⟩ := hnot
        have hcount := hsome hblock (by split_ifs <;> omega)
        have hnothing := hzero hbehind.le
        omega
      · rintro (hle' | rfl | hmissing)
        · omega
        · rw [if_neg (Nat.not_lt_zero _)] at hle hbetween
          refine ⟨fun _ => by omega, fun _ => by omega, ?_⟩
          intro piece hpiece k hk hlt
          have hplace := hbetween piece hpiece
          omega
        · obtain ⟨rfl, rfl⟩ := hnone hmissing
          simp
    · have hsub : sub32 s.size (s.position fd) = s.size - s.position fd :=
        sub32_of_le hwithin hsize
      rw [hsub] at hle hbetween
      refine ⟨fun _ => .inl hwithin, fun _ => ⟨?_, ?_, ?_⟩⟩
      · intro hend
        split_ifs at hle <;> omega
      · intro _
        split_ifs at hle <;> omega
      · intro piece hpiece k hk hlt
        have hplace := hbetween piece hpiece
        split_ifs at hplace <;> omega
end Bounds
section Runs
variable {σ : Type} {ops : FileOps σ} {s t : Shared σ}

/-- No position is behind the end. -/
def Within (s : Shared σ) : Prop := ∀ fd, s.position fd ≤ s.size

variable {fd : ℕ}

lemma Within.moveTo (h : Within s) {position : ℕ} (hposition : position % 2 ^ 32 ≤ s.size) :
    Within (s.moveTo fd position) := by
  intro other
  change update s.position fd (position % 2 ^ 32) other ≤ s.size
  rw [update_apply]
  split_ifs
  · exact hposition
  · exact h other

lemma Within.moveTo_le (h : Within s) {position : ℕ} (hposition : position ≤ s.size) :
    Within (s.moveTo fd position) :=
  h.moveTo ((Nat.mod_le position _).trans hposition)

lemma Within.seek (h : Within s) (fd position : ℕ) (whence : Whence) :
    Within (fileSeek s fd position whence) := by
  have hseek : ∀ position, Within (fileSeek.seekTo s fd position) := by
    intro position
    rw [fileSeek.seekTo]
    apply h.moveTo_le
    split_ifs with hbehind
    · exact le_rfl
    · omega
  cases whence with
  | set => exact hseek _
  | cur => exact hseek _
  | fromEnd => exact hseek _
  | invalid => exact h

lemma Within.read (hlog : ops.logSize ≤ 14) (h : Within s) {n : ℕ} (hn : n < 2 ^ 32)
    (hstep : perform ops s (.read fd n) = some t) : Within t := by
  cases hdir : s.isDir with
  | true =>
    simp only [perform, fileRead, hdir, if_true, map_some, some.injEq] at hstep
    rw [← hstep]
    exact h
  | false =>
    obtain ⟨pieces, count, heq, hle, -⟩ := fileRead_spec s fd hlog hdir hn rfl
    have hsize := s.size_lt
    have hposition := h fd
    rw [sub32_of_le hposition hsize] at hle
    simp only [perform, heq, map_some, some.injEq] at hstep
    rw [← hstep]
    apply h.moveTo_le
    have hcount : s.position fd + count ≤ s.size := by
      split_ifs at hle <;> omega
    rw [add32_of_lt (by omega)]
    exact hcount

lemma Within.write (h : Within s) {data : List Byte}
    (hstep : perform ops s (.write fd data) = some t) : Within t := by
  simp only [perform, fileWrite] at hstep
  split_ifs at hstep with hdir
  · simp only [map_some, some.injEq] at hstep
    rw [← hstep]
    exact h
  · rw [Option.map_map, map_eq_some_iff] at hstep
    obtain ⟨r, -, rfl⟩ := hstep
    intro other
    have hother := h other
    change update s.position fd (((s.position fd + r.2.1) % 2 ^ 32) % 2 ^ 32) other ≤
      if s.size < (s.position fd + r.2.1) % 2 ^ 32 then (s.position fd + r.2.1) % 2 ^ 32 else s.size
    rw [update_apply]
    split_ifs <;> omega

def Call.Fits : Call → Prop
  | .read _ n => n < 2 ^ 32
  | _ => True

lemma Within.step (hlog : ops.logSize ≤ 14) (h : Within s) {call : Call} (hfits : call.Fits)
    (hcall : call ≠ .truncate) (hstep : CallStep ops s call t) : Within t := by
  cases call with
  | openFile fd append =>
    obtain rfl := some.inj hstep
    apply h.moveTo_le
    split_ifs
    · exact le_rfl
    · exact Nat.zero_le _
  | read fd n => exact h.read hlog hfits hstep
  | write fd data => exact h.write hstep
  | seek fd position whence =>
    obtain rfl := some.inj hstep
    exact h.seek fd position whence
  | truncate => exact absurd rfl hcall

/-- In every run a read respects the end of the file exactly if it starts before the end, asks for
nothing or finds no block; only a truncation puts the end before a position. -/
theorem reads_end_iff (hlog : ops.logSize ≤ 14) {calls : List Call}
    (hrun : Run (CallStep ops) s calls t) (fd : ℕ) {n : ℕ} (hn : n < 2 ^ 32) :
    (ReadRight ops t fd n ↔ t.isDir = true ∨ t.position fd ≤ t.size ∨ n = 0 ∨
      ¬HasBlock ops t.fs (t.position fd / 2 ^ ops.logSize)) ∧
    (Within s → (∀ call ∈ calls, call.Fits ∧ call ≠ .truncate) → Within t) := by
  refine ⟨readRight_iff t fd hlog hn, ?_⟩
  intro hwithin hcalls
  induction hrun with
  | nil => exact hwithin
  | snoc hprior hnext ih =>
    have hlast := hcalls _ (mem_append_right _ mem_cons_self)
    have hfirst := ih fun call hcall => hcalls call (mem_append_left _ hcall)
    exact hfirst.step hlog hlast.1 hlast.2 hnext
end Runs

def mapOps : FileOps (ℕ → Bool) where
  logSize := 10
  readable _ := true
  lookup present znum := if present znum then znum + 1 else 0
  create present znum := (znum + 1, update present znum true)
  write present _ _ _ := present
  truncate _ := fun _ => false

def sharedFile : Shared (ℕ → Bool) where
  fs znum := znum = 0
  isDir := false
  size := 600
  position fd := if fd = 1 then 500 else 0
  size_lt := by norm_num
  position_lt fd := by split_ifs <;> norm_num

theorem read_in_front : ReadRight mapOps sharedFile 1 200 :=
  (reads_end_iff (by decide) (.nil _) 1 (by norm_num)).1.mpr (.inr (.inl (by decide)))

/-- A position behind the end makes the rest a huge number. -/
theorem read_behind_end : ∃ s, Run (CallStep mapOps) sharedFile
      [.truncate, .write 2 (List.replicate 10 7#8)] s ∧ s.size = 10 ∧ s.position 1 = 500 ∧
      ¬ReadRight mapOps s 1 100 := by
  refine (exists_run (p := fun s => s.size = 10 ∧ s.position 1 = 500 ∧ s.isDir = false ∧
    mapOps.lookup s.fs 0 = 1) (f := perform mapOps) (fun _ _ _ h => h) (by decide +kernel)).imp
    fun s ⟨hrun, hsize, hposition, hdir, hlookup⟩ => ⟨hrun, hsize, hposition, ?_⟩
  have hblock : HasBlock mapOps s.fs (500 / 2 ^ mapOps.logSize) := by
    refine ⟨?_, rfl⟩
    rw [show 500 / 2 ^ mapOps.logSize = 0 from rfl, hlookup]
    exact one_ne_zero
  rw [readRight_iff s 1 (by decide) (by norm_num), hposition, hsize, hdir]
  simp [hblock]

end Gloworm.FileTransfer
