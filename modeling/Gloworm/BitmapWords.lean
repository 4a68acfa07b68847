import Mathlib

/-! Bitmaps kept in an array of words. Bit `n` is bit `n % w` of word `n / w`. -/
namespace Gloworm.Bitmap
open Function Option
variable {w : ℕ}

def bitAt (data : ℕ → BitVec w) (n : ℕ) : Bool := (data (n / w)).getLsbD (n % w)

def bitMask (n : ℕ) : BitVec w := 1#w <<< (n % w)

def setBit (data : ℕ → BitVec w) (n : ℕ) : ℕ → BitVec w :=
  update data (n / w) (data (n / w) ||| bitMask n)

def clearBit (data : ℕ → BitVec w) (n : ℕ) : ℕ → BitVec w :=
  update data (n / w) (data (n / w) &&& ~~~(bitMask n))

def lowMask : ℕ → BitVec w
  | 0 => 0#w
  | n + 1 => (lowMask n <<< 1) ||| 1#w

variable {b n words : ℕ}

lemma getLsbD_bitMask (n : ℕ) (hb : b < w) :
    (bitMask n : BitVec w).getLsbD b = decide (b = n % w) := by
  have hn : n % w < w := Nat.mod_lt n (by omega)
  simp only [bitMask, BitVec.getLsbD_shiftLeft, BitVec.getLsbD_one]
  rcases lt_trichotomy b (n % w) with h | h | h
  · simp [h, h.ne]
  · subst h
    simp
    omega
  · have h1 : b - n % w ≠ 0 := by omega
    have h2 : b ≠ n % w := by omega
    simp [h1, h2]

lemma getLsbD_lowMask (n b : ℕ) : (lowMask n : BitVec w).getLsbD b = decide (b < n ∧ b < w) := by
  induction n generalizing b with
  | zero => simp [lowMask]
  | succ n ih =>
    rw [lowMask, BitVec.getLsbD_or, BitVec.getLsbD_shiftLeft, BitVec.getLsbD_one, ih]
    cases b with
    | zero => by_cases hw : 0 < w <;> simp [hw]
    | succ b =>
      by_cases hw : b + 1 < w
      · simp [hw]
        omega
      · simp [hw]

lemma eq_of_div_mod {m : ℕ} (hd : m / w = n / w) (hm : m % w = n % w) : m = n := by
  rw [← Nat.div_add_mod m w, ← Nat.div_add_mod n w, hd, hm]

lemma bitAt_update (data : ℕ → BitVec w) (i : ℕ) (v : BitVec w) (n : ℕ) :
    bitAt (update data i v) n =
      if n / w = i then v.getLsbD (n % w) else bitAt data n := by
  unfold bitAt
  rw [update_apply]
  split_ifs <;> rfl

lemma decide_mod_eq {m : ℕ} (hd : m / w = n / w) : decide (m % w = n % w) = decide (m = n) :=
  decide_eq_decide.mpr ⟨eq_of_div_mod hd, fun he => by rw [he]⟩

lemma bitAt_setBit (hw : 0 < w) (data : ℕ → BitVec w) (n m : ℕ) :
    bitAt (setBit data n) m = (bitAt data m || decide (m = n)) := by
  unfold bitAt setBit
  by_cases hd : m / w = n / w
  · rw [hd, update_self, BitVec.getLsbD_or, getLsbD_bitMask n (Nat.mod_lt m hw), decide_mod_eq hd]
  · have hne : m ≠ n := fun he => hd (by rw [he])
    rw [update_of_ne hd]
    simp [hne]

lemma bitAt_clearBit (hw : 0 < w) (data : ℕ → BitVec w) (n m : ℕ) :
    bitAt (clearBit data n) m = (bitAt data m && !decide (m = n)) := by
  unfold bitAt clearBit
  by_cases hd : m / w = n / w
  · have hlt := Nat.mod_lt m hw
    rw [hd, update_self, BitVec.getLsbD_and, BitVec.getLsbD_not,
      getLsbD_bitMask n hlt, decide_eq_true hlt, Bool.true_and, decide_mod_eq hd]
  · have hne : m ≠ n := fun he => hd (by rw [he])
    rw [update_of_ne hd]
    simp [hne]

def firstClear (data : ℕ → BitVec w) (words : ℕ) : Option ℕ :=
  ((List.range words).find? fun i => ~~~(data i) ≠ 0#w).map fun i =>
    ((List.range w).find? fun b => !(data i).getLsbD b).getD w + i * w

lemma exists_clear {d : BitVec w} (h : ~~~d ≠ 0#w) : ∃ b < w, d.getLsbD b = false := by
  by_contra hno
  apply h
  apply BitVec.eq_of_getLsbD_eq
  intro b hb
  have hset : d.getLsbD b = true := by
    by_contra hf
    exact hno ⟨b, hb, by simpa using hf⟩
  simp [hset]

lemma all_set {d : BitVec w} (h : ~~~d = 0#w) (hb : b < w) : d.getLsbD b = true := by
  have h1 := congrArg (fun x => BitVec.getLsbD x b) h
  simpa [hb] using h1

lemma bitAt_add {i : ℕ} (hb : b < w) (data : ℕ → BitVec w) :
    bitAt data (b + i * w) = (data i).getLsbD b := by
  have hw : 0 < w := by omega
  rw [bitAt, Nat.add_mul_div_right _ _ hw, Nat.div_eq_of_lt hb, zero_add, Nat.add_mul_mod_self_right,
    Nat.mod_eq_of_lt hb]

variable {data : ℕ → BitVec w}

lemma firstClear_some (h : firstClear data words = some n) :
    n < words * w ∧ bitAt data n = false ∧ ∀ m < n, bitAt data m = true := by
  obtain ⟨i, hi, rfl⟩ := map_eq_some_iff.mp h
  obtain ⟨hfree, hmem, hbefore⟩ := List.find?_range_eq_some.mp hi
  obtain ⟨b₀, hb₀, hclear₀⟩ := exists_clear (by simpa using hfree : ~~~(data i) ≠ 0#w)
  have hsome : ((List.range w).find? fun b => !(data i).getLsbD b).isSome :=
    List.find?_isSome.mpr ⟨b₀, List.mem_range.mpr hb₀, by simp [hclear₀]⟩
  obtain ⟨b, hb⟩ := isSome_iff_exists.mp hsome
  obtain ⟨hclear, hlt, hlow⟩ := List.find?_range_eq_some.mp hb
  rw [List.mem_range] at hmem hlt
  rw [hb, getD_some]
  have hbound : (i + 1) * w ≤ words * w := Nat.mul_le_mul_right w hmem
  rw [Nat.succ_mul] at hbound
  refine ⟨by omega, by rw [bitAt_add hlt]; simpa using hclear, ?_⟩
  intro m hm
  have hw : 0 < w := by omega
  by_cases hword : m / w < i
  · have hfull := hbefore (m / w) hword
    exact all_set (by simpa using hfull) (Nat.mod_lt m hw)
  · have hdm := Nat.div_add_mod m w
    have hq : m / w = i := by
      have hle : m / w < i + 1 := by
        rw [Nat.div_lt_iff_lt_mul hw, Nat.succ_mul]
        omega
      omega
    have hr : m % w < b := by
      rw [hq, mul_comm] at hdm
      omega
    have hset := hlow (m % w) hr
    rw [bitAt, hq]
    simpa using hset

lemma firstClear_none (h : firstClear data words = none) (hn : n < words * w) :
    bitAt data n = true := by
  have hw : 0 < w := by
    rcases Nat.eq_zero_or_pos w with rfl | hw
    · omega
    · exact hw
  have hfind := List.find?_eq_none.mp (map_eq_none_iff.mp h)
  have hword := hfind (n / w) (List.mem_range.mpr ((Nat.div_lt_iff_lt_mul hw).mpr hn))
  exact all_set (by simpa using hword) (Nat.mod_lt n hw)

lemma firstClear_eq (hn : n < words * w) (hclear : bitAt data n = false)
    (hlow : ∀ m < n, bitAt data m = true) : firstClear data words = some n := by
  cases h : firstClear data words with
  | none => simp [firstClear_none h hn] at hclear
  | some m =>
    obtain ⟨_, hm, hlow'⟩ := firstClear_some h
    rcases lt_trichotomy m n with hlt | rfl | hlt
    · simp [hlow m hlt] at hm
    · rfl
    · simp [hlow' n hlt] at hclear

lemma bitAt_setBit_eq (hw : 0 < w) (data : ℕ → BitVec w) (n : ℕ) :
    bitAt (setBit data n) = update (bitAt data) n true := by
  funext m
  rw [bitAt_setBit hw]
  by_cases h : m = n
  · simp [h]
  · simp [h]

lemma bitAt_clearBit_eq (hw : 0 < w) (data : ℕ → BitVec w) (n : ℕ) :
    bitAt (clearBit data n) = update (bitAt data) n false := by
  funext m
  rw [bitAt_clearBit hw]
  by_cases h : m = n
  · simp [h]
  · simp [h]

def clearCount (data : ℕ → BitVec w) (n : ℕ) : ℕ :=
  ((Finset.range n).filter fun i => bitAt data i = false).card

lemma clearCount_pos_iff : 0 < clearCount data n ↔ ∃ i < n, bitAt data i = false := by
  simp [clearCount, Finset.card_pos, Finset.Nonempty]

lemma clearCount_setBit (hw : 0 < w) {i : ℕ} (hi : i < n)
    (hclear : bitAt data i = false) : clearCount (setBit data i) n = clearCount data n - 1 := by
  have herase : ((Finset.range n).filter fun m => bitAt (setBit data i) m = false) =
      ((Finset.range n).filter fun m => bitAt data m = false).erase i := by
    ext m
    simp only [Finset.mem_filter, Finset.mem_erase, bitAt_setBit hw, Bool.or_eq_false_iff,
      decide_eq_false_iff_not]
    tauto
  rw [clearCount, herase, Finset.card_erase_of_mem (by simp [hi, hclear]), clearCount]

end Gloworm.Bitmap
