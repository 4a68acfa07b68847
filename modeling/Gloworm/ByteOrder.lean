import Mathlib

/-! Words in the memory of a big-endian machine, and the exchange of their bytes. -/
namespace Gloworm.ByteOrder

abbrev Memory := ℕ → BitVec 8

def swap16 (w : ℕ) : ℕ := w / 256 % 256 + w % 256 * 256

def swap32 (w : ℕ) : ℕ :=
  w / 16777216 % 256 + w / 65536 % 256 * 256 + w / 256 % 256 * 65536 + w % 256 * 16777216

def load16 (m : Memory) (a : ℕ) : ℕ := (m a).toNat * 2 ^ 8 + (m (a + 1)).toNat

def load32 (m : Memory) (a : ℕ) : ℕ := load16 m a * 2 ^ 16 + load16 m (a + 2)

def store16 (m : Memory) (a w : ℕ) : Memory := fun i =>
  if i = a then BitVec.ofNat 8 (w / 2 ^ 8) else if i = a + 1 then BitVec.ofNat 8 w else m i

def store32 (m : Memory) (a w : ℕ) : Memory := store16 (store16 m a (w / 2 ^ 16)) (a + 2) w

lemma swap16_lt (w : ℕ) : swap16 w < 2 ^ 16 := by
  unfold swap16
  omega

lemma swap32_lt (w : ℕ) : swap32 w < 2 ^ 32 := by
  unfold swap32
  omega

lemma swap16_digits {a b : ℕ} (ha : a < 256) (hb : b < 256) :
    swap16 (a + b * 256) = b + a * 256 := by
  unfold swap16
  omega

lemma swap32_digits {a b c d : ℕ} (ha : a < 256) (hb : b < 256) (hc : c < 256) (hd : d < 256) :
    swap32 (a + b * 256 + c * 65536 + d * 16777216) = d + c * 256 + b * 65536 + a * 16777216 := by
  unfold swap32
  omega

variable {w : ℕ}

lemma swap16_swap16 (hw : w < 2 ^ 16) : swap16 (swap16 w) = w := by
  calc swap16 (w / 256 % 256 + w % 256 * 256) = w % 256 + w / 256 % 256 * 256 :=
        swap16_digits (by omega) (by omega)
    _ = w := by omega

lemma swap32_swap32 (hw : w < 2 ^ 32) : swap32 (swap32 w) = w := by
  calc swap32 (w / 16777216 % 256 + w / 65536 % 256 * 256 + w / 256 % 256 * 65536 +
          w % 256 * 16777216) =
        w % 256 + w / 256 % 256 * 256 + w / 65536 % 256 * 65536 + w / 16777216 % 256 * 16777216 :=
        swap32_digits (by omega) (by omega) (by omega) (by omega)
    _ = w := by omega

section Access
variable {m m' : Memory} {a b i : ℕ}

lemma store16_apply (h : i < a ∨ a + 2 ≤ i) : store16 m a w i = m i := by
  unfold store16
  rw [if_neg (by omega), if_neg (by omega)]

lemma store32_apply (h : i < a ∨ a + 4 ≤ i) : store32 m a w i = m i := by
  unfold store32
  rw [store16_apply (by omega), store16_apply (by omega)]

lemma load16_lt (m : Memory) (a : ℕ) : load16 m a < 2 ^ 16 := by
  unfold load16
  omega

lemma load16_congr (h : ∀ i, a ≤ i → i < a + 2 → m i = m' i) : load16 m a = load16 m' a := by
  unfold load16
  rw [h a (by omega) (by omega), h (a + 1) (by omega) (by omega)]

lemma load32_congr (h : ∀ i, a ≤ i → i < a + 4 → m i = m' i) : load32 m a = load32 m' a := by
  unfold load32
  rw [load16_congr fun i hlo hhi => h i hlo (by omega),
    load16_congr fun i hlo hhi => h i (by omega) (by omega)]

lemma load16_store16 (hw : w < 2 ^ 16) : load16 (store16 m a w) a = w := by
  simp [load16, store16]
  omega

lemma store16_load16 (m : Memory) (a : ℕ) : store16 m a (load16 m a) = m := by
  funext i
  have hhigh := (m a).isLt
  have hlow := (m (a + 1)).isLt
  rw [store16, load16]
  split_ifs with hfirst hsecond
  · subst hfirst
    apply BitVec.eq_of_toNat_eq
    rw [BitVec.toNat_ofNat]
    omega
  · subst hsecond
    apply BitVec.eq_of_toNat_eq
    rw [BitVec.toNat_ofNat]
    omega
  · rfl

lemma load16_store16_of_apart (h : a + 2 ≤ b ∨ b + 2 ≤ a) : load16 (store16 m b w) a = load16 m a :=
  load16_congr fun _ _ _ => store16_apply (by omega)

lemma load16_store32_of_apart (h : a + 2 ≤ b ∨ b + 4 ≤ a) : load16 (store32 m b w) a = load16 m a :=
  load16_congr fun _ _ _ => store32_apply (by omega)

lemma load32_store16_of_apart (h : a + 4 ≤ b ∨ b + 2 ≤ a) : load32 (store16 m b w) a = load32 m a :=
  load32_congr fun _ _ _ => store16_apply (by omega)

lemma load32_store32_of_apart (h : a + 4 ≤ b ∨ b + 4 ≤ a) : load32 (store32 m b w) a = load32 m a :=
  load32_congr fun _ _ _ => store32_apply (by omega)

lemma load32_store32 (hw : w < 2 ^ 32) : load32 (store32 m a w) a = w := by
  have hlow : load16 (store32 m a w) (a + 2) = w % 2 ^ 16 := by
    simp [load16, store32, store16]
    omega
  have hhigh : load16 (store32 m a w) a = w / 2 ^ 16 := by
    rw [store32, load16_store16_of_apart (by omega), load16_store16 (by omega)]
  rw [load32, hlow, hhigh]
  omega
end Access

def mirror (o w i : ℕ) : ℕ := if o ≤ i ∧ i < o + w then 2 * o + w - 1 - i else i

end Gloworm.ByteOrder
