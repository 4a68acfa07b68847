import Mathlib

/-! Numbers as text: `itoa` and `strtol`. -/
namespace Gloworm.NumberText
open List

def digitChar (d : ℕ) : ℕ := if '9'.toNat < d + '0'.toNat then d + '0'.toNat + 7 else d + '0'.toNat

/-- The digits are stored lowest first. -/
def digitLoop (radix num : ℕ) : List ℕ :=
  digitChar (num % radix) ::
    if 1 < radix ∧ 0 < num / radix then digitLoop radix (num / radix) else []
termination_by num
decreasing_by exact Nat.div_lt_self (Nat.pos_of_div_pos (by tauto)) (by tauto)

def swapLoop (buffer : List ℕ) (j i : ℕ) : List ℕ :=
  if j < i then
    swapLoop ((buffer.set j (buffer.getD i 0)).set i (buffer.getD j 0)) (j + 1) (i - 1)
  else buffer
termination_by i - j

def itoaPadded (num radix width : ℕ) (zeropad isSigned : Bool) : List ℕ :=
  let sign := isSigned ∧ 2 ^ 31 ≤ num
  let digits := digitLoop radix (if sign then 2 ^ 32 - num else num) ++
    if sign then ['-'.toNat] else []
  let buffer := digits ++
    replicate (width - digits.length) (if zeropad then '0'.toNat else ' '.toNat)
  swapLoop (buffer ++ [0]) 0 (buffer.length - 1)

def itoa (num radix : ℕ) : List ℕ := itoaPadded num radix 0 false (radix = 10)

def digitValue (base c : ℕ) : ℕ :=
  if '0'.toNat ≤ c ∧ c ≤ '9'.toNat then c - '0'.toNat
  else if 'A'.toNat ≤ c ∧ c ≤ 'Z'.toNat then c - 'A'.toNat + 10
  else if 'a'.toNat ≤ c ∧ c ≤ 'z'.toNat then c - 'a'.toNat + 10
  else base

def numberLoop (base num : ℕ) : List ℕ → ℕ × List ℕ
  | [] => (num, [])
  | c :: str =>
    if base ≤ digitValue base c then (num, c :: str)
    else numberLoop base ((num * base + digitValue base c) % 2 ^ 32) str

/-- The number modulo 2^32 and what is left of the string. -/
def strtol (str : List ℕ) (base : ℕ) : ℕ × List ℕ :=
  let str := str.dropWhile (· ∈ [' ', '\n', '\t', '\r'].map Char.toNat)
  if str.head? = some '-'.toNat then
    let r := numberLoop base 0 str.tail
    ((2 ^ 32 - r.1) % 2 ^ 32, r.2)
  else if str.head? = some '0'.toNat then
    if str[1]? = some 'x'.toNat then numberLoop 16 0 (str.drop 2) else numberLoop 8 0 str.tail
  else numberLoop base 0 str

variable {radix : ℕ}

lemma digitLoop_eq (h : 1 < radix) {n : ℕ} (hn : 0 < n) :
    digitLoop radix n = (Nat.digits radix n).map digitChar := by
  induction n using Nat.strong_induction_on with
  | _ n ih =>
    rw [digitLoop, Nat.digits_def' h hn, map_cons]
    by_cases hmore : 0 < n / radix
    · rw [if_pos ⟨h, hmore⟩, ih _ (Nat.div_lt_self hn h) hmore]
    · rw [if_neg (by tauto), Nat.eq_zero_of_not_pos hmore, Nat.digits_zero, map_nil]

lemma swapLoop_reverse (pre xs post : List ℕ) :
    swapLoop (pre ++ xs ++ post) pre.length (pre.length + xs.length - 1) =
      pre ++ xs.reverse ++ post := by
  induction xs using bidirectionalRec generalizing pre post with
  | nil => rw [swapLoop, if_neg (by simp)]; rfl
  | singleton x => rw [swapLoop, if_neg (by simp)]; rfl
  | cons_append x xs y ih =>
    have hset : ∀ a b, ((pre ++ (x :: (xs ++ [y])) ++ post).set pre.length a).set
        (pre.length + (xs.length + 1)) b = pre ++ [a] ++ xs ++ b :: post := by
      simp [set_append_right]
    have hlast : pre.length + (x :: (xs ++ [y])).length - 1 = pre.length + (xs.length + 1) := by simp
    rw [swapLoop, if_pos (by simp), hlast, hset]
    simpa using ih (pre ++ [y]) (x :: post)

lemma digitValue_digitChar (hhigh : radix ≤ 36) {d : ℕ} (hd : d < radix) :
    digitValue radix (digitChar d) = d := by
  simp only [digitValue, digitChar, Char.reduceToNat]
  split_ifs <;> omega

/-- The accumulation is modulo 2^32 at every step. -/
lemma numberLoop_digits (hhigh : radix ≤ 36) {ds : List ℕ} (h : ∀ d ∈ ds, d < radix)
    (rest : List ℕ) : numberLoop radix 0 ((ds.map digitChar).reverse ++ rest) =
      numberLoop radix (Nat.ofDigits radix ds % 2 ^ 32) rest := by
  induction ds generalizing rest with
  | nil => rfl
  | cons d ds ih =>
    have hd := h d mem_cons_self
    rw [map_cons, reverse_cons, append_assoc, ih (fun x hx => h x (mem_cons_of_mem d hx)),
      singleton_append, numberLoop, digitValue_digitChar hhigh hd, if_neg (by omega),
      Nat.ofDigits_cons]
    congr 1
    rw [Nat.add_mod, Nat.mod_mul_mod, ← Nat.add_mod]
    congr 1
    ring

variable {m : ℕ}

/-- The digits of a number as they are read, highest first. -/
def chars (radix m : ℕ) : List ℕ := ((Nat.digits radix m).map digitChar).reverse

lemma chars_head (radix : ℕ) (hm : m ≠ 0) : ∃ c rest, chars radix m = c :: rest ∧ 48 < c := by
  have hne := (Nat.digits_ne_nil_iff_ne_zero (b := radix)).mpr hm
  have hlast := Nat.getLast_digit_ne_zero radix hm
  obtain ⟨ds, d, hds⟩ : ∃ ds d, Nat.digits radix m = ds ++ [d] :=
    ⟨_, _, (dropLast_append_getLast hne).symm⟩
  simp only [hds, getLast_append_singleton] at hlast
  refine ⟨digitChar d, (ds.map digitChar).reverse, by simp [chars, hds], ?_⟩
  simp only [digitChar, Char.reduceToNat]
  split_ifs <;> omega

lemma zero_notMem_chars (radix m : ℕ) : 0 ∉ chars radix m := by
  simp only [chars, mem_reverse, mem_map, not_exists, not_and, digitChar, Char.reduceToNat]
  intro d _ hd
  split_ifs at hd

section
variable (h : 1 < radix) (hm : m < 2 ^ 32)
include h hm

lemma length_chars : (chars radix m).length ≤ 32 := by
  rw [chars, length_reverse, length_map, Nat.digits_length_le_iff h]
  exact hm.trans_le (Nat.pow_le_pow_left h 32)

lemma numberLoop_chars (hhigh : radix ≤ 36) :
    numberLoop radix 0 (chars radix m ++ [0]) = (m, [0]) := by
  rw [chars, numberLoop_digits hhigh fun d hd => Nat.digits_lt_base h hd, Nat.ofDigits_digits,
    Nat.mod_eq_of_lt hm]
  simp [numberLoop, digitValue]
end

lemma strtol_plain {c : ℕ} (hc : 48 < c) (str : List ℕ) (base : ℕ) :
    strtol (c :: str) base = numberLoop base 0 (c :: str) := by
  have hskip : (c :: str).dropWhile (· ∈ [' ', '\n', '\t', '\r'].map Char.toNat) = c :: str := by
    rw [dropWhile_cons_of_neg]
    simp
    omega
  simp only [strtol, hskip, head?_cons, Option.some_inj, Char.reduceToNat]
  rw [if_neg (by omega), if_neg (by omega)]

def Written (n radix : ℕ) (s : List ℕ) : Prop :=
  itoa n radix = s ++ [0] ∧ 0 ∉ s ∧ s.length ≤ 33 ∧ ∃ sign ∈ [[], ['-'.toNat]], ∃ c rest,
    s = sign ++ c :: rest ∧ (c = '0'.toNat → s = ['0'.toNat])

/-- What `itoa` writes, `strtol` reads back. -/
theorem itoa_strtol {n : ℕ} (hn : n < 2 ^ 32) (hlow : 2 ≤ radix) (hhigh : radix ≤ 36) :
    ∃ s, Written n radix s ∧ strtol (s ++ [0]) radix = (n, [0]) := by
  by_cases hzero : n = 0
  · subst hzero
    have hdigits : digitLoop radix 0 = ['0'.toNat] := by
      rw [digitLoop]
      simp [digitChar]
    refine ⟨['0'.toNat], ⟨?_, by decide, by decide, [], by simp, _, [], rfl, fun _ => rfl⟩, rfl⟩
    simpa [itoa, itoaPadded, hdigits] using swapLoop_reverse [] ['0'.toNat] [0]
  by_cases hneg : radix = 10 ∧ 2147483648 ≤ n
  · obtain ⟨m, hm⟩ : ∃ m, 4294967296 - n = m := ⟨_, rfl⟩
    have hlt : m < 2 ^ 32 := by omega
    obtain ⟨c, rest, hc, hfirst⟩ := chars_head radix (show m ≠ 0 by omega)
    refine ⟨'-'.toNat :: chars radix m, ⟨?_, ?_, Nat.succ_le_succ (length_chars hlow hlt),
      ['-'.toNat], by simp, c, rest, by rw [hc]; rfl, fun h => absurd h hfirst.ne'⟩, ?_⟩
    · simpa [itoa, itoaPadded, hneg, hm, digitLoop_eq (by omega : 1 < 10) (by omega : 0 < m), chars]
        using swapLoop_reverse [] (digitLoop 10 m ++ ['-'.toNat]) [0]
    · simpa using zero_notMem_chars radix m
    · show ((2 ^ 32 - (numberLoop radix 0 (chars radix m ++ [0])).1) % 2 ^ 32,
        (numberLoop radix 0 (chars radix m ++ [0])).2) = _
      rw [numberLoop_chars hlow hlt hhigh, Prod.mk.injEq]
      exact ⟨by omega, rfl⟩
  · obtain ⟨c, rest, hc, hfirst⟩ := chars_head radix hzero
    refine ⟨chars radix n, ⟨?_, zero_notMem_chars _ _, (length_chars hlow hn).trans (by decide),
      [], by simp, c, rest, hc, fun h => absurd h hfirst.ne'⟩, ?_⟩
    · have hdigits := digitLoop_eq hlow (Nat.pos_of_ne_zero hzero)
      simpa [itoa, itoaPadded, hneg, hdigits, chars] using swapLoop_reverse [] (digitLoop radix n) [0]
    · rw [← numberLoop_chars hlow hn hhigh, hc, cons_append, strtol_plain hfirst]

theorem itoa_strtol_lowest :
    ∃ s, Written (2 ^ 31) 10 s ∧ strtol (s ++ [0]) 10 = (2 ^ 31, [0]) :=
  itoa_strtol (by decide) (by decide) (by decide)

end Gloworm.NumberText
