import Mathlib

/-! The 32-bit unsigned division routines, as the 68000 carries out their instructions. -/
namespace Gloworm.UnsignedDivision
open Function

/-- The data registers that the routines name, and those that the compiler gives to the operands and
to the result. -/
inductive Reg
  | d0 | d1 | d2 | d3 | a | b | c
  deriving DecidableEq

inductive Instr
  | clrL (dest : Reg)
  | clrW (dest : Reg)
  | moveL (src dest : Reg)
  | moveW (src dest : Reg)
  | swap (dest : Reg)
  | addL (src dest : Reg)
  | divu (src dest : Reg)

/-- What `movea.w` leaves in an address register. -/
def signExtend (w : ℕ) : ℕ := if w < 32768 then w else w + 0xFFFF0000

/-- A division by zero is an exception. On overflow the destination is left as it is. The result may be
given an `address` register, where a word is sign-extended. -/
def Instr.exec (address : Bool) (r : Reg → ℕ) : Instr → Option (Reg → ℕ)
  | .clrL d => some (update r d 0)
  | .clrW d => some (update r d (r d / 65536 * 65536))
  | .moveL s d => some (update r d (r s))
  | .moveW s d => some (update r d (if address ∧ d = .c then signExtend (r s % 65536)
    else r d / 65536 * 65536 + r s % 65536))
  | .swap d => some (update r d (r d % 65536 * 65536 + r d / 65536))
  | .addL s d => some (update r d ((r s + r d) % 2 ^ 32))
  | .divu s d =>
    let divisor := r s % 65536
    if divisor = 0 then none
    else if r d / divisor < 65536 then
      some (update r d (r d % divisor * 65536 + r d / divisor))
    else some r

def run (address : Bool) (code : List Instr) (r : Reg → ℕ) : Option (Reg → ℕ) :=
  code.foldlM (Instr.exec address) r

def udivsi3Code : List Instr :=
  [.clrL .d0, .clrL .d1, .moveW .a .d0, .moveW .b .d1, .moveL .a .d2, .clrW .d2, .swap .d2,
    .divu .d1 .d2, .moveW .d2 .d3, .swap .d3, .clrW .d3, .clrW .d2, .addL .d2 .d0,
    .divu .d1 .d0, .swap .d0, .clrW .d0, .swap .d0, .addL .d3 .d0, .moveL .d0 .c]

def umodsi3Code : List Instr :=
  [.clrL .d0, .clrL .d1, .moveW .a .d0, .moveW .b .d1, .moveL .a .d2, .clrW .d2, .swap .d2,
    .divu .d1 .d2, .clrW .d2, .addL .d2 .d0, .divu .d1 .d0, .clrW .d0, .swap .d0, .moveW .d0 .c]

def call (code : List Instr) (address : Bool) (r : Reg → ℕ) (a b : ℕ) : Option ℕ :=
  (run address code (update (update r .a a) .b b)).map (· .c)

def udivsi3 := call udivsi3Code

def umodsi3 := call umodsi3Code

section
variable {address : Bool} {r : Reg → ℕ} {a b d : ℕ}

/-- The second step divides what the first one leaves over, followed by the lower half. -/
lemma long_division (a : ℕ) (hd : 0 < d) :
    a / 65536 / d * 65536 + (a / 65536 % d * 65536 + a % 65536) / d = a / d ∧
      (a / 65536 % d * 65536 + a % 65536) % d = a % d := by
  have hsplit : a = d * (a / 65536 / d * 65536) + (a / 65536 % d * 65536 + a % 65536) := by
    have hhalves := Nat.div_add_mod a 65536
    have hupper := Nat.div_add_mod (a / 65536) d
    calc a = (d * (a / 65536 / d) + a / 65536 % d) * 65536 + a % 65536 := by rw [hupper]; omega
      _ = _ := by ring
  constructor
  · conv_rhs => rw [hsplit, Nat.mul_add_div hd]
  · conv_rhs => rw [hsplit, Nat.mul_add_mod]

lemma steps_fit (ha : a < 2 ^ 32) (hd : 0 < d) (hword : d < 65536) :
    a / 65536 / d < 65536 ∧ a / 65536 % d * 65536 + a % 65536 < 4294967296 ∧
      (a / 65536 % d * 65536 + a % 65536) / d < 65536 ∧ a % d < 65536 := by
  have hrest := Nat.mod_lt (a / 65536) hd
  have hquot := Nat.div_le_self (a / 65536) d
  exact ⟨by omega, by omega, Nat.div_lt_of_lt_mul (by omega), (Nat.mod_lt a hd).trans hword⟩

lemma upper_half {h l : ℕ} (hl : l < 65536) : (h * 65536 + l) / 65536 = h := by omega

lemma lower_half {h l : ℕ} (hl : l < 65536) : (h * 65536 + l) % 65536 = l := by omega

lemma umodsi3_eq (ha : a < 2 ^ 32) : umodsi3 address r a b =
    if b % 65536 = 0 then none else some (if address then signExtend (a % (b % 65536))
      else r .c / 65536 * 65536 + a % (b % 65536)) := by
  by_cases hzero : b % 65536 = 0
  · simp [umodsi3, umodsi3Code, call, run, Instr.exec, hzero]
  · have hd := Nat.pos_of_ne_zero hzero
    obtain ⟨hfirst, hsum, hsecond, hrest⟩ := steps_fit ha hd (Nat.mod_lt b (by decide))
    simp [umodsi3, umodsi3Code, call, run, Instr.exec, hzero, hfirst, upper_half hfirst,
      Nat.mod_eq_of_lt hsum, hsecond, upper_half hsecond, (long_division a hd).2,
      Nat.mod_eq_of_lt hrest]

lemma udivsi3_eq (hr : r .d3 < 2 ^ 32) (ha : a < 2 ^ 32) : udivsi3 address r a b =
    if b % 65536 = 0 then none else some (a / (b % 65536)) := by
  by_cases hzero : b % 65536 = 0
  · simp [udivsi3, udivsi3Code, call, run, Instr.exec, hzero]
  · have hd := Nat.pos_of_ne_zero hzero
    obtain ⟨hfirst, hsum, hsecond, hrest⟩ := steps_fit ha hd (Nat.mod_lt b (by decide))
    have hd3 : r .d3 / 65536 < 65536 := by omega
    have hquot : a / (b % 65536) < 4294967296 := (Nat.div_le_self a _).trans_lt ha
    simp [udivsi3, udivsi3Code, call, run, Instr.exec, hzero, hfirst, upper_half hfirst,
      lower_half hfirst, upper_half hd3, Nat.mod_eq_of_lt hsum, hsecond, lower_half hsecond,
      upper_half hsecond, long_division a hd, upper_half hrest, Nat.mod_eq_of_lt hquot]

lemma stored_remainder (address : Bool) {m : ℕ} (c : ℕ) (hm : m < 65536) :
    (if address then signExtend m else c / 65536 * 65536 + m) = m ↔
      if address then m < 32768 else c < 65536 := by
  cases address with
  | true =>
    simp only [if_true, signExtend]
    split_ifs <;> omega
  | false =>
    simp only [Bool.false_eq_true, if_false]
    omega

/-- Only the lower half of the divisor is looked at, and of the remainder only the lower half is
stored, with its sign where the result is an address register. -/
theorem divisions_right_iff (hr : ∀ x, r x < 2 ^ 32) (ha : a < 2 ^ 32) (hne : b ≠ 0) :
    udivsi3 address r a b = some (a / b) ∧ umodsi3 address r a b = some (a % b) ↔
      b % 65536 ≠ 0 ∧ (b < 65536 ∨ a < b % 65536) ∧
        if address then a % b < 32768 else r .c < 65536 := by
  rw [udivsi3_eq (hr .d3) ha, umodsi3_eq ha]
  by_cases hzero : b % 65536 = 0
  · simp [hzero]
  have hd := Nat.pos_of_ne_zero hzero
  have hrest : a % (b % 65536) < 65536 := (Nat.mod_lt a hd).trans (Nat.mod_lt b (by decide))
  have hstored := stored_remainder address (r .c) hrest
  rw [if_neg hzero, if_neg hzero, Option.some_inj, Option.some_inj]
  by_cases hword : b < 65536
  · rw [Nat.mod_eq_of_lt hword] at hstored ⊢
    simp [hstored, hword, hne]
  by_cases hsmall : a < b % 65536
  · have hlt : a < b := by omega
    rw [Nat.mod_eq_of_lt hsmall] at hstored
    simp [Nat.div_eq_of_lt hsmall, Nat.div_eq_of_lt hlt, Nat.mod_eq_of_lt hsmall,
      Nat.mod_eq_of_lt hlt, hstored, hsmall, hzero]
  -- The true quotient times 65536 would have to fit below the divisor's lower half.
  · have hquot : a / (b % 65536) ≠ a / b := by
      intro hsame
      have hlow := Nat.div_mul_le_self a b
      have hhigh := Nat.lt_div_mul_add hd (a := a)
      have hpos : 0 < a / b := hsame ▸ Nat.div_pos (by omega) hd
      have hmul := Nat.mul_le_mul_left (a / b) (show b % 65536 + 65536 ≤ b by omega)
      rw [hsame] at hhigh
      rw [Nat.mul_add] at hmul
      omega
    simp [hquot, hword, hsmall]
end

theorem divisions_right_by_ten : udivsi3 true (fun _ => 0) 1000003 10 = some 100000 ∧
    umodsi3 true (fun _ => 0) 1000003 10 = some 3 :=
  (divisions_right_iff (fun _ => by decide) (by decide) (by decide)).mpr ⟨by decide, by decide, by decide⟩

/-- A divisor above 16 bits is cut, one without a lower half is an exception, and the upper half of
the result register stays in the remainder or is filled with its sign. -/
theorem divisions_miscount : udivsi3 false (fun _ => 0) 0x20000 0x10001 = some 0x20000 ∧
    udivsi3 false (fun _ => 0) 0x20000 0x10000 = none ∧
    umodsi3 false (fun _ => 0x70000) 7 5 = some 0x70002 ∧
    umodsi3 true (fun _ => 0) 40000 50000 = some 0xFFFF9C40 := by
  decide

end Gloworm.UnsignedDivision
