import Mathlib

/-! The calendar of `gmtime`. Two loops take off the lengths of years and then of months; the date
they arrive at is compared with the Gregorian calendar. -/
namespace Gloworm.Gmtime
open Finset

/-- A loop that takes off one length after the other while the rest is not shorter. -/
def takeOff (length : ℕ → Option ℕ) : ℕ → ℕ → ℕ → Option (ℕ × ℕ)
  | 0, _, _ => none
  | fuel + 1, i, rest =>
    match length i with
    | none => none
    | some days => if rest < days then some (i, rest) else takeOff length fuel (i + 1) (rest - days)

def startOf (length : ℕ → Option ℕ) (first i : ℕ) : ℕ := ∑ k ∈ Ico first i, (length k).getD 0

section
variable {length : ℕ → Option ℕ} {fuel first i j rest d days : ℕ}

lemma startOf_self (length : ℕ → Option ℕ) (first : ℕ) : startOf length first first = 0 := by
  simp [startOf]

lemma startOf_succ (h : first ≤ i) (hi : length i = some days) :
    startOf length first (i + 1) = startOf length first i + days := by
  rw [startOf, sum_Ico_succ_top h, hi]
  rfl

lemma startOf_mono (length : ℕ → Option ℕ) (first : ℕ) (h : i ≤ j) :
    startOf length first i ≤ startOf length first j :=
  sum_le_sum_of_subset (Ico_subset_Ico le_rfl h)

lemma takeOff_sound (h : takeOff length fuel i rest = some (j, d)) (hi : first ≤ i) :
    i ≤ j ∧ rest + startOf length first i = startOf length first j + d ∧
      ∃ days, length j = some days ∧ d < days := by
  induction fuel generalizing i rest with
  | zero => simp [takeOff] at h
  | succ fuel ih =>
    cases hlen : length i with
    | none => simp [takeOff, hlen] at h
    | some days =>
      simp only [takeOff, hlen] at h
      split_ifs at h with hlt
      · obtain ⟨rfl, rfl⟩ := Prod.mk.inj (Option.some.inj h)
        exact ⟨le_rfl, Nat.add_comm _ _, days, hlen, hlt⟩
      · obtain ⟨hle, hsum, hlast⟩ := ih h (by omega)
        rw [startOf_succ hi hlen] at hsum
        exact ⟨by omega, by omega, hlast⟩

lemma takeOff_complete (hi : first ≤ i) (hij : i ≤ j) (hfuel : j < i + fuel)
    (hsome : ∀ k < j, (length k).isSome) (hsum : rest + startOf length first i =
      startOf length first j + d) (hj : length j = some days) (hd : d < days) :
    takeOff length fuel i rest = some (j, d) := by
  induction fuel generalizing i rest with
  | zero => omega
  | succ fuel ih =>
    rcases hij.eq_or_lt with rfl | hlt
    · obtain rfl : rest = d := by omega
      simp only [takeOff, hj, if_pos hd]
    · obtain ⟨len, hlen⟩ := Option.isSome_iff_exists.mp (hsome i hlt)
      have hstart := startOf_succ hi hlen
      have hle := startOf_mono length first (by omega : i + 1 ≤ j)
      have hge : ¬ rest < len := by omega
      simp only [takeOff, hlen, if_neg hge]
      exact ih (by omega) hlt (by omega) (by omega)
end

def leapyear (year : ℕ) : Bool := year % 4 = 0 ∧ (year % 100 ≠ 0 ∨ year % 400 = 0)

def monthdays : List ℕ := [31, 28, 31, 30, 31, 30, 31, 31, 30, 31, 30, 31]

def yearLength (year : ℕ) : Option ℕ := some (if leapyear year then 366 else 365)

def monthLength (year mon : ℕ) : Option ℕ :=
  monthdays[mon]?.map fun days => if mon = 1 ∧ leapyear year then days + 1 else days

structure Tm where
  sec : ℕ
  min : ℕ
  hour : ℕ
  mday : ℕ
  mon : ℕ
  year : ℕ
  wday : ℕ
  yday : ℕ

/-- `none` is a read behind the table of months. -/
def gmtime (time : ℕ) : Option Tm :=
  let hournum := time / 3600
  let daynum := hournum / 24
  let daysec := hournum % 24 * 3600 + time % 3600
  (takeOff yearLength (daynum + 1) 1970 daynum).bind fun y =>
    (takeOff (monthLength (y.1 - 1900)) 13 0 (y.2 + 1)).map fun m =>
      ⟨daysec % 60, daysec % 3600 / 60, daysec / 3600, m.2, m.1, y.1 - 1900, (daynum + 4) % 7, y.2⟩

structure Date (year mon mday : ℕ) : Prop where
  since : 1970 ≤ year
  month : mon < 12
  first : 1 ≤ mday
  last : mday ≤ (monthLength year mon).getD 0

def dayOfYear (year mon mday : ℕ) : ℕ := startOf (monthLength year) 0 mon + (mday - 1)

def dayNumber (year mon mday : ℕ) : ℕ := startOf yearLength 1970 year + dayOfYear year mon mday

/-- The fields are those of the date and time that lie `time` seconds after the beginning of 1970,
which was a Thursday. -/
structure Tm.Denotes (tm : Tm) (time : ℕ) : Prop where
  date : Date (tm.year + 1900) tm.mon tm.mday
  yday : tm.yday = dayOfYear (tm.year + 1900) tm.mon tm.mday
  wday : tm.wday = (dayNumber (tm.year + 1900) tm.mon tm.mday + 4) % 7
  clock : tm.hour < 24 ∧ tm.min < 60 ∧ tm.sec < 60
  seconds : dayNumber (tm.year + 1900) tm.mon tm.mday * 86400 + tm.hour * 3600 + tm.min * 60 +
    tm.sec = time

def Right (time : ℕ) : Prop := ∃ tm, gmtime time = some tm ∧ tm.Denotes time

variable {year : ℕ}

lemma year_le {time : ℕ} (htime : time < 2 ^ 31)
    (h : startOf yearLength 1970 year ≤ time / 86400) : year ≤ 2038 := by
  by_contra hlate
  have hmono := startOf_mono yearLength 1970 (by omega : 2039 ≤ year)
  have hlast : startOf yearLength 1970 2039 = 25202 := by decide +kernel
  norm_num at htime
  omega

/-- The loop over the months asks for the year since 1900, so that 2000 is not a leap year. -/
lemma leapyear_since (h : 1970 ≤ year) (hle : year ≤ 2038) :
    leapyear (year - 1900) = (leapyear year && year ≠ 2000) := by
  obtain ⟨k, rfl⟩ := Nat.exists_eq_add_of_le h
  have hall : ∀ k < 69, leapyear (1970 + k - 1900) = (leapyear (1970 + k) && 1970 + k ≠ 2000) := by
    decide +kernel
  exact hall k (by omega)

lemma monthLength_congr {year' : ℕ} (h : leapyear year = leapyear year') :
    monthLength year = monthLength year' := by
  funext mon
  simp only [monthLength, h]

lemma monthLength_some {mon : ℕ} : (monthLength year mon).isSome ↔ mon < 12 := by
  simp [monthLength, monthdays]

lemma year_elapsed (year : ℕ) : year - 1970 ≤ startOf yearLength 1970 year := by
  rw [startOf, ← Nat.card_Ico, card_eq_sum_ones]
  refine sum_le_sum fun k _ => ?_
  rw [yearLength]
  split_ifs <;> decide

lemma dayOfYear_lt {mon mday : ℕ} (h : Date year mon mday) :
    ∃ days, yearLength year = some days ∧ dayOfYear year mon mday < days := by
  obtain ⟨days, hdays⟩ := Option.isSome_iff_exists.mp (monthLength_some.mpr h.month)
  have hlast := h.last
  have hfirst := h.first
  rw [hdays, Option.getD_some] at hlast
  have hnext := startOf_succ (Nat.zero_le mon) hdays
  have hmono := startOf_mono (monthLength year) 0 (by have := h.month; omega : mon + 1 ≤ 12)
  have hall : startOf (monthLength year) 0 12 = if leapyear year then 366 else 365 := by
    cases hleap : leapyear year
    · rw [monthLength_congr (hleap.trans (by decide : false = leapyear 1970))]
      decide +kernel
    · rw [monthLength_congr (hleap.trans (by decide : true = leapyear 1972))]
      decide +kernel
  refine ⟨_, rfl, ?_⟩
  rw [← hall, dayOfYear]
  omega

/-- The code's months agree with the calendar's as far as the day is not the last of its month, nor
lies behind 27 February 2000. -/
def Counted (year mon mday : ℕ) : Prop :=
  mday < (monthLength year mon).getD 0 ∧ (year = 2000 → dayOfYear year mon mday < 58)

lemma counted_iff {mon mday : ℕ} (h : Date year mon mday) (hle : year ≤ 2038) :
    Counted year mon mday ↔ startOf (monthLength (year - 1900)) 0 mon =
        startOf (monthLength year) 0 mon ∧ ∃ days, monthLength (year - 1900) mon = some days ∧
      mday < days := by
  have hleap := leapyear_since h.since hle
  by_cases h2000 : year = 2000
  · subst h2000
    have hmon := h.month
    have hstart : ∀ mon < 12, startOf (monthLength 100) 0 mon = startOf (monthLength 2000) 0 mon ↔
        mon < 2 := by decide +kernel
    have hlater : ∀ mon < 12, 2 ≤ mon → 60 ≤ startOf (monthLength 2000) 0 mon := by decide +kernel
    have hfirst := h.first
    rw [hstart mon hmon, Counted, dayOfYear]
    by_cases hearly : mon < 2
    · interval_cases mon
      · simp [startOf, monthLength, monthdays]
        omega
      · have h31 : startOf (monthLength 2000) 0 1 = 31 := by decide
        simp [h31, monthLength, monthdays, leapyear]
        omega
    · have := hlater mon hmon (by omega)
      simp only [hearly, false_and, iff_false]
      rintro ⟨-, hday⟩
      have := hday trivial
      omega
  · rw [monthLength_congr (by simpa [h2000] using hleap)]
    have hsome : (monthLength year mon).isSome := monthLength_some.mpr h.month
    obtain ⟨days, hdays⟩ := Option.isSome_iff_exists.mp hsome
    simp [Counted, h2000, hdays]

lemma gmtime_eq_some {time : ℕ} {tm : Tm} : gmtime time = some tm ↔
    ∃ y m, takeOff yearLength (time / 86400 + 1) 1970 (time / 86400) = some y ∧
      takeOff (monthLength (y.1 - 1900)) 13 0 (y.2 + 1) = some m ∧
      tm = ⟨(time / 3600 % 24 * 3600 + time % 3600) % 60,
        (time / 3600 % 24 * 3600 + time % 3600) % 3600 / 60,
        (time / 3600 % 24 * 3600 + time % 3600) / 3600, m.2, m.1, y.1 - 1900,
        (time / 86400 + 4) % 7, y.2⟩ := by
  have hday : time / 3600 / 24 = time / 86400 := Nat.div_div_eq_div_mul time 3600 24
  simp only [gmtime, hday, Option.bind_eq_some_iff, Option.map_eq_some_iff]
  constructor
  · rintro ⟨y, hy, m, hm, rfl⟩
    exact ⟨y, m, hy, hm, rfl⟩
  · rintro ⟨y, m, hy, hm, rfl⟩
    exact ⟨y, hy, m, hm, rfl⟩

/-- The fields are right exactly for the days that the loop over the months counts as the calendar
does. -/
theorem gmtime_right_iff {time : ℕ} (htime : time < 2 ^ 31) : Right time ↔
    ∃ year mon mday, Date year mon mday ∧ dayNumber year mon mday = time / 86400 ∧
      Counted year mon mday := by
  constructor
  · rintro ⟨tm, htm, hd⟩
    obtain ⟨⟨year, yday⟩, ⟨mon, mday⟩, hyear, hmon, rfl⟩ := gmtime_eq_some.mp htm
    obtain ⟨hlate, hsum, -⟩ := takeOff_sound hyear le_rfl
    obtain ⟨-, hmsum, days, hdays, hlt⟩ := takeOff_sound hmon le_rfl
    obtain ⟨hdate, hyday, -, -⟩ := hd
    dsimp only at hlate hsum hmsum hdays hlt hdate hyday
    rw [Nat.sub_add_cancel (by omega)] at hdate hyday
    rw [startOf_self] at hsum hmsum
    have hfirst := hdate.first
    refine ⟨year, mon, mday, hdate, ?_, (counted_iff hdate ?_).mpr ⟨?_, days, hdays, hlt⟩⟩
    · rw [dayNumber, ← hyday]
      omega
    · exact year_le htime (by omega)
    · rw [dayOfYear] at hyday
      omega
  · rintro ⟨year, mon, mday, hdate, hnum, hcounted⟩
    have hstart : startOf yearLength 1970 year ≤ time / 86400 := hnum ▸ Nat.le_add_right _ _
    obtain ⟨hsame, days, hdays, hlt⟩ := (counted_iff hdate (year_le htime hstart)).mp hcounted
    obtain ⟨ydays, hydays, hylt⟩ := dayOfYear_lt hdate
    have hsince := hdate.since
    have hfirst := hdate.first
    have hmonth := hdate.month
    have helapsed := year_elapsed year
    have hyear : takeOff yearLength (time / 86400 + 1) 1970 (time / 86400) =
        some (year, dayOfYear year mon mday) := by
      refine takeOff_complete le_rfl hsince (by omega) (fun _ _ => rfl) ?_ hydays hylt
      rw [startOf_self, ← hnum, dayNumber, Nat.add_zero]
    have hmon : takeOff (monthLength (year - 1900)) 13 0 (dayOfYear year mon mday + 1) =
        some (mon, mday) := by
      refine takeOff_complete le_rfl (Nat.zero_le _) (by omega)
        (fun k hk => monthLength_some.mpr (hk.trans hmonth)) ?_ hdays hlt
      rw [startOf_self, hsame, dayOfYear]
      omega
    refine ⟨_, gmtime_eq_some.mpr ⟨_, _, hyear, hmon, rfl⟩, ?_⟩
    have hback : year - 1900 + 1900 = year := Nat.sub_add_cancel (by omega)
    refine ⟨?_, ?_, ?_, ?_, ?_⟩ <;> dsimp only
    · rwa [hback]
    · rw [hback]
    · rw [hback, hnum]
    · omega
    · rw [hback, hnum]
      omega

theorem gmtime_right_gigasecond : Right 1000000000 := by
  refine (gmtime_right_iff (by norm_num)).mpr ⟨2001, 8, 9, ⟨?_, ?_, ?_, ?_⟩, ?_, ?_, ?_⟩
  all_goals decide +kernel

/-- The 31st of January 1970 becomes a 0th of February, and 1 March 2000 a 2nd. -/
theorem gmtime_miscounts : ¬ Right (30 * 86400) ∧ ¬ Right (11017 * 86400) := by
  constructor
  · rintro ⟨tm, htm, hd⟩
    have hfields : (gmtime (30 * 86400)).all fun tm => tm.mday = 0 := by decide +kernel
    rw [htm] at hfields
    have hzero : tm.mday = 0 := by simpa using hfields
    have := hd.date.first
    omega
  · rintro ⟨tm, htm, hd⟩
    have hfields : (gmtime (11017 * 86400)).all fun tm => tm.mon = 2 ∧ tm.mday = 2 ∧
        tm.year = 100 ∧ tm.yday = 60 := by decide +kernel
    rw [htm] at hfields
    obtain ⟨hmon, hmday, hyear, hyday⟩ : tm.mon = 2 ∧ tm.mday = 2 ∧ tm.year = 100 ∧
        tm.yday = 60 := by simpa using hfields
    have hsame := hd.yday
    rw [hmon, hmday, hyear, hyday] at hsame
    revert hsame
    decide +kernel

end Gloworm.Gmtime
