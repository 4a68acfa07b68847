import Gloworm.TransitionRuns

/-! The wall clock and the uptime of `time.c`. The counters of all clocks are given at every update,
although the code reads only the current one. -/
namespace Gloworm.SystemClock
open Transition

def nanosPerSecond : ℤ := 1000000000

structure Clock where
  rating : ℤ
  maxCycles : UInt64
  cyclesToNanos : UInt64 → UInt64

/-- The code has no `lastClock` and no `lastCounters`: the clock that was current at the last
update, and what all clocks showed then. -/
structure Time (ι : Type) where
  currentClock : Option ι
  systemSeconds : ℤ
  systemSubsecondsNanos : ℤ
  currentClockLastCycle : UInt64
  monotonicUptimeNanos : UInt64
  lastClock : Option ι
  lastCounters : ι → UInt64

variable {ι : Type}

def initTime : Time ι := ⟨none, 0, 0, 0, 0, none, fun _ => 0⟩

/-- A value as a variable of type `time_t` keeps it. -/
def toTime (n : ℤ) : ℤ := n.bmod (2 ^ 32)

/-- The loop that carries nanoseconds into the seconds. -/
def carryLoop : ℕ → ℤ → ℤ → ℤ × ℤ
  | 0, seconds, nanos => (seconds, nanos)
  | fuel + 1, seconds, nanos =>
    if nanos < nanosPerSecond then (seconds, nanos)
    else carryLoop fuel (toTime (seconds + 1)) (nanos - nanosPerSecond)

def addNanos (s : Time ι) (diff : UInt64) : Time ι :=
  let nanos := toTime (s.systemSubsecondsNanos + diff.toNat)
  let r := carryLoop nanos.toNat s.systemSeconds nanos
  { s with
    monotonicUptimeNanos := s.monotonicUptimeNanos + diff
    systemSeconds := r.1
    systemSubsecondsNanos := r.2 }

/-- The cycles from one count of a clock to the next; a smaller count means that it has wrapped. -/
def cyclesSince (c : Clock) (last cycles : UInt64) : UInt64 :=
  if last < cycles then cycles - last else c.maxCycles - last + cycles

section Updates
variable (clocks : ι → Clock)

def registerClock (s : Time ι) (c : ι) : Time ι × ℤ :=
  match s.currentClock with
  | some current =>
    if (clocks current).rating < (clocks c).rating then ({ s with currentClock := some c }, 1)
    else (s, 0)
  | none => ({ s with currentClock := some c }, 1)

def updateTime (s : Time ι) (now : ι → UInt64) : Time ι :=
  let t := match s.currentClock with
    | some c =>
      if now c = s.currentClockLastCycle then s
      else
        addNanos { s with currentClockLastCycle := now c }
          ((clocks c).cyclesToNanos (cyclesSince (clocks c) s.currentClockLastCycle (now c)))
    | none => addNanos s 1000000
  { t with lastClock := s.currentClock, lastCounters := now }

inductive Event (ι : Type)
  | register (c : ι)
  | update (now : ι → UInt64)

def perform (s : Time ι) : Event ι → Time ι
  | .register c => (registerClock clocks s c).1
  | .update now => updateTime clocks s now

def Step (s : Time ι) (e : Event ι) (t : Time ι) : Prop := perform clocks s e = t

/-- The nanoseconds that a clock has counted between two of its counts. -/
def elapsed (c : ι) (last cycles : UInt64) : ℕ :=
  if cycles = last then 0 else ((clocks c).cyclesToNanos (cyclesSince (clocks c) last cycles)).toNat

def due (s : Time ι) (now : ι → UInt64) : ℕ :=
  match s.currentClock with
  | some c => elapsed clocks c s.currentClockLastCycle (now c)
  | none => 1000000
end Updates
namespace Time
variable (s : Time ι)

def wall : ℤ := s.systemSeconds * nanosPerSecond + s.systemSubsecondsNanos

def uptime : ℕ := s.monotonicUptimeNanos.toNat

structure InRange : Prop where
  seconds : 0 ≤ s.systemSeconds
  nanos : 0 ≤ s.systemSubsecondsNanos ∧ s.systemSubsecondsNanos < nanosPerSecond
end Time

/-- An update adds the same to both clocks, and after a switch no more than one clock has
counted. -/
structure Together (clocks : ι → Clock) (s : Time ι) (now : ι → UInt64) (t : Time ι) : Prop where
  nanos : 0 ≤ t.systemSubsecondsNanos ∧ t.systemSubsecondsNanos < nanosPerSecond
  wall : t.wall - s.wall = t.uptime - s.uptime
  uptime : s.uptime ≤ t.uptime
  switched : ∀ a b, s.lastClock = some a → s.currentClock = some b → a ≠ b →
    t.uptime - s.uptime ≤ elapsed clocks a (s.lastCounters a) (now a) ∨
    t.uptime - s.uptime ≤ elapsed clocks b (s.lastCounters b) (now b)

/-- The time passed fits into the variables, and after a switch the count that is kept is the one
that the new clock had. -/
def Fits (clocks : ι → Clock) (s : Time ι) : Event ι → Prop
  | .register _ => True
  | .update now => s.systemSubsecondsNanos + due clocks s now < 2 ^ 31 ∧
      s.uptime + due clocks s now < 2 ^ 64 ∧
      s.systemSeconds + (s.systemSubsecondsNanos + due clocks s now) / nanosPerSecond < 2 ^ 31 ∧
      ∀ a b, s.lastClock = some a → s.currentClock = some b → a ≠ b →
        s.currentClockLastCycle = s.lastCounters b

lemma toTime_of_lt {n : ℤ} (hlo : 0 ≤ n) (hhi : n < 2 ^ 31) : toTime n = n := by
  rw [toTime, Int.bmod_def]
  omega

lemma carryLoop_spec (fuel : ℕ) {seconds nanos : ℤ} (hs : 0 ≤ seconds) (hn : 0 ≤ nanos)
    (hfuel : nanos < (fuel + 1) * nanosPerSecond)
    (hfit : seconds + nanos / nanosPerSecond < 2 ^ 31) :
    0 ≤ (carryLoop fuel seconds nanos).1 ∧ 0 ≤ (carryLoop fuel seconds nanos).2 ∧
      (carryLoop fuel seconds nanos).2 < nanosPerSecond ∧
      (carryLoop fuel seconds nanos).1 * nanosPerSecond + (carryLoop fuel seconds nanos).2 =
        seconds * nanosPerSecond + nanos := by
  induction fuel generalizing seconds nanos with
  | zero => exact ⟨hs, hn, by simpa [carryLoop] using hfuel, rfl⟩
  | succ fuel ih =>
    rw [carryLoop]
    split_ifs with hless
    · exact ⟨hs, hn, hless, rfl⟩
    · simp only [nanosPerSecond, Nat.cast_add, Nat.cast_one] at hless hfuel hfit ih ⊢
      rw [toTime_of_lt (by omega) (by omega)]
      obtain ⟨h1, h2, h3, h4⟩ := @ih (seconds + 1) (nanos - 1000000000)
        (by omega) (by omega) (by omega) (by omega)
      exact ⟨h1, h2, h3, by omega⟩

structure Advances (s t : Time ι) (d : ℕ) : Prop where
  inRange : t.InRange
  wall : t.wall = s.wall + d
  uptime : t.uptime = s.uptime + d

variable {s : Time ι}

lemma addNanos_advances (diff : UInt64) (hs : s.InRange)
    (hnanos : s.systemSubsecondsNanos + diff.toNat < 2 ^ 31)
    (huptime : s.uptime + diff.toNat < 2 ^ 64)
    (hseconds : s.systemSeconds + (s.systemSubsecondsNanos + diff.toNat) / nanosPerSecond < 2 ^ 31) :
    Advances s (addNanos s diff) diff.toNat := by
  have hpos := hs.nanos.1
  have hkept : toTime (s.systemSubsecondsNanos + diff.toNat) =
      s.systemSubsecondsNanos + diff.toNat := toTime_of_lt (by omega) hnanos
  obtain ⟨h1, h2, h3, h4⟩ := carryLoop_spec (s.systemSubsecondsNanos + diff.toNat).toNat hs.seconds
    (by omega) (by simp only [nanosPerSecond]; omega) hseconds
  refine ⟨⟨?_, ?_⟩, ?_, ?_⟩
  · simpa only [addNanos, hkept] using h1
  · simpa only [addNanos, hkept] using And.intro h2 h3
  · simp only [Time.wall, addNanos, hkept, h4]
    omega
  · rw [Time.uptime] at huptime
    simp only [Time.uptime, addNanos, UInt64.toNat_add, Nat.mod_eq_of_lt huptime]

variable {clocks : ι → Clock}

lemma updateTime_advances {now : ι → UInt64} (hs : s.InRange)
    (hfits : Fits clocks s (.update now)) :
    Advances s (updateTime clocks s now) (due clocks s now) := by
  obtain ⟨hnanos, huptime, hseconds, -⟩ := hfits
  unfold updateTime
  unfold due elapsed at *
  cases hc : s.currentClock with
  | none =>
    simp only [hc] at hnanos huptime hseconds ⊢
    obtain ⟨⟨h1, h2⟩, h3, h4⟩ := addNanos_advances 1000000 hs hnanos huptime hseconds
    exact ⟨⟨h1, h2⟩, h3, h4⟩
  | some c =>
    simp only [hc] at hnanos huptime hseconds ⊢
    split_ifs at hnanos huptime hseconds ⊢ with hsame
    · exact ⟨⟨hs.seconds, hs.nanos⟩, by simp [Time.wall], by simp [Time.uptime]⟩
    · obtain ⟨⟨h1, h2⟩, h3, h4⟩ := addNanos_advances (s := { s with currentClockLastCycle := now c }) _
        ⟨hs.seconds, hs.nanos⟩ hnanos huptime hseconds
      exact ⟨⟨h1, h2⟩, h3, h4⟩

lemma registerClock_inRange (hs : s.InRange) (c : ι) : (registerClock clocks s c).1.InRange := by
  unfold registerClock
  cases s.currentClock with
  | none => exact ⟨hs.seconds, hs.nanos⟩
  | some current =>
    dsimp only
    split_ifs
    · exact ⟨hs.seconds, hs.nanos⟩
    · exact hs

lemma inRange_of_run {es : List (Event ι)}
    (hrun : Run (Guarded (Fits clocks) (Step clocks)) initTime es s) : s.InRange := by
  refine hrun.preserves ⟨le_rfl, by simp [initTime, nanosPerSecond]⟩ ?_
  rintro t e u ht ⟨hfits, rfl⟩
  cases e with
  | register c => exact registerClock_inRange ht c
  | update now => exact (updateTime_advances ht hfits).inRange

/-- In every run of fitting updates and of registrations both clocks advance together. -/
theorem clocks_advance_together {clocks : ι → Clock} {es : List (Event ι)} {s : Time ι}
    (hrun : Run (Guarded (Fits clocks) (Step clocks)) initTime es s) {now : ι → UInt64}
    (hfits : Fits clocks s (.update now)) : Together clocks s now (updateTime clocks s now) := by
  obtain ⟨hrange, hwall, huptime⟩ := updateTime_advances (inRange_of_run hrun) hfits
  refine ⟨hrange.nanos, by omega, by omega, fun a b ha hb hne => .inr ?_⟩
  have hlast := hfits.2.2.2 a b ha hb hne
  rw [huptime, Nat.add_sub_cancel_left, due, hb, ← hlast]

/-- Two clocks that count nanoseconds up to `2 ^ 32`. -/
def twoClocks (c : Bool) : Clock := ⟨if c then 2 else 1, 2 ^ 32, id⟩

theorem clocks_advance_together_switched : ∃ s,
    Run (Guarded (Fits twoClocks) (Step twoClocks)) initTime
      ([.register false] ++ [.update fun _ => 1000] ++ [.register true]) s ∧
    s.lastClock = some false ∧ s.currentClock = some true ∧
    Together twoClocks s (fun _ => 1500) (updateTime twoClocks s fun _ => 1500) := by
  have hfirst : Fits twoClocks (perform twoClocks initTime (.register false))
      (.update fun _ => 1000) :=
    ⟨by decide +kernel, by decide +kernel, by decide +kernel, by decide +kernel⟩
  have hrun : Run (Guarded (Fits twoClocks) (Step twoClocks)) initTime
      ([.register false] ++ [.update fun _ => 1000] ++ [.register true])
      (perform twoClocks (perform twoClocks (perform twoClocks initTime (.register false))
        (.update fun _ => 1000)) (.register true)) :=
    .snoc (.snoc (.one ⟨trivial, rfl⟩) ⟨hfirst, rfl⟩) ⟨trivial, rfl⟩
  refine ⟨_, hrun, rfl, rfl, clocks_advance_together hrun ?_⟩
  exact ⟨by decide +kernel, by decide +kernel, by decide +kernel, by decide +kernel⟩

/-- A long update overflows, and a switch of clocks loses time. -/
theorem wall_clock_falls_behind : (∃ s, Run (Step twoClocks) initTime [.register false] s ∧
      ¬ Together twoClocks s (fun _ => 3000000000) (updateTime twoClocks s fun _ => 3000000000)) ∧
    ∃ s, Run (Step twoClocks) initTime [.register false,
        .update fun c => if c then 1500000000 else 1000000000, .register true] s ∧
      ¬ Together twoClocks s (fun c => if c then 1500000005 else 1000000005)
        (updateTime twoClocks s fun c => if c then 1500000005 else 1000000005) := by
  refine ⟨⟨_, Run.one rfl, fun h => ?_⟩, ⟨_, .snoc (.snoc (Run.one rfl) rfl) rfl, fun h => ?_⟩⟩
  · exact absurd h.nanos.1 (by decide +kernel)
  · exact absurd (h.switched false true rfl rfl (by decide)) (by decide +kernel)

end Gloworm.SystemClock
