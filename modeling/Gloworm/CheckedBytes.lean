import Mathlib

/-! A block of bytes whose accesses are checked: an access outside the block is a fault. Words are
big-endian. Inside the block each operation has a plain value. -/
namespace Gloworm.CheckedBytes
open List

/-- An access outside of the bytes, or a loop that has not ended. -/
inductive Fault
  | outside
  | unfinished
  deriving DecidableEq, Repr

variable {d : List UInt8} {i n v : ℕ} {ε α β : Type}

@[simp] lemma ok_bind (a : α) (f : α → Except ε β) : (Except.ok a >>= f) = f a := rfl

@[simp] lemma error_bind (e : ε) (f : α → Except ε β) : (Except.error e >>= f) = .error e := rfl

/-- Read a byte. -/
def load8 (d : List UInt8) (i : ℕ) : Except Fault ℕ :=
  match d[i]? with
  | some b => .ok b.toNat
  | none => .error .outside

def load16 (d : List UInt8) (i : ℕ) : Except Fault ℕ := do
  let hi ← load8 d i
  let lo ← load8 d (i + 1)
  return hi * 256 + lo

def load32 (d : List UInt8) (i : ℕ) : Except Fault ℕ := do
  let hi ← load16 d i
  let lo ← load16 d (i + 2)
  return hi * 65536 + lo

/-- Write a byte. -/
def store8 (d : List UInt8) (i v : ℕ) : Except Fault (List UInt8) :=
  if i < d.length then .ok (d.set i (UInt8.ofNat v)) else .error .outside

def store16 (d : List UInt8) (i v : ℕ) : Except Fault (List UInt8) := do
  let d ← store8 d i (v / 256)
  store8 d (i + 1) v

def store32 (d : List UInt8) (i v : ℕ) : Except Fault (List UInt8) := do
  let d ← store16 d i (v / 65536)
  store16 d (i + 2) v

/-- Write bytes from `i` on. -/
def write (d : List UInt8) (i : ℕ) (bytes : List UInt8) : Except Fault (List UInt8) :=
  if i + bytes.length ≤ d.length then .ok (d.take i ++ bytes ++ d.drop (i + bytes.length))
  else .error .outside

def rewrite16 (d : List UInt8) (i : ℕ) : Except Fault (List UInt8) := do
  let v ← load16 d i
  store16 d i v

def rewrite32 (d : List UInt8) (i : ℕ) : Except Fault (List UInt8) := do
  let d ← rewrite16 d i
  rewrite16 d (i + 2)

/-- Read `n` bytes from `i` on. -/
def copy (d : List UInt8) (i n : ℕ) : Except Fault (List UInt8) :=
  if i + n ≤ d.length then .ok ((d.drop i).take n) else .error .outside

def Gives {ε α : Type} (x : Except ε α) (P : α → Prop) : Prop := ∀ a, x = .ok a → P a

lemma gives_ok {a : α} {P : α → Prop} (h : P a) : Gives (.ok a : Except ε α) P := by
  intro b hb
  cases hb
  exact h

lemma gives_error (e : ε) (P : α → Prop) : Gives (.error e : Except ε α) P := by
  intro b hb
  cases hb

variable {x : Except ε α} {P : β → Prop}

lemma Gives.bind {f : α → Except ε β} (h : ∀ a, x = .ok a → Gives (f a) P) : Gives (x >>= f) P := by
  cases x with
  | error e => exact gives_error e P
  | ok a => exact h a rfl

lemma Gives.map {f : α → β} (h : Gives x fun a => P (f a)) : Gives (x.map f) P := by
  cases x with
  | error e => exact gives_error e P
  | ok a => exact gives_ok (h a rfl)

def Ends {α : Type} (x : Except Fault α) : Prop := x ≠ .error .unfinished

lemma ends_ok (a : α) : Ends (.ok a) := by simp [Ends]

lemma Ends.bind {x : Except Fault α} {f : α → Except Fault β} (hx : Ends x)
    (hf : ∀ a, Ends (f a)) : Ends (x >>= f) := by
  cases x with
  | error e => cases e with
    | outside => simp [Ends]
    | unfinished => exact absurd rfl hx
  | ok a => exact hf a

lemma load8_ends (d : List UInt8) (i : ℕ) : Ends (load8 d i) := by
  unfold load8
  split <;> simp [Ends]

lemma load16_ends (d : List UInt8) (i : ℕ) : Ends (load16 d i) :=
  (load8_ends d i).bind fun _ => (load8_ends d (i + 1)).bind fun _ => ends_ok _

lemma load32_ends (d : List UInt8) (i : ℕ) : Ends (load32 d i) :=
  (load16_ends d i).bind fun _ => (load16_ends d (i + 2)).bind fun _ => ends_ok _

lemma store8_ends (d : List UInt8) (i v : ℕ) : Ends (store8 d i v) := by
  unfold store8
  split <;> simp [Ends]

lemma store16_ends (d : List UInt8) (i v : ℕ) : Ends (store16 d i v) :=
  (store8_ends d i _).bind fun d => store8_ends d (i + 1) v

lemma copy_ends (d : List UInt8) (i n : ℕ) : Ends (copy d i n) := by
  unfold copy
  split <;> simp [Ends]

def byteAt (d : List UInt8) (i : ℕ) : ℕ := (d.getD i 0).toNat

def wordAt (d : List UInt8) (i : ℕ) : ℕ := byteAt d i * 256 + byteAt d (i + 1)

def longAt (d : List UInt8) (i : ℕ) : ℕ := wordAt d i * 65536 + wordAt d (i + 2)

def put16 (d : List UInt8) (i v : ℕ) : List UInt8 :=
  (d.set i (UInt8.ofNat (v / 256))).set (i + 1) (UInt8.ofNat v)

@[simp] lemma length_put16 (d : List UInt8) (i v : ℕ) : (put16 d i v).length = d.length := by
  simp [put16]

lemma load8_inside (h : i < d.length) : load8 d i = .ok (byteAt d i) := by
  simp [load8, byteAt, List.getElem?_eq_getElem h, List.getD_eq_getElem?_getD]

lemma load8_outside (h : d.length ≤ i) : load8 d i = .error .outside := by
  simp [load8, List.getElem?_eq_none h]

lemma load16_inside (h : i + 2 ≤ d.length) : load16 d i = .ok (wordAt d i) := by
  rw [load16, load8_inside (by omega), load8_inside (by omega)]
  rfl

lemma load16_outside (h : d.length ≤ i) : load16 d i = .error .outside := by
  rw [load16, load8_outside h]
  rfl

lemma load32_inside (h : i + 4 ≤ d.length) : load32 d i = .ok (longAt d i) := by
  rw [load32, load16_inside (by omega), load16_inside (by omega)]
  rfl

lemma store8_inside (h : i < d.length) (v : ℕ) :
    store8 d i v = .ok (d.set i (UInt8.ofNat v)) := if_pos h

lemma store16_inside (h : i + 2 ≤ d.length) (v : ℕ) : store16 d i v = .ok (put16 d i v) := by
  have hfirst : store8 d i (v / 256) = .ok (d.set i (UInt8.ofNat (v / 256))) :=
    store8_inside (by omega) _
  have hsecond : i + 1 < (d.set i (UInt8.ofNat (v / 256))).length := by
    rw [length_set]
    omega
  rw [store16, hfirst]
  exact store8_inside hsecond v

lemma wordAt_lt (d : List UInt8) (i : ℕ) : wordAt d i < 65536 := by
  have h1 := (d.getD i 0).toNat_lt
  have h2 := (d.getD (i + 1) 0).toNat_lt
  unfold wordAt byteAt
  omega

lemma ofNat_byteAt (h : i < d.length) : UInt8.ofNat (byteAt d i) = d[i] := by
  simp [byteAt, List.getD_eq_getElem?_getD, List.getElem?_eq_getElem h]

lemma put16_put16_wordAt (d : List UInt8) (i v : ℕ) : put16 (put16 d i v) i (wordAt d i) = d := by
  have hhi : wordAt d i / 256 = byteAt d i := by
    have := (d.getD (i + 1) 0).toNat_lt
    unfold wordAt byteAt
    omega
  have hlo : UInt8.ofNat (wordAt d i) = UInt8.ofNat (byteAt d (i + 1)) := by
    apply UInt8.toNat.inj
    simp [wordAt]
  apply ext_getElem
  · simp
  · intro j h1 h2
    simp only [put16, getElem_set, hhi, hlo]
    split_ifs with hj hj'
    · subst hj
      exact ofNat_byteAt h2
    · subst hj'
      exact ofNat_byteAt h2
    · rfl

lemma put16_wordAt (d : List UInt8) (i : ℕ) : put16 d i (wordAt d i) = d := by
  have htwice := put16_put16_wordAt d i (wordAt d i)
  have hidem : put16 (put16 d i (wordAt d i)) i (wordAt d i) = put16 d i (wordAt d i) := by
    simp only [put16]
    rw [set_comm _ _ (by omega : i + 1 ≠ i), set_set, set_set]
  rw [hidem] at htwice
  exact htwice

lemma rewrite16_inside (h : i + 2 ≤ d.length) : rewrite16 d i = .ok d := by
  have hload : load16 d i = .ok (wordAt d i) := load16_inside h
  rw [rewrite16, hload]
  exact (store16_inside h _).trans (congrArg _ (put16_wordAt d i))

lemma rewrite16_outside (h : d.length ≤ i) : rewrite16 d i = .error .outside := by
  rw [rewrite16, load16_outside h]
  rfl

lemma rewrite32_inside (h : i + 4 ≤ d.length) : rewrite32 d i = .ok d := by
  rw [rewrite32, rewrite16_inside (by omega)]
  exact rewrite16_inside (by omega)

lemma store32_inside (h : i + 4 ≤ d.length) (v : ℕ) :
    store32 d i v = .ok (put16 (put16 d i (v / 65536)) (i + 2) v) := by
  rw [store32, store16_inside (by omega)]
  exact store16_inside (by rw [length_put16]; omega) v

lemma byteAt_lt (d : List UInt8) (i : ℕ) : byteAt d i < 256 := (d.getD i 0).toNat_lt

lemma byteAt_set_self (h : i < d.length) (b : UInt8) : byteAt (d.set i b) i = b.toNat := by
  simp [byteAt, List.getD_eq_getElem?_getD, h]

variable {j : ℕ}

lemma byteAt_set_ne (h : i ≠ j) (b : UInt8) : byteAt (d.set i b) j = byteAt d j := by
  simp [byteAt, List.getD_eq_getElem?_getD, h]

lemma byteAt_put16_ne (h : j ≠ i ∧ j ≠ i + 1) (v : ℕ) : byteAt (put16 d i v) j = byteAt d j := by
  rw [put16, byteAt_set_ne (Ne.symm h.2), byteAt_set_ne (Ne.symm h.1)]

lemma byteAt_put16 (h : i + 2 ≤ d.length) (v : ℕ) : byteAt (put16 d i v) j =
    if j = i then v / 256 % 256 else if j = i + 1 then v % 256 else byteAt d j := by
  split_ifs with hi hi'
  · rw [hi, put16, byteAt_set_ne (by omega), byteAt_set_self (by omega)]
    simp
  · rw [hi', put16, byteAt_set_self (by simpa using by omega)]
    simp
  · exact byteAt_put16_ne ⟨hi, hi'⟩ v

lemma wordAt_put16_self (h : i + 2 ≤ d.length) (v : ℕ) : wordAt (put16 d i v) i = v % 65536 := by
  rw [wordAt, byteAt_put16 h, byteAt_put16 h, if_pos rfl, if_neg (by omega), if_pos rfl]
  omega

lemma wordAt_put16_ne (h : j + 2 ≤ i ∨ i + 2 ≤ j) (v : ℕ) :
    wordAt (put16 d i v) j = wordAt d j := by
  rw [wordAt, byteAt_put16_ne (by omega), byteAt_put16_ne (by omega), wordAt]

/-- Bytes in the place of others. -/
def splice (d : List UInt8) (i : ℕ) (bytes : List UInt8) : List UInt8 :=
  d.take i ++ bytes ++ d.drop (i + bytes.length)

section
variable {bytes : List UInt8} (h : i + bytes.length ≤ d.length)
include h

lemma write_inside : write d i bytes = .ok (splice d i bytes) := if_pos h

lemma length_splice : (splice d i bytes).length = d.length := by
  simp only [splice, length_append, length_take, length_drop]
  omega

lemma byteAt_splice : byteAt (splice d i bytes) j =
      if i ≤ j ∧ j < i + bytes.length then byteAt bytes (j - i) else byteAt d j := by
  have htake : (d.take i).length = i := by
    rw [length_take]
    omega
  rw [byteAt, byteAt, byteAt, splice, append_assoc]
  simp only [List.getD_eq_getElem?_getD]
  by_cases hlow : j < i
  · rw [List.getElem?_append_left (by omega), List.getElem?_take_of_lt hlow, if_neg (by omega)]
  · rw [List.getElem?_append_right (by omega), htake]
    by_cases hmid : j - i < bytes.length
    · rw [List.getElem?_append_left hmid, if_pos (by omega)]
    · rw [List.getElem?_append_right (by omega), List.getElem?_drop, if_neg (by omega),
        show i + bytes.length + (j - i - bytes.length) = j by omega]

lemma wordAt_splice_before (hj : j + 2 ≤ i) : wordAt (splice d i bytes) j = wordAt d j := by
  rw [wordAt, byteAt_splice h, byteAt_splice h, if_neg (by omega), if_neg (by omega), wordAt]

lemma drop_take_splice : ((splice d i bytes).take (i + bytes.length)).drop i = bytes := by
  have htake : (d.take i).length = i := by
    rw [length_take]
    omega
  have hlen : (d.take i ++ bytes).length = i + bytes.length := by
    rw [length_append, htake]
  rw [splice, take_left' hlen, drop_left' htake]
end

lemma byteAt_take (h : j < n) : byteAt (d.take n) j = byteAt d j := by
  simp [byteAt, List.getD_eq_getElem?_getD, List.getElem?_take_of_lt h]

lemma wordAt_take (h : j + 1 < n) : wordAt (d.take n) j = wordAt d j := by
  rw [wordAt, byteAt_take (by omega), byteAt_take h, wordAt]

lemma copy_inside (h : i + n ≤ d.length) : copy d i n = .ok ((d.drop i).take n) := if_pos h

end Gloworm.CheckedBytes
