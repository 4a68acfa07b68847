import Gloworm.CircularCells

/-! The pipes of `pipe.c`: one buffer, the size of what has been written to it, and a file
position for each end. -/
namespace Gloworm.Pipe
open List Option CircularCells
variable {α : Type}

def pipeBufferMax : ℕ := 512

structure PipeState (α : Type) where
  buffer : ℤ → α
  size : ℕ
  readPos : ℕ
  writePos : ℕ

def pipeRead (p : PipeState α) (nbytes : ℕ) : PipeState α × Option (List α) :=
  if p.readPos = p.size then (p, none)
  else
    let nbytes := if p.size - p.readPos < nbytes then p.size - p.readPos else nbytes
    let bytes := load p.buffer p.readPos nbytes
    if p.readPos + nbytes = p.size then ({ p with readPos := 0, size := 0 }, some bytes)
    else ({ p with readPos := p.readPos + nbytes }, some bytes)

def pipeWrite (p : PipeState α) (data : List α) : PipeState α × Option ℕ :=
  let nbytes := data.length
  if pipeBufferMax - p.writePos < nbytes then (p, none)
  else
    let position := p.writePos + nbytes
    ({ p with
      buffer := store p.buffer p.writePos data
      writePos := position
      size := if p.size < position then position else p.size }, some nbytes)

structure History (α : Type) where
  pipe : PipeState α
  accepted : List α
  delivered : List α

inductive Call (α : Type)
  | read (nbytes : ℕ)
  | write (data : List α)

def perform (s : History α) : Call α → History α
  | .read nbytes =>
    let res := pipeRead s.pipe nbytes
    { s with pipe := res.1, delivered := s.delivered ++ res.2.getD [] }
  | .write data =>
    let res := pipeWrite s.pipe data
    { s with pipe := res.1, accepted := s.accepted ++ if res.2.isSome then data else [] }

def start (mem : ℤ → α) : History α := ⟨⟨mem, 0, 0, 0⟩, [], []⟩

def exec (mem : ℤ → α) (calls : List (Call α)) : History α := calls.foldl perform (start mem)

def Drains (s : History α) : Call α → Prop
  | .read nbytes => s.pipe.readPos ≠ s.pipe.size ∧ s.pipe.size - s.pipe.readPos ≤ nbytes
  | .write _ => False

def Writable (p : PipeState α) (nbytes : ℕ) : Prop := nbytes ≤ pipeBufferMax - p.writePos

/-- The reads deliver a beginning of the writes, and a drained pipe has room for a full buffer. -/
def Fifo (mem : ℤ → α) (calls : List (Call α)) : Prop :=
  ∀ before call after, calls = before ++ call :: after →
    (exec mem (before ++ [call])).delivered <+: (exec mem (before ++ [call])).accepted ∧
    (Drains (exec mem before) call →
      Writable (exec mem (before ++ [call])).pipe pipeBufferMax)

lemma exec_append (mem : ℤ → α) (before : List (Call α)) (call : Call α) :
    exec mem (before ++ [call]) = perform (exec mem before) call := by
  rw [exec, foldl_append]
  rfl

structure Undrained (s : History α) : Prop where
  size_eq : s.pipe.size = s.accepted.length
  write_eq : s.pipe.writePos = s.accepted.length
  read_le : s.pipe.readPos ≤ s.accepted.length
  buffer_eq : load s.pipe.buffer 0 s.accepted.length = s.accepted
  delivered_eq : s.delivered = s.accepted.take s.pipe.readPos

lemma undrained_start (mem : ℤ → α) : Undrained (start mem) :=
  ⟨rfl, rfl, le_rfl, rfl, rfl⟩

namespace Undrained
variable {s : History α}

lemma write (h : Undrained s) (data : List α) : Undrained (perform s (.write data)) := by
  obtain ⟨h1, h2, h3, h4, h5⟩ := h
  by_cases hfull : pipeBufferMax - s.pipe.writePos < data.length
  · have hstop : pipeWrite s.pipe data = (s.pipe, none) := if_pos hfull
    simp only [perform, hstop, isSome_none, Bool.false_eq_true, if_false, append_nil]
    exact ⟨h1, h2, h3, h4, h5⟩
  · have hgo : pipeWrite s.pipe data = ({ s.pipe with
        buffer := store s.pipe.buffer s.pipe.writePos data
        writePos := s.pipe.writePos + data.length
        size := if s.pipe.size < s.pipe.writePos + data.length
          then s.pipe.writePos + data.length else s.pipe.size }, some data.length) := if_neg hfull
    simp only [perform, hgo, isSome_some, if_true]
    refine ⟨?_, ?_, ?_, ?_, ?_⟩
    · simp only [length_append]
      split_ifs <;> omega
    · simp only [length_append, h2]
    · simp only [length_append]
      omega
    · have hstore := load_store_append s.pipe.buffer 0 s.accepted.length data
      rw [zero_add, h4] at hstore
      simp only [length_append, h2]
      exact hstore
    · simp only [h5]
      rw [take_append_of_le_length h3]

lemma read (h : Undrained s) {nbytes : ℕ} (hd : ¬ Drains s (.read nbytes)) :
    Undrained (perform s (.read nbytes)) := by
  obtain ⟨h1, h2, h3, h4, h5⟩ := id h
  by_cases hempty : s.pipe.readPos = s.pipe.size
  · have hstop : pipeRead s.pipe nbytes = (s.pipe, none) := if_pos hempty
    simp only [perform, hstop, getD_none, append_nil]
    exact h
  · have hless : nbytes < s.pipe.size - s.pipe.readPos := by
      by_contra hno
      exact hd ⟨hempty, not_lt.mp hno⟩
    have hgo : pipeRead s.pipe nbytes = ({ s.pipe with readPos := s.pipe.readPos + nbytes },
        some (load s.pipe.buffer s.pipe.readPos nbytes)) := by
      rw [pipeRead, if_neg hempty, if_neg (by omega : ¬ s.pipe.size - s.pipe.readPos < nbytes)]
      exact if_neg (by omega)
    simp only [perform, hgo, getD_some]
    refine ⟨h1, h2, by simp only; omega, h4, ?_⟩
    have hfront := take_load s.pipe.buffer 0
      (by omega : s.pipe.readPos + nbytes ≤ s.accepted.length)
    have hshort := take_load s.pipe.buffer 0 h3
    rw [h4] at hfront hshort
    rw [h5, hfront, hshort, load_add, zero_add]
end Undrained

lemma undrained_exec {mem : ℤ → α} {calls : List (Call α)}
    (h : ∀ before call after, calls = before ++ call :: after →
      ¬ Drains (exec mem before) call) : Undrained (exec mem calls) := by
  induction calls using List.reverseRecOn with
  | nil => exact undrained_start mem
  | append_singleton calls call ih =>
    have hinit : Undrained (exec mem calls) := by
      apply ih
      intro before call' after he
      apply h before call' (after ++ [call])
      rw [he]
      simp
    have hlast := h calls call [] rfl
    rw [exec_append]
    cases call with
    | read nbytes => exact hinit.read hlast
    | write data => exact hinit.write data

lemma size_between (mem : ℤ → α) (calls : List (Call α)) :
    (exec mem calls).pipe.readPos ≤ (exec mem calls).pipe.size ∧
      (exec mem calls).pipe.size ≤ (exec mem calls).pipe.writePos := by
  induction calls using List.reverseRecOn with
  | nil => exact ⟨le_rfl, le_rfl⟩
  | append_singleton calls call ih =>
    obtain ⟨hread, hwrite⟩ := ih
    rw [exec_append]
    cases call with
    | read nbytes =>
      simp only [perform, pipeRead]
      split_ifs <;> simp only <;> omega
    | write data =>
      simp only [perform, pipeWrite]
      split_ifs <;> simp only <;> omega

lemma writePos_after_drain {s : History α} {call : Call α} (h : Drains s call) :
    (perform s call).pipe.writePos = s.pipe.writePos := by
  cases call with
  | read nbytes =>
    simp only [perform, pipeRead]
    split_ifs <;> rfl
  | write data => exact absurd h id

/-- A pipe behaves as a queue in exactly those histories in which it is never drained. -/
theorem pipe_fifo_iff (mem : ℤ → α) (calls : List (Call α)) :
    Fifo mem calls ↔ ∀ before call after, calls = before ++ call :: after →
      ¬ Drains (exec mem before) call := by
  constructor
  · intro hfifo before call after he hd
    have hroom := (hfifo before call after he).2 hd
    obtain ⟨hread, hwrite⟩ := size_between mem before
    rw [exec_append, Writable, writePos_after_drain hd] at hroom
    have hpos : 0 < (exec mem before).pipe.size := by
      cases call with
      | read nbytes =>
        have hne := hd.1
        omega
      | write data => exact absurd hd id
    simp only [pipeBufferMax] at hroom
    omega
  · intro hno before call after he
    have hund : Undrained (exec mem (before ++ [call])) := by
      apply undrained_exec
      intro b c a hb
      apply hno b c (a ++ after)
      rw [he, ← singleton_append, ← append_assoc, hb]
      simp
    refine ⟨?_, fun hd => absurd hd (hno before call after he)⟩
    rw [hund.delivered_eq]
    exact take_prefix _ _

/-- A byte that was read is read again. -/
theorem drained_pipe_repeats : ¬ Fifo (fun _ => (0 : ℕ)) [.write [1], .read 1, .write [2], .read 1] := by
  intro h
  have hlast := (h [.write [1], .read 1, .write [2]] (.read 1) [] rfl).1
  exact absurd hlast (by decide)

end Gloworm.Pipe
