import Gloworm.CircularCells
import Gloworm.MachineWords

/-! The ring buffers of `ringbuffer.h`. Positions are signed 16-bit values; the cells behind
the bound exist in the model because nothing stops the code from reading there. -/
namespace Gloworm.RingBuffer
open CircularCells Word

/-- A ring buffer. One element stays free, so that a full ring is not an empty one. -/
structure Ring (α : Type) where
  max : ℤ
  inPos : ℤ
  outPos : ℤ
  buffer : ℤ → α

def ringBufferSize : ℤ := 512

variable {α : Type}

def bufInit (totalSize : ℤ) (mem : ℤ → α) : Ring α :=
  ⟨if totalSize ≠ 0 then toShort (totalSize - 6) else ringBufferSize, 0, 0, mem⟩

def bufNextIn (r : Ring α) : ℤ := if r.inPos + 1 < r.max then r.inPos + 1 else 0

def bufIsEmpty (r : Ring α) : Prop := r.inPos = r.outPos
deriving Decidable

def bufIsFull (r : Ring α) : Prop := bufNextIn r = r.outPos

/-- The number of elements, as a short. -/
def bufUsedSpace (r : Ring α) : ℤ :=
  toShort (if r.outPos ≤ r.inPos then r.inPos - r.outPos else r.max - r.outPos + r.inPos)

def bufFreeSpace (r : Ring α) : ℤ :=
  toShort (if r.inPos < r.outPos then r.outPos - r.inPos - 1
    else r.max - r.inPos + r.outPos - 1)

def bufNextOut (r : Ring α) : ℤ :=
  let out := toShort (r.outPos + 1)
  if r.max ≤ out then 0 else out

def bufGetChar (r : Ring α) : Ring α × Option α :=
  if r.outPos = r.inPos then (r, none)
  else ({ r with outPos := bufNextOut r }, some (r.buffer r.outPos))

def bufPutChar (r : Ring α) (ch : α) : Ring α × Option α :=
  let next := bufNextIn r
  if next = r.outPos then (r, none)
  else ({ r with buffer := Function.update r.buffer r.inPos ch, inPos := next }, some ch)

def getLoop : ℕ → Ring α → Ring α × List α
  | 0, r => (r, [])
  | n + 1, r =>
    if r.outPos = r.inPos then (r, [])
    else
      let res := getLoop n { r with outPos := bufNextOut r }
      (res.1, r.buffer r.outPos :: res.2)

/-- Take up to `size` elements. -/
def bufGet (r : Ring α) (size : ℤ) : Ring α × List α := getLoop size.toNat r

def peekLoop (r : Ring α) : ℕ → ℤ → List α
  | 0, _ => []
  | n + 1, j =>
    if j = r.inPos then []
    else
      let next := toShort (j + 1)
      r.buffer j :: peekLoop r n (if r.max ≤ next then 0 else next)

/-- Copy elements from `offset` on and leave them in the ring. -/
def bufPeek (r : Ring α) (offset size : ℤ) : List α :=
  let avail := bufUsedSpace r
  let offset := if avail < offset then avail else offset
  let j := toShort (r.outPos + offset)
  let j := if r.max < j then toShort (j - r.max) else j
  peekLoop r size.toNat j

def putLoop : List α → Ring α → Ring α × ℕ
  | [], r => (r, 0)
  | d :: data, r =>
    let r := { r with buffer := Function.update r.buffer r.inPos d }
    let next := bufNextIn r
    if next = r.outPos then (r, 0)
    else
      let res := putLoop data { r with inPos := next }
      (res.1, res.2 + 1)

/-- Put in as many elements as fit. -/
def bufPut (r : Ring α) (data : List α) (size : ℤ) : Ring α × ℕ :=
  putLoop (data.take size.toNat) r

def bufDropCount (r : Ring α) (size : ℤ) : ℤ :=
  let avail := bufUsedSpace r
  if avail < size then avail else size

/-- Drop up to `size` elements. -/
def bufDrop (r : Ring α) (size : ℤ) : Ring α :=
  let out := toShort (r.outPos + bufDropCount r size)
  { r with outPos := if r.max ≤ out then toShort (out - r.max) else out }

def chunk (distance : ℤ) (size : ℕ) : ℤ :=
  toShort (if toUnsigned distance < size then distance else size)

/-- Take elements in at most two pieces; an empty ring is not tested for. -/
def bufGetIter (r : Ring α) (size : ℕ) : Ring α × List α :=
  let chunk1 := if r.outPos < r.inPos then chunk (r.inPos - r.outPos) size
    else chunk (r.max - r.outPos) size
  let first := load r.buffer r.outPos chunk1.toNat
  let out := toShort (r.outPos + chunk1)
  let r := { r with outPos := if r.max ≤ out then 0 else out }
  let size := toUnsigned (size - chunk1)
  if size = 0 ∨ r.outPos = r.inPos then (r, first)
  else
    let chunk2 := chunk (r.inPos - r.outPos) size
    ({ r with outPos := toShort (r.outPos + chunk2) },
      first ++ load r.buffer r.outPos chunk2.toNat)

/-- Put elements in in at most two pieces. -/
def bufPutIter (r : Ring α) (data : List α) : Ring α × ℤ :=
  let size := data.length
  let chunk1 := if r.inPos < r.outPos then chunk (r.outPos - r.inPos - 1) size
    else toShort (if toUnsigned (r.max - r.inPos) < size
      then r.max - r.inPos - (if r.outPos ≠ 0 then 0 else 1) else size)
  let buffer := store r.buffer r.inPos (data.take chunk1.toNat)
  let into := toShort (r.inPos + chunk1)
  let r := { r with buffer := buffer, inPos := if r.max ≤ into then 0 else into }
  let size := toUnsigned (size - chunk1)
  if size = 0 ∨ r.inPos + 1 = r.outPos ∨ r.inPos + 1 = r.max then (r, chunk1)
  else
    let chunk2 := chunk (r.outPos - r.inPos - 1) size
    let rest := (data.drop chunk1.toNat).take chunk2.toNat
    ({ r with buffer := store r.buffer r.inPos rest, inPos := toShort (r.inPos + chunk2) },
      toShort (chunk1 + chunk2))

end Gloworm.RingBuffer
