/-! Sizes and counts: natural numbers that must fit 64 bits wherever they are kept. -/

namespace BoardRpc

/-- A sequence of bytes on the wire. -/
abbrev Bytes := List UInt8

/-- The largest size or count that can be kept. -/
def maxSize : Nat := 0xffffffffffffffff

/-- The largest size of a buffer, whatever it holds: half of what a size can be. -/
def bufferLimit : Nat := 0x7fffffffffffffff

/-- A size, provided it can be kept. -/
def checkedSize (n : Nat) : Option Nat := if n ≤ maxSize then some n else none

/-- A size, or the largest one where it cannot be kept. -/
def clampedSize (n : Nat) : Nat := min n maxSize

/-- Whether there are at least so many bytes; none behind them is looked at. -/
def hasAtLeast : Nat → Bytes → Bool
  | 0, _ => true
  | _ + 1, [] => false
  | n + 1, _ :: rest => hasAtLeast n rest

/-- There are at least so many bytes when the length says so. -/
@[simp] theorem hasAtLeast_iff {n : Nat} {data : Bytes} :
    hasAtLeast n data = true ↔ n ≤ data.length := by
  fun_induction hasAtLeast n data <;> simp_all

end BoardRpc
