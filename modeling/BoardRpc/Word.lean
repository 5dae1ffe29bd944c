import BoardRpc.Size

/-! Words as bytes, the least significant byte first. -/

namespace BoardRpc.Word

/-- The lowest bytes of a number, as many as asked for. -/
def split : Nat → Nat → Bytes
  | 0, _ => []
  | width + 1, n => UInt8.ofNat (n % 256) :: split width (n / 256)

/-- The number that bytes stand for. -/
def join : Bytes → Nat
  | [] => 0
  | byte :: rest => byte.toNat + 256 * join rest

/-- A word has as many bytes as it is wide. -/
@[simp] theorem length_split (width n : Nat) : (split width n).length = width := by
  induction width generalizing n with
  | zero => rfl
  | succ width ih => simp [split, ih]

/-- Splitting keeps what fits the width. -/
theorem join_split (width n : Nat) : join (split width n) = n % Nat.pow 256 width := by
  induction width generalizing n with
  | zero => simp [split, join, Nat.mod_one]
  | succ width ih =>
    -- The lowest byte is the remainder, and the others are those of the quotient.
    have low : (UInt8.ofNat (n % 256)).toNat = n % 256 := by
      simp [UInt8.toNat_ofNat']
    have power : Nat.pow 256 (width + 1) = 256 * Nat.pow 256 width := Nat.mul_comm ..
    simp only [split, join, low, ih, power, Nat.mod_mul]

/-- A word of 32 bits is told by its four bytes. -/
@[simp] theorem ofNat_join_split (n : UInt32) : UInt32.ofNat (join (split 4 n.toNat)) = n := by
  -- The word is below the power of 256 that four bytes hold.
  have small : n.toNat < Nat.pow 256 4 := n.toNat_lt
  rw [join_split, Nat.mod_eq_of_lt small, UInt32.ofNat_toNat]

/-- Bytes are those of the number that they stand for. -/
theorem split_join (bytes : Bytes) : split bytes.length (join bytes) = bytes := by
  induction bytes with
  | nil => rfl
  | cons byte rest ih =>
    -- A byte is less than 256, so it is the remainder and the rest is the quotient.
    have small : byte.toNat < 256 := byte.toNat_lt
    have low : (byte.toNat + 256 * join rest) % 256 = byte.toNat := by omega
    have high : (byte.toNat + 256 * join rest) / 256 = join rest := by omega
    simp [split, join, low, high, ih]

/-- Bytes stand for a number below the power that their count gives. -/
theorem join_lt (bytes : Bytes) : join bytes < Nat.pow 256 bytes.length := by
  induction bytes with
  | nil => simp [join]
  | cons byte rest ih =>
    have small : byte.toNat < 256 := byte.toNat_lt
    have power : Nat.pow 256 (rest.length + 1) = 256 * Nat.pow 256 rest.length :=
      Nat.mul_comm ..
    simp only [join, List.length_cons, power]
    omega

end BoardRpc.Word
