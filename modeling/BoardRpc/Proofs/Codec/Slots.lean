import BoardRpc.Proofs.Binary.Widening
import BoardRpc.Proofs.Codec.Canonical

/-! Slots: the runs of a payload that single values or padding stand in. -/

namespace BoardRpc

namespace Codec

/-- A run of bytes in a payload: the place of one value of fixed width or of one byte of padding,
or bytes that are read and written as they are, those of strings and raw fields. -/
inductive Slot
  | fixed (kind : Primitive) (bytes : Bytes)
  | verbatim (bytes : Bytes)

namespace Slot

/-- The bytes of the slot. -/
def bytes : Slot → Bytes
  | .fixed _ bytes | .verbatim bytes => bytes

/-- The bytes that are written for what is read from the slot: padding is zero, and a truth value
is zero or one. -/
def rewritten : Slot → Bytes
  | .fixed .pad bytes => bytes.map fun _ => 0
  | .fixed .bool bytes => bytes.map fun byte => if byte = 0 then 0 else 1
  | slot => slot.bytes

/-- Whether the slot is one of single precision that holds no number. -/
def isNaN (order : ByteOrder) : Slot → Bool
  | .fixed .float bytes => (Single.mk (UInt32.ofNat (decodeWord order bytes))).isNaN
  | _ => false

/-- A slot is rewritten in place. -/
@[simp] theorem length_rewritten (slot : Slot) : slot.rewritten.length = slot.bytes.length := by
  -- Bytes are replaced one by one, or kept.
  unfold rewritten bytes
  split <;> simp

end Slot

/-- The bytes of slots one behind the other. -/
def spread (slots : List Slot) : Bytes := slots.flatMap Slot.bytes

/-- The bytes that are written for what is read from slots one behind the other. -/
def rewrite (slots : List Slot) : Bytes := slots.flatMap Slot.rewritten

/-- Slots of one kind, as many as fit. -/
def elementSlots (kind : Primitive) : Nat → Bytes → List Slot
  | 0, _ => []
  | count + 1, data =>
    .fixed kind (data.take kind.width) :: elementSlots kind count (data.drop kind.width)

/-- The slots of entries one behind the other, until nothing is left; every entry takes at least
one byte, so there are no more entries than bytes. -/
def entrySlots (entry : Bytes → List Slot) : Nat → Bytes → List Slot
  | 0, _ => []
  | fuel + 1, data =>
    if data.isEmpty then []
    else entry data ++ entrySlots entry fuel (data.drop (spread (entry data)).length)

mutual

/-- The slots of a field's own extent. -/
def fieldSlots : Field → Bytes → List Slot
  | .primitive kind _, data => elementSlots kind (data.length / kind.width) data
  | .text _, data | .raw _, data => [.verbatim data]
  | .group body times, data =>
    -- A group that does not repeat is its body, with no end to look for.
    if times = .once then rowSlots body data
    else entrySlots (fun rest => rowSlots body rest) data.length data

/-- The slots of fields in a row at the front of a payload. -/
def rowSlots : List Field → Bytes → List Slot
  | [], _ => []
  | field :: others, data =>
    match field.extent data with
    | .ok size => fieldSlots field (data.take size) ++ rowSlots others (data.drop size)
    | .error _ => []

end

/-- A byte is the one that its number stands for. -/
theorem decodeWord_byte (order : ByteOrder) (byte : UInt8) :
    decodeWord order [byte] = byte.toNat := by
  simp [decodeWord, arrange, Word.join]

/-- A signed word holds the number that it was made from. -/
theorem number?_ofInt {n : Int} (low : -2 ^ 63 ≤ n) (high : n < 2 ^ 63) :
    (Value.ofInt n).number? = some n := by
  rw [Value.ofInt, Value.number?, Int64.toInt_ofInt_of_le low high]

/-- An unsigned word holds the number that it was made from. -/
theorem number?_ofNat {n : Nat} (small : n < 2 ^ 64) :
    (Value.ofNat n).number? = some (n : Int) := by
  rw [Value.ofNat, Value.number?, UInt64.toNat_ofNat_of_lt' small]

/-- The number that a signed word stands for lies between the halves, and leaves the word. -/
theorem word_signed {bits word : Nat} (positive : 0 < bits) (small : word < 2 ^ bits) :
    ∃ n : Int, (if word < 2 ^ (bits - 1) then (word : Int) else word - (2 ^ bits : Nat)) = n ∧
      -(2 ^ (bits - 1) : Nat) ≤ n ∧ n < (2 ^ (bits - 1) : Nat) ∧
      (n % (2 ^ bits : Nat)).toNat = word := by
  -- With the half as the unit, both cases are about a multiple of the power.
  refine ⟨_, rfl, ?_⟩
  obtain ⟨rest, rfl⟩ := Nat.exists_eq_add_of_le' positive
  simp only [Nat.add_sub_cancel, Nat.pow_succ] at small ⊢
  generalize 2 ^ rest = half at small ⊢
  split
  · -- A word of the lower half is the number itself.
    refine ⟨by omega, by omega, ?_⟩
    rw [Int.emod_eq_of_lt (by omega) (by omega)]
    rfl
  · refine ⟨by omega, by omega, ?_⟩
    rw [Int.sub_emod_right, Int.emod_eq_of_lt (by omega) (by omega)]
    rfl

/-- No slot is wider than the words that values hold. -/
theorem width_le (kind : Primitive) : kind.width ≤ 8 := by
  cases kind <;> decide

/-- An integer that was read is written as the bytes that it was read from. -/
theorem encodePrimitive_decodePrimitive_integer {order : ByteOrder} {kind : Primitive}
    (integer : isInteger kind) {bytes : Bytes} (width : bytes.length = kind.width) :
    encodePrimitive order kind (decodePrimitive order kind bytes) = .ok bytes := by
  -- What is known of the word and of the width is all that the arithmetic below needs.
  have small := decodeWord_lt order bytes
  have same := encodeWord_decodeWord order width
  have positive := kind.width_pos
  have wide := width_le kind
  rw [width, ← two_pow_bits] at small
  rw [encodePrimitive_integer integer, decodePrimitive_integer integer]
  simp only [least, greatest, Nat.pow_eq]
  generalize decodeWord order bytes = word at *
  -- The number that was read lies between the bounds of its slot, and no word is lost.
  cases kind.isSigned with
  | true =>
    obtain ⟨n, read, low, high, back⟩ := word_signed (by omega) small
    have half : 2 ^ (8 * kind.width - 1) ≤ 2 ^ 63 := Nat.pow_le_pow_right (by omega) (by omega)
    have inside : ¬ (n < -(2 ^ (8 * kind.width - 1) : Nat) ∨
        (2 ^ (8 * kind.width - 1) : Nat) - 1 < n) := by omega
    have held : (Value.ofInt n).number? = some n := number?_ofInt (by omega) (by omega)
    simp only [if_true, read, held, if_neg inside, back, same]
  | false =>
    have whole : 2 ^ (8 * kind.width) ≤ 2 ^ 64 := Nat.pow_le_pow_right (by omega) (by omega)
    have inside : ¬ ((word : Int) < 0 ∨ (2 ^ (8 * kind.width) : Nat) - 1 < (word : Int)) := by omega
    have back : ((word : Int) % (2 ^ (8 * kind.width) : Nat)).toNat = word := by
      rw [Int.emod_eq_of_lt (by omega) (by omega)]
      rfl
    have held : (Value.ofNat word).number? = some (word : Int) := number?_ofNat (by omega)
    simp only [Bool.false_eq_true, if_false, held, if_neg inside, back, same]

/-- What is read from a slot is written as the slot's rewritten bytes. -/
theorem encodePrimitive_decodePrimitive {order : ByteOrder} {kind : Primitive} {bytes : Bytes}
    (slot : kind ≠ .pad) (width : bytes.length = kind.width)
    (number : (Slot.fixed kind bytes).isNaN order = false) :
    encodePrimitive order kind (decodePrimitive order kind bytes)
      = .ok (Slot.fixed kind bytes).rewritten := by
  by_cases integer : isInteger kind
  · -- Integers keep their bytes, as they are no truth values.
    rw [encodePrimitive_decodePrimitive_integer integer width]
    cases kind <;> first | rfl | cases integer
  · cases kind with
    | pad => exact absurd rfl slot
    -- The one byte is the character.
    | char =>
      obtain ⟨byte, rfl⟩ := List.length_eq_one_iff.mp width
      simp [decodePrimitive, decodeWord_byte, encodePrimitive, characterByte?, Slot.rewritten,
        Slot.bytes]
    | bool =>
      obtain ⟨byte, rfl⟩ := List.length_eq_one_iff.mp width
      -- Any byte but zero is read as true, and true is written as one.
      by_cases zero : byte = 0
      · subst zero
        simp [decodePrimitive, decodeWord_byte, encodePrimitive, Value.ordinal?, Slot.rewritten]
      · have held : byte.toNat ≠ 0 := fun same => zero (UInt8.toNat_inj.mp same)
        simp [decodePrimitive, decodeWord_byte, encodePrimitive, Value.ordinal?, Slot.rewritten,
          zero, held]
    | float =>
      -- The bits are those of a number, which widening and narrowing give back.
      have small := decodeWord_lt order bytes
      have same := encodeWord_decodeWord order width
      rw [width] at small
      have held : (UInt32.ofNat (decodeWord order bytes)).toNat = decodeWord order bytes :=
        UInt32.toNat_ofNat_of_lt' small
      simp only [decodePrimitive, encodePrimitive, Value.ofSingle, Value.toDouble?,
        Single.narrow_widen number, held, Slot.rewritten, Slot.bytes]
      exact congrArg _ same
    | double =>
      -- A double keeps its bits, whatever they stand for.
      have small := decodeWord_lt order bytes
      have same := encodeWord_decodeWord order width
      rw [width] at small
      have held : (UInt64.ofNat (decodeWord order bytes)).toNat = decodeWord order bytes :=
        UInt64.toNat_ofNat_of_lt' small
      simp only [decodePrimitive, encodePrimitive, Value.toDouble?, held, Slot.rewritten,
        Slot.bytes]
      exact congrArg _ same
    | _ => exact absurd rfl integer

/-- What is read from a slot is read from its rewritten bytes too. -/
theorem decodePrimitive_rewritten {order : ByteOrder} {kind : Primitive} {bytes : Bytes}
    (slot : kind ≠ .pad) (width : bytes.length = kind.width) :
    decodePrimitive order kind (Slot.fixed kind bytes).rewritten
      = decodePrimitive order kind bytes := by
  -- Only the bytes of truth values change, and they stay zero or not.
  cases kind with
  | pad => exact absurd rfl slot
  | bool =>
    obtain ⟨byte, rfl⟩ := List.length_eq_one_iff.mp width
    -- Zero stays zero, and every other byte becomes one.
    by_cases zero : byte = 0
    · simp [zero, Slot.rewritten]
    · have held : byte.toNat ≠ 0 := fun same => zero (UInt8.toNat_inj.mp same)
      simp [decodePrimitive, decodeWord_byte, Slot.rewritten, zero, held]
  | _ => rfl

/-- What is read from a slot is in canonical form. -/
theorem canonicalSlot_decodePrimitive {order : ByteOrder} {kind : Primitive} {bytes : Bytes}
    (slot : kind ≠ .pad) (width : bytes.length = kind.width)
    (number : (Slot.fixed kind bytes).isNaN order = false) :
    canonicalSlot kind (decodePrimitive order kind bytes) = decodePrimitive order kind bytes := by
  -- It is written into the rewritten bytes, and from these the canonical value is read.
  obtain ⟨_, canonical⟩ := decodePrimitive_encodePrimitive slot
    (encodePrimitive_decodePrimitive slot width number)
  rw [← canonical, decodePrimitive_rewritten slot width]

end Codec

/-- The slots of a payload. -/
def Format.slots (format : Format) (payload : Bytes) : List Codec.Slot :=
  Codec.rowSlots format.fields payload

end BoardRpc
