import BoardRpc.Codec.Decode
import BoardRpc.Codec.Encode
import BoardRpc.Proofs.Text.Utf8

/-! Canonical values: what decoding gives back for the arguments that were encoded. -/

namespace BoardRpc

namespace Codec

/-- Arranging bytes keeps their number. -/
@[simp] theorem length_arrange (order : ByteOrder) (bytes : Bytes) :
    (arrange order bytes).length = bytes.length := by
  -- Bytes are left as they are or reversed.
  unfold arrange; split <;> simp

/-- Arranging twice changes nothing. -/
@[simp] theorem arrange_arrange (order : ByteOrder) (bytes : Bytes) :
    arrange order (arrange order bytes) = bytes := by
  -- Both reversals are made or neither.
  unfold arrange; split <;> simp

/-- A word has as many bytes as it is wide, in either order. -/
@[simp] theorem length_encodeWord (order : ByteOrder) (width n : Nat) :
    (encodeWord order width n).length = width := by
  simp [encodeWord]

/-- A word that fits its width is read as it was written. -/
theorem decodeWord_encodeWord (order : ByteOrder) {width n : Nat} (fits : n < 256 ^ width) :
    decodeWord order (encodeWord order width n) = n := by
  -- The order cancels out, and the width keeps the whole number.
  rw [decodeWord, encodeWord, arrange_arrange, Word.join_split]
  exact Nat.mod_eq_of_lt fits

/-- Bytes are written as they were read. -/
theorem encodeWord_decodeWord (order : ByteOrder) {width : Nat} {bytes : Bytes}
    (sized : bytes.length = width) : encodeWord order width (decodeWord order bytes) = bytes := by
  rw [encodeWord, decodeWord, ← sized, ← length_arrange order bytes, Word.split_join,
    arrange_arrange]

/-- Bytes stand for a word that fits their number. -/
theorem decodeWord_lt (order : ByteOrder) (bytes : Bytes) :
    decodeWord order bytes < 256 ^ bytes.length := by
  simpa [decodeWord] using Word.join_lt (arrange order bytes)

/-- The value that decoding yields for what a slot of fixed width holds: a character, a truth
value, the number in the slot's precision, or the same integer as the slot's kind of integer. -/
def canonicalSlot (kind : Primitive) (value : Value) : Value :=
  match kind with
  | .pad => value
  | .char => ((characterByte? value).map .char).getD value
  | .bool => (value.ordinal?.map fun n => .bool (n != 0)).getD value
  | .float => (value.toDouble?.map fun x => .float x.narrow.widen).getD value
  | .double => (value.toDouble?.map .float).getD value
  | kind =>
    (value.number?.map fun n => if kind.isSigned then .ofInt n else .ofNat n.toNat).getD value

/-- Whether a slot holds integers. -/
def isInteger : Primitive → Bool
  | .pad | .char | .bool | .float | .double => false
  | _ => true

section Integers

variable {order : ByteOrder} {kind : Primitive}

/-- An integer is written when it lies between the bounds of its slot. -/
theorem encodePrimitive_integer (integer : isInteger kind) (value : Value) :
    encodePrimitive order kind value =
      match value.number? with
      | some n =>
        if n < least kind ∨ greatest kind < n then .error (.outOfRange (toString n) kind.name)
        else .ok (encodeWord order kind.width (n % (Nat.pow 2 (8 * kind.width) : Nat)).toNat)
      | none => .error (mismatch "an integer" value) := by
  -- Kinds that are no integers are written in their own ways.
  cases kind <;> first | rfl | cases integer

/-- An integer is read from the word of its slot, the upper half being the negative numbers. -/
theorem decodePrimitive_integer (integer : isInteger kind) (bytes : Bytes) :
    decodePrimitive order kind bytes =
      if kind.isSigned then
        .ofInt (if decodeWord order bytes < Nat.pow 2 (8 * kind.width - 1) then
            decodeWord order bytes
          else decodeWord order bytes - (Nat.pow 2 (8 * kind.width) : Nat))
      else .ofNat (decodeWord order bytes) := by
  -- A kind of integer is known by its width and by whether it is signed.
  cases kind <;> first | rfl | cases integer

/-- The canonical integer is the same number in the slot's kind of integer. -/
theorem canonicalSlot_integer (integer : isInteger kind) (value : Value) :
    canonicalSlot kind value = (value.number?.map fun n =>
      if kind.isSigned then .ofInt n else .ofNat n.toNat).getD value := by
  cases kind <;> first | rfl | cases integer

/-- A word of so many bytes has eight times as many bits. -/
theorem two_pow_bits (width : Nat) : 2 ^ (8 * width) = 256 ^ width := by
  rw [Nat.pow_mul]

/-- The upper half of the words stands for the negative numbers. -/
theorem signed_word {bits : Nat} (positive : 0 < bits) {n : Int}
    (low : -(2 ^ (bits - 1) : Nat) ≤ n) (high : n < (2 ^ (bits - 1) : Nat)) :
    (if (n % (2 ^ bits : Nat)).toNat < 2 ^ (bits - 1) then ((n % (2 ^ bits : Nat)).toNat : Int)
      else (n % (2 ^ bits : Nat)).toNat - (2 ^ bits : Nat)) = n := by
  -- All powers are counted in the power that parts the halves.
  obtain ⟨rest, rfl⟩ := Nat.exists_eq_add_of_le' positive
  simp only [Nat.add_sub_cancel, Nat.pow_succ] at low high ⊢
  generalize 2 ^ rest = half at low high ⊢
  rcases lt_or_ge n 0 with negative | natural
  · -- A negative number becomes a word by adding the power, which reading takes away again.
    have word : n % ((half * 2 : Nat) : Int) = n + (half * 2 : Nat) := by
      rw [← Int.add_emod_right, Int.emod_eq_of_lt (by omega) (by omega)]
    rw [word]
    split <;> omega
  · -- A natural number in the lower half is its own word.
    have word : n % ((half * 2 : Nat) : Int) = n := Int.emod_eq_of_lt natural (by omega)
    rw [word]
    split <;> omega

/-- An integer within the bounds of its slot is read back as the slot's kind of integer. -/
theorem decodePrimitive_word (integer : isInteger kind) {n : Int} (low : least kind ≤ n)
    (high : n ≤ greatest kind) :
    decodePrimitive order kind
        (encodeWord order kind.width (n % (Nat.pow 2 (8 * kind.width) : Nat)).toNat)
      = if kind.isSigned then .ofInt n else .ofNat n.toNat := by
  have positive : 0 < 8 * kind.width := by have := kind.width_pos; omega
  -- A remainder fits the width, so the word is read as it was written.
  have small : (n % (2 ^ (8 * kind.width) : Nat)).toNat < 256 ^ kind.width := by
    have power : (0 : Int) < (2 ^ (8 * kind.width) : Nat) := by positivity
    have below := Int.emod_lt_of_pos n power
    have natural := Int.emod_nonneg n (by omega : ((2 ^ (8 * kind.width) : Nat) : Int) ≠ 0)
    rw [← two_pow_bits]
    omega
  rw [decodePrimitive_integer integer]
  simp only [Nat.pow_eq] at small ⊢
  rw [decodeWord_encodeWord order small]
  unfold least at low
  unfold greatest at high
  split
  · rename_i signed
    simp only [signed, if_true, Nat.pow_eq] at low high
    rw [signed_word positive low (by omega)]
  · rename_i unsigned
    simp only [unsigned, Nat.pow_eq] at low high
    rw [Int.emod_eq_of_lt (by simpa using low) (by simp at high ⊢; omega)]

end Integers

/-- What is written into a slot is as wide as the slot, and is read as its canonical value. -/
theorem decodePrimitive_encodePrimitive {order : ByteOrder} {kind : Primitive} {value : Value}
    {bytes : Bytes} (slot : kind ≠ .pad) (encoded : encodePrimitive order kind value = .ok bytes) :
    bytes.length = kind.width ∧ decodePrimitive order kind bytes = canonicalSlot kind value := by
  -- Integers are alike but for their bounds, and the others have rules of their own.
  by_cases integer : isInteger kind
  · rw [encodePrimitive_integer integer] at encoded
    rw [canonicalSlot_integer integer]
    split at encoded
    · rename_i n held
      split at encoded
      · cases encoded
      · rename_i inside
        cases encoded
        exact ⟨length_encodeWord .., by
          rw [decodePrimitive_word integer (by omega) (by omega), held]; rfl⟩
    · cases encoded
  · cases kind with
    | pad => exact absurd rfl slot
    | char =>
      -- The one byte is taken from whatever the value is.
      simp only [encodePrimitive] at encoded
      split at encoded
      · rename_i byte held
        cases encoded
        simp [Primitive.width, decodePrimitive, decodeWord, arrange, canonicalSlot, held, Word.join]
      · cases encoded
    | bool =>
      -- Zero is written for false and one for true, whatever number was given.
      simp only [encodePrimitive] at encoded
      split at encoded
      · rename_i n held
        cases encoded
        refine ⟨rfl, ?_⟩
        by_cases zero : n = 0 <;>
          simp [decodePrimitive, decodeWord, arrange, canonicalSlot, held, Word.join, zero]
      · cases encoded
    | float =>
      -- Bits of the narrowed number are read as that number, and widened.
      simp only [encodePrimitive] at encoded
      split at encoded
      · rename_i x held
        cases encoded
        have small : x.narrow.bits.toNat < 256 ^ 4 := x.narrow.bits.toNat_lt
        refine ⟨length_encodeWord .., ?_⟩
        simp [decodePrimitive, decodeWord_encodeWord order small, canonicalSlot, held,
          Value.ofSingle]
      · cases encoded
    | double =>
      simp only [encodePrimitive] at encoded
      split at encoded
      · rename_i x held
        cases encoded
        have small : x.bits.toNat < 256 ^ 8 := x.bits.toNat_lt
        refine ⟨length_encodeWord .., ?_⟩
        simp [decodePrimitive, decodeWord_encodeWord order small, canonicalSlot, held]
      · cases encoded
    | _ => exact absurd rfl integer

/-- A text that is written has no zero byte of its own, and one zero byte behind it. -/
theorem encodeText_ok {value : Value} {bytes : Bytes} (encoded : encodeText value = .ok bytes) :
    ∃ text, value = .str text ∧ 0 ∉ Text.utf8 text ∧ bytes = Text.utf8 text ++ [0] := by
  -- No character is NUL, and no other character has a zero byte.
  unfold encodeText at encoded
  split at encoded
  · rename_i text held
    split at encoded
    · cases encoded
    · rename_i clean
      cases encoded
      cases value <;> cases held
      exact ⟨text, rfl, by simpa [Text.zero_mem_utf8] using clean, rfl⟩
  · cases encoded

/-- The run of bytes that decoding yields for a raw slot. -/
def canonicalRaw (value : Value) : Value :=
  match rawBytes value with
  | .ok data => .bytes data
  | .error _ => value

/-- A run that is written is the canonical one, and has the declared length if there is one. -/
theorem encodeRaw_ok {length : Repeat} {value : Value} {bytes : Bytes}
    (encoded : encodeRaw length value = .ok bytes) :
    canonicalRaw value = .bytes bytes ∧
      ∀ count, length.count? = some count → bytes.length = count := by
  -- Without a declared length any run is written.
  unfold encodeRaw at encoded
  split at encoded
  · cases encoded
  · rename_i data held
    split at encoded
    · rename_i expected counted
      split at encoded
      · rename_i fits
        cases encoded
        refine ⟨by simp [canonicalRaw, held], fun count same => ?_⟩
        cases counted.symm.trans same
        exact fits
      · cases encoded
    · rename_i wild
      cases encoded
      exact ⟨by simp [canonicalRaw, held], fun count same => by cases wild.symm.trans same⟩

mutual

/-- The values that decoding yields for a field's share of the arguments. -/
def canonicalField : Field → List Value → List Value
  | .primitive .pad _, _ => []
  | .primitive kind _, args => args.map (canonicalSlot kind)
  | .text _, args => args
  | .raw _, args => args.map canonicalRaw
  | .group body times, args =>
    let tuple := fun value => Value.tuple (canonicalRow body (value.items?.getD []))
    if times = .once then args.map tuple
    else args.map fun value => .list ((value.items?.getD []).map tuple)

/-- The values that decoding yields for the arguments of fields in a row. -/
def canonicalRow : List Field → List Value → List Value
  | [], _ => []
  | field :: others, args =>
    let share := field.arity.claim args.length
    canonicalField field (args.take share) ++ canonicalRow others (args.drop share)

end

end Codec

/-- The values that decoding yields for what the arguments were encoded into. -/
def Format.canonical (format : Format) (args : List Value) : List Value :=
  Codec.canonicalRow format.fields args

end BoardRpc
