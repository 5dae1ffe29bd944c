import BoardRpc.Proofs.Codec.Canonical

/-! The layout of single slots: the values that each slot takes and the bytes that stand for them,
said apart from the encoder. -/

namespace BoardRpc

/-- The integers that a slot holds. -/
def Primitive.Holds : Primitive → Int → Prop
  | .int8, n => -128 ≤ n ∧ n ≤ 127
  | .uint8, n => 0 ≤ n ∧ n ≤ 255
  | .int16, n => -32768 ≤ n ∧ n ≤ 32767
  | .uint16, n => 0 ≤ n ∧ n ≤ 65535
  | .int32, n => -2147483648 ≤ n ∧ n ≤ 2147483647
  | .uint32, n => 0 ≤ n ∧ n ≤ 4294967295
  | .int64, n => -9223372036854775808 ≤ n ∧ n ≤ 9223372036854775807
  | .uint64, n => 0 ≤ n ∧ n ≤ 18446744073709551615
  | _, _ => False

/-- The values that a slot of fixed width takes. -/
def Primitive.Takes : Primitive → Value → Prop
  | .char, .char _ => True
  | .char, .str text => (Text.utf8 text).length = 1
  | .char, .bytes data => data.length = 1
  | .bool, .bool _ | .bool, .int _ | .bool, .uint _ | .bool, .char _ => True
  | .float, .float _ | .float, .int _ | .float, .uint _ => True
  | .double, .float _ | .double, .int _ | .double, .uint _ => True
  | kind, .int n => kind.Holds n.toInt
  | kind, .uint n => kind.Holds n.toNat
  | _, _ => False

/-- The bytes of a word in a byte order, eight bits each. -/
def wordBytes (order : ByteOrder) (width : Nat) (word : BitVec (8 * width)) : Bytes :=
  let lowFirst := (List.range width).map fun index =>
    UInt8.ofBitVec (word.extractLsb' (8 * index) 8)
  if order.isLittle then lowFirst else lowFirst.reverse

/-- The number in double precision that a value stands for in a slot of either precision. -/
def Value.asDouble : Value → Double
  | .float x => x
  | .int n => Double.ofInt n.toInt
  | .uint n => Double.ofInt n.toNat
  | _ => default

/-- The bytes of a value in a slot of fixed width; there are none for a value that it does not
take. -/
def Primitive.slot (order : ByteOrder) : Primitive → Value → Bytes
  | .char, .char byte => [byte]
  | .char, .str text => Text.utf8 text
  | .char, .bytes data => data
  | .bool, .bool truth => [if truth then 1 else 0]
  | .bool, .int n => [if n = 0 then 0 else 1]
  | .bool, .uint n => [if n = 0 then 0 else 1]
  | .bool, .char byte => [if byte = 0 then 0 else 1]
  | .float, value => wordBytes order 4 value.asDouble.narrow.bits.toBitVec
  | .double, value => wordBytes order 8 value.asDouble.bits.toBitVec
  | kind, .int n => wordBytes order kind.width (BitVec.ofInt _ n.toInt)
  | kind, .uint n => wordBytes order kind.width (BitVec.ofInt _ n.toNat)
  | _, _ => []

/-- The values that a slot of a string takes: a string without a zero inside. -/
def IsText : Value → Prop
  | .str text => '\x00' ∉ text.toList
  | _ => False

/-- The bytes of a string, with the zero byte that ends it. -/
def textSlot : Value → Bytes
  | .str text => Text.utf8 text ++ [0]
  | _ => []

/-- The values that stand for one byte. -/
def IsByte : Value → Prop
  | .int n => 0 ≤ n.toInt ∧ n.toInt ≤ 255
  | .uint n => n.toNat ≤ 255
  | _ => False

/-- The byte that a value stands for. -/
def byteOf : Value → UInt8
  | .int n => UInt8.ofNat n.toInt.toNat
  | .uint n => UInt8.ofNat n.toNat
  | _ => 0

/-- The values that a slot of raw bytes takes: bytes as they are, or one by one. -/
def IsRun : Value → Prop
  | .bytes _ => True
  | .tuple items | .list items => ∀ item ∈ items, IsByte item
  | _ => False

/-- The bytes of a run. -/
def runOf : Value → Bytes
  | .bytes data => data
  | .tuple items | .list items => items.map byteOf
  | _ => []

/-- How many of the arguments at hand belong to a repeat. -/
def Repeat.share : Repeat → Nat → Nat
  | .once, _ => 1
  | .count n, _ => n
  | .wildcard, available => available

namespace Codec

variable {order : ByteOrder} {kind : Primitive} {value : Value} {bytes : Bytes}

/-- The bytes of a number are its digits to the base 256. -/
theorem split_eq_map (width n : Nat) : Word.split width n =
    (List.range width).map fun index => UInt8.ofNat (n / 256 ^ index) := by
  -- By induction on the bytes, the lowest first.
  induction width generalizing n with
  | zero => rfl
  | succ width ih =>
    -- The first byte is the lowest, and the others are those of the quotient.
    rw [Word.split, ih, List.range_succ_eq_map, List.map_cons, List.map_map]
    congr 1
    · apply UInt8.toNat_inj.mp
      simp
    · refine List.map_congr_left fun index _ => ?_
      rw [Function.comp_apply, Nat.div_div_eq_div_mul, Nat.pow_succ, Nat.mul_comm]

/-- A word is written as eight bits after the other. -/
theorem encodeWord_eq (width n : Nat) :
    encodeWord order width n = wordBytes order width (BitVec.ofNat (8 * width) n) := by
  -- Each byte is compared with its eight bits of the word.
  have bytes : Word.split width n = (List.range width).map fun index =>
      UInt8.ofBitVec ((BitVec.ofNat (8 * width) n).extractLsb' (8 * index) 8) := by
    rw [split_eq_map]
    refine List.map_congr_left fun index inside => ?_
    have below : index < width := List.mem_range.mp inside
    -- Eight bits from a place on are those of the quotient by the power at that place.
    have power : 256 ^ index = 2 ^ (8 * index) := (two_pow_bits index).symm
    rw [power, ← Nat.shiftRight_eq_div_pow]
    apply UInt8.toBitVec_inj.mp
    change BitVec.ofNat 8 (n >>> (8 * index))
      = (BitVec.ofNat (8 * width) n).extractLsb' (8 * index) 8
    ext bit small
    have within : 8 * index + bit < 8 * width := by omega
    rw [BitVec.getElem_extractLsb', BitVec.getLsbD_ofNat, ← BitVec.getLsbD_eq_getElem,
      BitVec.getLsbD_ofNat, Nat.testBit_shiftRight]
    simp [within, small]
  rw [encodeWord, arrange, bytes, wordBytes]

/-- An integer is written as its two's complement. -/
theorem encodeWord_ofInt (width : Nat) (n : Int) :
    encodeWord order width (n % (Nat.pow 2 (8 * width) : Nat)).toNat
      = wordBytes order width (BitVec.ofInt (8 * width) n) := by
  -- Both sides are words, so that they are compared as numbers.
  rw [encodeWord_eq]
  congr 1
  apply BitVec.eq_of_toNat_eq
  -- The remainder is a word already.
  have positive : (0 : Int) < (2 ^ (8 * width) : Nat) := by positivity
  have below := Int.emod_lt_of_pos n positive
  have natural := Int.emod_nonneg n positive.ne'
  rw [BitVec.toNat_ofNat, BitVec.toNat_ofInt, Nat.pow_eq]
  exact Nat.mod_eq_of_lt (by omega)

/-- The bounds of a slot of integers are those of its two's complement. -/
theorem holds_iff (integer : isInteger kind) {n : Int} :
    kind.Holds n ↔ ¬ (n < least kind ∨ greatest kind < n) := by
  -- Slots that hold no integers are excluded, and for the others the bounds are numbers.
  cases kind <;> first
    | cases integer; done
    | simp [Primitive.Holds, least, greatest, Primitive.isSigned, Primitive.width]
      try omega

/-- A slot of integers takes the integers that it holds. -/
theorem takes_integer (integer : isInteger kind) :
    kind.Takes value ↔ ∃ n, value.number? = some n ∧ kind.Holds n := by
  -- A slot of integers takes what has a number, if it is within the bounds.
  cases kind <;> first
    | cases integer; done
    | cases value <;> simp [Primitive.Takes, Value.number?]

/-- An integer is laid out as the word that it is in two's complement. -/
theorem slot_integer (integer : isInteger kind) {n : Int} (number : value.number? = some n) :
    kind.slot order value = wordBytes order kind.width (BitVec.ofInt _ n) := by
  -- A value with a number is an integer of one of the two kinds.
  cases value <;> cases number <;> cases kind <;> first
    | cases integer; done
    | rfl

/-- A slot of integers is written exactly for the values that it takes. -/
theorem encodeInteger_eq_ok (integer : isInteger kind) :
    encodePrimitive order kind value = .ok bytes ↔
      kind.Takes value ∧ bytes = kind.slot order value := by
  -- Values that are no numbers are refused, and numbers outside of the bounds.
  rw [encodePrimitive_integer integer, takes_integer integer]
  cases number : value.number? with
  | none => simp
  | some n =>
    rw [slot_integer integer number]
    simp only [Option.some.injEq, exists_eq_left', holds_iff integer, encodeWord_ofInt]
    split
    · simp_all
    · rename_i inside
      simp [inside, eq_comm]

/-- A character is written from a character, or from a string or a run of one byte. -/
theorem encodeChar_eq_ok : encodePrimitive order .char value = .ok bytes ↔
    Primitive.char.Takes value ∧ bytes = Primitive.char.slot order value := by
  -- A string or a run is taken if it is one byte long, and each length is looked at.
  cases value with
  | char byte => simp [encodePrimitive, characterByte?, Primitive.Takes, Primitive.slot, eq_comm]
  | str text =>
    simp only [encodePrimitive, characterByte?, Primitive.Takes, Primitive.slot]
    rcases Text.utf8 text with _ | ⟨byte, _ | ⟨other, rest⟩⟩ <;> simp [eq_comm]
  | bytes data =>
    simp only [encodePrimitive, Primitive.Takes, Primitive.slot]
    rcases data with _ | ⟨byte, _ | ⟨other, rest⟩⟩ <;> simp [characterByte?, eq_comm]
  | _ => simp [encodePrimitive, characterByte?, Primitive.Takes, Primitive.Holds]

/-- A truth value is written from any number, and only zero is false. -/
theorem encodeBool_eq_ok : encodePrimitive order .bool value = .ok bytes ↔
    Primitive.bool.Takes value ∧ bytes = Primitive.bool.slot order value := by
  -- A number is zero exactly if its word is, so both sides test the same.
  cases value with
  | bool truth =>
    cases truth <;> simp [encodePrimitive, Value.ordinal?, Primitive.Takes, Primitive.slot, eq_comm]
  | int n =>
    have zero : n.toInt = 0 ↔ n = 0 := by
      rw [← Int64.toInt_inj, Int64.toInt_zero]
    simp [encodePrimitive, Value.ordinal?, Value.number?, Primitive.Takes, Primitive.slot, zero,
      eq_comm]
  | uint n =>
    have zero : n.toNat = 0 ↔ n = 0 := by
      rw [← UInt64.toNat_inj, UInt64.toNat_zero]
    simp [encodePrimitive, Value.ordinal?, Value.number?, Primitive.Takes, Primitive.slot, zero,
      eq_comm]
  | char byte =>
    have zero : byte.toNat = 0 ↔ byte = 0 := by
      rw [← UInt8.toNat_inj, UInt8.toNat_zero]
    simp [encodePrimitive, Value.ordinal?, Primitive.Takes, Primitive.slot, zero, eq_comm]
  | _ => simp [encodePrimitive, Value.ordinal?, Value.number?, Primitive.Takes]

/-- A slot of fixed width that is no padding is written exactly for the values that it takes. -/
theorem encodePrimitive_eq_ok (slot : kind ≠ .pad) : encodePrimitive order kind value = .ok bytes ↔
    kind.Takes value ∧ bytes = kind.slot order value := by
  -- Integers are alike, and the four other kinds have layouts of their own.
  by_cases integer : isInteger kind
  · exact encodeInteger_eq_ok integer
  · cases kind with
    | pad => exact absurd rfl slot
    | char => exact encodeChar_eq_ok
    | bool => exact encodeBool_eq_ok
    -- A real slot takes every number, as it is rounded to the slot.
    | float =>
      cases value <;>
        simp [encodePrimitive, Value.toDouble?, Value.number?, Primitive.Takes, Primitive.slot,
          Value.asDouble, encodeWord_eq, eq_comm]
    | double =>
      cases value <;>
        simp [encodePrimitive, Value.toDouble?, Value.number?, Primitive.Takes, Primitive.slot,
          Value.asDouble, encodeWord_eq, eq_comm]
    | _ => exact absurd rfl integer

/-- Strings are written exactly without a zero inside. -/
theorem encodeText_eq_ok :
    encodeText value = .ok bytes ↔ IsText value ∧ bytes = textSlot value := by
  -- Only strings are taken, and the test is for the zero.
  unfold encodeText
  cases value with
  | str text =>
    simp only [Value.text?, IsText, textSlot]
    split <;> simp_all [eq_comm]
  | _ => simp [Value.text?, IsText]

/-- A value stands for a byte when its number is below 256. -/
theorem unsigned?_byte : match value.unsigned? 8 with
    | some n => IsByte value ∧ byteOf value = UInt8.ofNat n
    | none => ¬ IsByte value := by
  have limit : Nat.pow 2 8 = 256 := rfl
  cases value with
  | int n =>
    simp only [Value.unsigned?, Value.number?, IsByte, byteOf, limit]
    cases held : n.toInt with
    | ofNat m =>
      -- A number that is not negative is a byte if it is below 256.
      by_cases small : m < 256
      · simp [small]
        omega
      · simp [small]
        omega
    | negSucc m =>
      -- A negative number is no byte.
      simp
  -- A number without a sign is tested in the same way.
  | uint n =>
    simp only [Value.unsigned?, Value.number?, IsByte, byteOf, limit]
    change match (if n.toNat < 256 then some n.toNat else none) with
      | some m => n.toNat ≤ 255 ∧ UInt8.ofNat n.toNat = UInt8.ofNat m
      | none => ¬ n.toNat ≤ 255
    by_cases small : n.toNat < 256
    · rw [if_pos small]
      exact ⟨Nat.le_of_lt_succ small, rfl⟩
    · rw [if_neg small]
      exact fun byte => small (Nat.lt_succ_of_le byte)
  | _ => simp [Value.unsigned?, Value.number?, IsByte]

/-- Bytes one by one are written exactly if each value stands for one. -/
theorem bytesOfItems_eq_ok {items : List Value} :
    bytesOfItems items = .ok bytes ↔ (∀ item ∈ items, IsByte item) ∧ bytes = items.map byteOf := by
  -- The first value that is no byte is an error of the whole.
  induction items generalizing bytes with
  | nil => simp [bytesOfItems, eq_comm]
  | cons item others ih =>
    have first := @unsigned?_byte item
    unfold bytesOfItems
    cases byte : item.unsigned? 8 with
    | none =>
      rw [byte] at first
      simp [first]
    | some n =>
      rw [byte] at first
      obtain ⟨isByte, same⟩ := first
      -- The others are collected behind the first.
      cases rest : bytesOfItems others with
      | error fault =>
        have failing : ¬ ∀ item ∈ others, IsByte item := fun each => by
          cases rest.symm.trans (ih.mpr ⟨each, rfl⟩)
        simp [Except.map, isByte, failing]
      | ok more =>
        obtain ⟨each, rfl⟩ := ih.mp rest
        rw [and_iff_right (List.forall_mem_cons.mpr ⟨isByte, each⟩)]
        simp [Except.map, same, eq_comm]

/-- A run of bytes is written from bytes, or from a sequence of values that stand for bytes. -/
theorem rawBytes_eq_ok : rawBytes value = .ok bytes ↔ IsRun value ∧ bytes = runOf value := by
  -- Bytes in a run are taken as they are, and others are collected one by one.
  cases value with
  | tuple items => exact bytesOfItems_eq_ok
  | list items => exact bytesOfItems_eq_ok
  | _ => simp [rawBytes, IsRun, runOf, eq_comm]

/-- Runs are written exactly at the declared length, or at any for a wildcard. -/
theorem encodeRaw_eq_ok {length : Repeat} : encodeRaw length value = .ok bytes ↔
    IsRun value ∧ (runOf value).length = length.share (runOf value).length ∧
      bytes = runOf value := by
  -- The bytes are collected first and counted then.
  unfold encodeRaw
  cases raw : rawBytes value with
  | error fault =>
    have failing : ¬ IsRun value := fun run => by
      cases raw.symm.trans (rawBytes_eq_ok.mpr ⟨run, rfl⟩)
    simp [failing]
  | ok data =>
    obtain ⟨run, rfl⟩ := rawBytes_eq_ok.mp raw
    cases length with
    -- A count is compared with the bytes that were collected.
    | once | count =>
      simp only [Repeat.count?, Repeat.share, run, true_and, ite_error_eq_ok]
      simp [eq_comm]
    -- Without a count there is nothing to compare.
    | wildcard => simp [Repeat.count?, Repeat.share, run, eq_comm]

end Codec

end BoardRpc
