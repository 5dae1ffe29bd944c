import BoardRpc.Format.Error
import BoardRpc.Format.Basic
import BoardRpc.Text.Utf8
import BoardRpc.Value
import BoardRpc.Word

/-! Single slots of a payload: numbers, truth values, characters, strings and runs of bytes. -/

namespace BoardRpc.Codec

/-- Bytes in a byte order, given or taken with the least significant byte first. -/
def arrange (order : ByteOrder) (bytes : Bytes) : Bytes :=
  if order.isLittle then bytes else bytes.reverse

/-- The bytes of a word in a byte order. -/
def encodeWord (order : ByteOrder) (width n : Nat) : Bytes := arrange order (Word.split width n)

/-- The word that bytes in a byte order stand for. -/
def decodeWord (order : ByteOrder) (bytes : Bytes) : Nat := Word.join (arrange order bytes)

/-- The least number that an integer slot holds. -/
def least (kind : Primitive) : Int :=
  if kind.isSigned then -(Nat.pow 2 (8 * kind.width - 1) : Nat) else 0

/-- The greatest number that an integer slot holds. -/
def greatest (kind : Primitive) : Int :=
  (Nat.pow 2 (if kind.isSigned then 8 * kind.width - 1 else 8 * kind.width) : Nat) - 1

/-- The fault of a value that a slot does not take. -/
def mismatch (expected : String) (value : Value) : FieldFault :=
  .typeMismatch expected value.kind

/-- The byte of a character slot: a character, or a string or run of one byte. -/
def characterByte? : Value → Option UInt8
  | .char byte => some byte
  | .str text =>
    match Text.utf8 text with
    | [byte] => some byte
    | _ => none
  | .bytes [byte] => some byte
  | _ => none

/-- Writes a value into a slot of fixed width. -/
def encodePrimitive (order : ByteOrder) (kind : Primitive) (value : Value) :
    Except FieldFault Bytes :=
  match kind with
  | .pad => .ok [0]
  | .char =>
    match characterByte? value with
    | some byte => .ok [byte]
    | none => .error (mismatch "a single character" value)
  | .bool =>
    -- Any number but zero counts as true.
    match value.ordinal? with
    | some n => .ok [if n = 0 then 0 else 1]
    | none => .error (mismatch "a bool" value)
  | .float =>
    match value.toDouble? with
    | some x => .ok (encodeWord order 4 x.narrow.bits.toNat)
    | none => .error (mismatch "a number" value)
  | .double =>
    match value.toDouble? with
    | some x => .ok (encodeWord order 8 x.bits.toNat)
    | none => .error (mismatch "a number" value)
  | _ =>
    match value.number? with
    | some n =>
      if n < least kind ∨ greatest kind < n then .error (.outOfRange (toString n) kind.name)
      -- Negative numbers count down from the power of two that the width gives.
      else .ok (encodeWord order kind.width (n % (Nat.pow 2 (8 * kind.width) : Nat)).toNat)
    | none => .error (mismatch "an integer" value)

/-- Reads the value of a slot of fixed width from its bytes. -/
def decodePrimitive (order : ByteOrder) (kind : Primitive) (bytes : Bytes) : Value :=
  let word := decodeWord order bytes
  match kind with
  | .char => .char (UInt8.ofNat word)
  -- Any byte but zero is true, though only one of them is ever written.
  | .bool => .bool (word != 0)
  | .float => .ofSingle ⟨UInt32.ofNat word⟩
  | .double => .float ⟨UInt64.ofNat word⟩
  | _ =>
    if kind.isSigned then
      -- The upper half of the words stands for the negative numbers.
      .ofInt (if word < Nat.pow 2 (8 * kind.width - 1) then word
        else word - (Nat.pow 2 (8 * kind.width) : Nat))
    else .ofNat word

/-- Writes a string with the zero byte that ends it. -/
def encodeText (value : Value) : Except FieldFault Bytes :=
  match value.text? with
  | some text =>
    -- A zero byte inside would be taken for the end of the string.
    if text.toList.contains '\x00' then .error (.invalidString "embedded NUL character")
    else .ok (Text.utf8 text ++ [0])
  | none => .error (mismatch "a string" value)

/-- The bytes that integers in a row stand for, or the first value that is no byte. -/
def bytesOfItems : List Value → Except FieldFault Bytes
  | [] => .ok []
  -- A byte is an integer that eight bits hold.
  | item :: others =>
    match item.unsigned? 8 with
    | some n => (bytesOfItems others).map (UInt8.ofNat n :: ·)
    | none => .error (mismatch "a byte" item)

/-- The bytes that a value for a raw slot stands for. -/
def rawBytes (value : Value) : Except FieldFault Bytes :=
  match value with
  | .bytes data => .ok data
  | .tuple items | .list items => bytesOfItems items
  | _ => .error (mismatch "bytes" value)

/-- Writes a run of bytes of the declared length, or of any length for a wildcard. -/
def encodeRaw (length : Repeat) (value : Value) : Except FieldFault Bytes :=
  match rawBytes value with
  | .error fault => .error fault
  | .ok data =>
    match length.count? with
    | some expected =>
      if data.length = expected then .ok data
      else .error (.lengthMismatch expected data.length)
    -- A wildcard declares no length.
    | none => .ok data

end BoardRpc.Codec
