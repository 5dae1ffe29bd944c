import BoardRpc.Text.Quoted

/-! What can be wrong with a format's text, with arguments for it, or with a payload in it. -/

namespace BoardRpc

/-- What is wrong with one field of a format, its arguments or its bytes. -/
inductive FieldFault
  /-- Too few or too many arguments. -/
  | argumentCount (expected : String) (actual : Nat)
  /-- The payload ends before the field does. -/
  | payloadTruncated (needed available : Nat)
  /-- What remains for a wildcard is not a whole number of elements. -/
  | unalignedWildcard (remaining width : Nat)
  /-- An argument of the wrong kind. -/
  | typeMismatch (expected actual : String)
  /-- A number beyond the width or the sign of its slot. -/
  | outOfRange (value kind : String)
  /-- A run of bytes of the wrong length. -/
  | lengthMismatch (expected actual : Nat)
  /-- A repeated group with the wrong number of entries. -/
  | groupCount (expected actual : Nat)
  /-- A string that cannot be written with a zero byte at its end, or bytes that are no string. -/
  | invalidString (reason : String)
  /-- A position beyond the end of what is read; sound accounting never asks for one. -/
  | outOfBounds
  /-- A wildcard group whose entries take no bytes; no format that can be read has one. -/
  | noProgress
  deriving DecidableEq, Repr, Inhabited

/-- What is wrong with a format, its arguments or its payload. -/
inductive FormatFault
  /-- The text is no format, for a reason found at a byte position. -/
  | malformed (position : Nat) (reason : String)
  /-- Bytes remain behind the last field. -/
  | trailingBytes (unused : Nat)
  /-- Something is wrong within the field of this index, or behind the last one. -/
  | inField (index : Nat) (fault : FieldFault)
  deriving DecidableEq, Repr, Inhabited

/-- A fault together with the format's text. -/
structure FormatError where
  format : String
  fault : FormatFault
  deriving DecidableEq, Repr, Inhabited

/-- The message of a fault in a field, given the format's text between quotes. -/
def FieldFault.message (format : String) (index : Nat) : FieldFault → String
  | .argumentCount expected actual =>
    s!"format {format} expects {expected} argument(s), got {actual} (field {index})"
  | .payloadTruncated needed available =>
    s!"payload too short for format {format}: field {index} needs {needed} byte(s), "
      ++ s!"{available} available"
  | .unalignedWildcard remaining width =>
    s!"format {format}: {remaining} trailing byte(s) are not a multiple of the {width}-byte "
      ++ s!"element width (field {index})"
  | .typeMismatch expected actual =>
    s!"format {format}: field {index} expects {expected}, got {actual}"
  | .outOfRange value kind =>
    s!"format {format}: value {value} does not fit {kind} (field {index})"
  | .lengthMismatch expected actual =>
    s!"format {format}: field {index} expects {expected} byte(s), got {actual}"
  | .groupCount expected actual =>
    s!"format {format}: repeated group expects {expected} entries, got {actual} (field {index})"
  | .invalidString reason =>
    s!"format {format}: invalid string in field {index}: {reason}"
  | .outOfBounds =>
    s!"format {format}: position out of bounds (field {index})"
  | .noProgress =>
    s!"format {format}: entries of no size (field {index})"

/-- The message of an error. -/
def FormatError.message (error : FormatError) : String :=
  let format := Text.quoted error.format
  match error.fault with
  | .malformed position reason => s!"invalid format {format} at offset {position}: {reason}"
  | .trailingBytes unused => s!"format {format} left {unused} byte(s) of the payload undecoded"
  | .inField index fault => fault.message format index

end BoardRpc
