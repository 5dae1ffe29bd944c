import BoardRpc.Size
import BoardRpc.Text.Blank
import BoardRpc.Text.Numeral

/-! Operands: durations, numbers and USB ids as they are written on the command line. -/

namespace BoardRpc.Cli

/-- Why a text is no such operand; a text that is quoted has no blanks around it. -/
inductive OperandFault
  | emptyDuration
  | malformedDuration (text : String)
  | zeroDuration
  | malformedNumber (text : String)
  | malformedUsbId (text : String)
  | malformedSize (text : String)
  deriving DecidableEq, Repr, Inhabited

/-- The fault as messages name it. -/
def OperandFault.message : OperandFault → String
  | .emptyDuration => "duration must not be empty"
  | .malformedDuration text => "invalid duration value: " ++ text
  | .zeroDuration => "duration must be greater than zero"
  | .malformedNumber text => "invalid number: " ++ text
  | .malformedUsbId text => "invalid USB id: " ++ text
  | .malformedSize text => "invalid size: " ++ text

/-- The text in front of an ending, if the text ends so. -/
def dropEnding? (ending text : List Char) : Option (List Char) :=
  if ending.isSuffixOf text then some (text.take (text.length - ending.length)) else none

/-- The digits behind the mark of hexadecimal numbers, if a text begins with it. -/
def hexDigits? : List Char → Option (List Char)
  | '0' :: 'x' :: digits | '0' :: 'X' :: digits => some digits
  | _ => none

/-- A duration without its unit, and the milliseconds of that unit; seconds are meant where there
is none. -/
def splitUnit (text : List Char) : List Char × Nat :=
  match dropEnding? ['m', 's'] text with
  | some number => (number, 1)
  | none => ((dropEnding? ['s'] text).getD text, 1000)

/-- Reads a duration, such as 5s or 500ms, in milliseconds. -/
def readDuration (input : String) : Except OperandFault Nat :=
  let text := Text.trim input.toList
  if text.isEmpty then .error .emptyDuration
  else
    let (number, unit) := splitUnit text
    match Text.readNumeral? 10 (0xffffffffffffffff) number with
    | none => .error (.malformedDuration (String.ofList text))
    | some 0 => .error .zeroDuration
    | some count => .ok (count * unit)

/-- Reads the number of a class or a verb: decimal, or hexadecimal behind its mark. -/
def readNumber (input : String) : Except OperandFault UInt32 :=
  let text := Text.trim input.toList
  let number := match hexDigits? text with
    | some digits => Text.readNumeral? 16 (0xffffffff) digits
    | none => Text.readNumeral? 10 (0xffffffff) text
  match number with
  | some n => .ok (UInt32.ofNat n)
  | none => .error (.malformedNumber (String.ofList text))

/-- Reads the id of a vendor or a product, which is hexadecimal with or without its mark. -/
def readUsbId (input : String) : Except OperandFault UInt16 :=
  let text := Text.trim input.toList
  match Text.readNumeral? 16 (0xffff) ((hexDigits? text).getD text) with
  | some n => .ok (UInt16.ofNat n)
  | none => .error (.malformedUsbId (String.ofList text))

/-- Reads a number of bytes, around which there are no blanks. -/
def readSize (input : String) : Except OperandFault Nat :=
  match Text.readNumeral? 10 maxSize input.toList with
  | some n => .ok n
  | none => .error (.malformedSize input)

end BoardRpc.Cli
