/-! Whole numbers in text: decimal and hexadecimal digits, read and written. -/

namespace BoardRpc.Text

/-- The value of a digit in bases up to sixteen, in either case. -/
def digitValue? (c : Char) : Option Nat :=
  if '0' ≤ c ∧ c ≤ '9' then some (c.toNat - '0'.toNat)
  else if 'a' ≤ c ∧ c ≤ 'f' then some (c.toNat - 'a'.toNat + 10)
  else if 'A' ≤ c ∧ c ≤ 'F' then some (c.toNat - 'A'.toNat + 10)
  else none

/-- The value of digits in a base, continuing a value already read; none at the first stranger. -/
def digitsValue? (base : Nat) : List Char → Nat → Option Nat
  | [], value => some value
  | c :: rest, value =>
    match digitValue? c with
    | some digit => if digit < base then digitsValue? base rest (value * base + digit) else none
    | none => none

/-- The number that a text of one or more digits stands for, if it is at most a limit.
One plus sign may come first. -/
def readNumeral? (base limit : Nat) (text : List Char) : Option Nat :=
  let digits := match text with
    | '+' :: rest => rest
    | _ => text
  if digits.isEmpty then none
  else match digitsValue? base digits 0 with
    | some value => if value ≤ limit then some value else none
    | none => none

/-- Lower-case hexadecimal digits without leading zeros. -/
def hexDigits (n : Nat) : List Char := Nat.toDigits 16 n

/-- Pads with zeros on the left up to a width. -/
def padZeros (width : Nat) (digits : List Char) : List Char :=
  List.replicate (width - digits.length) '0' ++ digits

/-- A number in hexadecimal behind its marker, such as 0x1f. -/
def hexLiteral (n : Nat) : String := String.ofList ('0' :: 'x' :: hexDigits n)

/-- A number in hexadecimal, padded with zeros to a width. -/
def hexPadded (width n : Nat) : String := String.ofList (padZeros width (hexDigits n))

/-- Bytes as two hexadecimal digits each. -/
def hexBytes (bytes : List UInt8) : String :=
  String.ofList (bytes.flatMap fun byte => padZeros 2 (hexDigits byte.toNat))

end BoardRpc.Text
