import BoardRpc.Json.Basic
import BoardRpc.Size
import BoardRpc.Text.Numeral

/-! Numbers in JSON texts. Integers that fit 64 bits are exact; all others are scaled in double
precision from as many leading digits as fit a word. -/

namespace BoardRpc.Json

/-- The largest power of ten that is scaled by at once. -/
def maxScale : Nat := 308

/-- The power of ten in double precision. -/
def powerOfTen (exponent : Nat) : Double := .ofRatio false (Nat.pow 10 exponent) 1

/-- Divides by a power of ten, in steps that are each rounded. -/
def scaleDown (x : Double) (exponent : Nat) : Double :=
  if exponent ≤ maxScale then x.div (powerOfTen exponent)
  else if x.isZero then x
  else scaleDown (x.div (powerOfTen maxScale)) (exponent - maxScale)
termination_by exponent
decreasing_by simp only [maxScale] at *; omega

/-- Multiplies by a power of ten, unless the result is too large. -/
def scaleUp? (x : Double) (exponent : Nat) : Option Double :=
  if exponent ≤ maxScale then
    -- A product that is too large is refused and not rounded.
    let product := x.mul (powerOfTen exponent)
    if product.isInfinite then none else some product
  else if x.isZero then some x
  else none

/-- The number with a significand and a power of ten. -/
def scaled? (negative : Bool) (significand : Nat) (exponent : Int) : Option Double :=
  let x := Double.ofInt significand
  let result := match exponent with
    | .ofNat up => scaleUp? x up
    | .negSucc below => some (scaleDown x (below + 1))
  result.map fun x => if negative then x.neg else x

/-- Adds digits to a significand for as long as it fits a word; tells the digits added and the
text behind them. -/
def addDigits (significand added : Nat) : List Char → Nat × Nat × List Char
  | [] => (significand, added, [])
  | c :: rest =>
    if c.isDigit then
      let next := significand * 10 + (c.toNat - '0'.toNat)
      -- Digits that no longer fit are skipped, but still count as places.
      if next ≤ maxSize then addDigits next (added + 1) rest
      else (significand, added, c :: rest)
    else (significand, added, c :: rest)

/-- The largest exponent that is told from larger ones. -/
def maxExponent : Nat := 0x7fffffff

/-- An exponent with its sign, and the text behind it. -/
def readExponent? (text : List Char) : Option (Int × List Char) :=
  let (negative, digits) := match text with
    | '-' :: rest => (true, rest)
    | '+' :: rest => (false, rest)
    | _ => (false, text)
  -- There must be a digit behind the sign.
  match digits.head? with
  | some c =>
    if c.isDigit then
      let value := (Text.digitsValue? 10 (digits.takeWhile Char.isDigit) 0).getD 0
      some (if negative then -value else value, digits.dropWhile Char.isDigit)
    else none
  | none => none

/-- The number with a significand, a power of ten, and perhaps an exponent in the text. -/
def readScaled? (negative : Bool) (significand : Nat) (exponent : Int) (text : List Char) :
    Option (Double × List Char) :=
  match text with
  | c :: rest =>
    if c = 'e' ∨ c = 'E' then
      match readExponent? rest with
      | some (written, after) =>
        -- Beyond the largest exponent only the sign of it and a significand of zero matter.
        let result :=
          if maxExponent < written.natAbs then
            if significand ≠ 0 ∧ 0 < written then none else some (Double.ofParts negative 0)
          else scaled? negative significand (exponent + written)
        result.map (·, after)
      | none => none
    else (scaled? negative significand exponent).map (·, text)
  | [] => (scaled? negative significand exponent).map (·, text)

/-- A number whose digits before the point have been read; `skipped` of them did not fit. -/
def readFraction? (negative : Bool) (significand skipped : Nat) (text : List Char) :
    Option (Double × List Char) :=
  match text with
  | '.' :: rest =>
    let (longer, added, after) := addDigits significand 0 rest
    -- There must be a digit behind the point.
    if (rest.head?.any Char.isDigit) = false then none
    else readScaled? negative longer ((skipped : Int) - added) (after.dropWhile Char.isDigit)
  | _ => readScaled? negative significand skipped text

/-- Whether a text goes on with a fraction or an exponent. -/
def continuesNumber (text : List Char) : Bool :=
  text.head?.any fun c => c == '.' || c == 'e' || c == 'E'

/-- An integer that fits a word with its sign, or the nearest number of double precision; minus
zero is no integer. -/
def integer (negative : Bool) (n : Nat) : Json :=
  if !negative then .int n
  else if 0 < n ∧ n ≤ 0x8000000000000000 then .int (-n)
  else .float (Double.ofInt n).neg

/-- Reads a number whose sign has been read. -/
def readUnsigned? (negative : Bool) (text : List Char) : Option (Json × List Char) :=
  match text with
  | [] => none
  | first :: others =>
    if !first.isDigit then none
    -- A zero may not be followed by another digit.
    else if first = '0' ∧ others.head?.any Char.isDigit then none
    else
      let (significand, _, rest) := addDigits 0 0 text
      let skipped := (rest.takeWhile Char.isDigit).length
      let tail := rest.dropWhile Char.isDigit
      if skipped = 0 ∧ !continuesNumber tail then some (integer negative significand, tail)
      else (readFraction? negative significand skipped tail).map fun (x, after) => (.float x, after)

/-- Reads a number. -/
def readNumber? (text : List Char) : Option (Json × List Char) :=
  match text with
  | '-' :: rest => readUnsigned? true rest
  | _ => readUnsigned? false text

end BoardRpc.Json
