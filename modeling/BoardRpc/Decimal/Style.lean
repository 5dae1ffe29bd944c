import BoardRpc.Decimal.Shortest

/-! Ways of writing binary numbers in decimal. -/

namespace BoardRpc.Decimal

/-- How numbers are written. -/
structure Style where
  /-- The exponents of the leading digit, from one up to and without another, for which no
  exponent is written; none where an exponent is never written. -/
  positional : Option (Int × Int)
  /-- What follows a number that has no fraction. -/
  wholeMark : String
  /-- Which of two equally near decimals is written. -/
  tie : Tie

/-- Digits with a point among them, before them or behind them. -/
def Style.writePositional (style : Style) (digits : List Char) (exponent : Int) : String :=
  match exponent with
  | .ofNat zeros => String.ofList (digits ++ List.replicate zeros '0') ++ style.wholeMark
  | .negSucc below =>
    let places := below + 1
    let padded := List.replicate (places + 1 - digits.length) '0' ++ digits
    let split := padded.length - places
    String.ofList (padded.take split ++ '.' :: padded.drop split)

/-- One digit, the others behind a point, and the exponent with its sign. -/
def writeScientific (digits : List Char) (exponent : Int) : String :=
  let fraction := if digits.length ≤ 1 then [] else '.' :: digits.drop 1
  let sign := if exponent < 0 then "-" else "+"
  String.ofList (digits.take 1 ++ fraction) ++ "e" ++ sign ++ toString exponent.natAbs

/-- A finite number in a style. -/
def Style.writeFinite (style : Style) (x : Double) : String :=
  let decimal := shortest style.tie x.magnitude
  let digits := Nat.toDigits 10 decimal.digits
  let leading := decimal.exponent + digits.length - 1
  let isPositional := match style.positional with
    | some (first, last) => decide (decimal.digits = 0 ∨ (first ≤ leading ∧ leading < last))
    | none => true
  (if x.isNegative then "-" else "")
    ++ (if isPositional then style.writePositional digits decimal.exponent
      else writeScientific digits leading)

/-- Numbers in data: an exponent for the very large and small, and always a mark of a fraction. -/
def dataStyle : Style := ⟨some (-5, 16), ".0", .even⟩

/-- Numbers for people: never an exponent, and no fraction where there is none. -/
def plainStyle : Style := ⟨none, "", .up⟩

/-- Any number for people, the infinite ones and what is no number included. -/
def display (x : Double) : String :=
  if x.isNaN then "NaN"
  else if x.isInfinite then (if x.isNegative then "-inf" else "inf")
  else plainStyle.writeFinite x

end BoardRpc.Decimal
