import BoardRpc.Binary.Double

/-! The fewest decimal digits that read back as the same binary number. -/

namespace BoardRpc.Decimal

/-- Digits times a power of ten. -/
structure Scaled where
  digits : Nat
  exponent : Int
  deriving DecidableEq, Repr, Inhabited

/-- Which of two equally near neighbours is taken. -/
inductive Tie
  | even
  | up
  deriving DecidableEq, Repr, Inhabited

/-- The number of decimal digits of a number, one for zero. -/
def digitCount (n : Nat) : Nat := (Nat.toDigits 10 n).length

/-- The exponent of the leading decimal digit of a positive quotient. -/
def leadingExponent (num den : Nat) : Int :=
  if den ≤ num then digitCount (num / den) - 1
  else -(digitCount ((den - 1) / num))

/-- The numbers that read back as one binary number: a value between two bounds, all over one
denominator. The bounds themselves read back too where the number's last bit is zero. -/
structure Interval where
  low : Nat
  value : Nat
  high : Nat
  den : Nat
  closed : Bool

namespace Interval

/-- The interval around a positive finite number, given without its sign. -/
def ofMagnitude (magnitude : Nat) : Interval :=
  let units := Binary.Layout.double.units
  -- The bounds lie half-way to the two neighbours, hence twice the units.
  { low := units (magnitude - 1) + units magnitude
    value := 2 * units magnitude
    high := units magnitude + units (magnitude + 1)
    den := 2 * Binary.Layout.double.unit
    closed := magnitude % 2 == 0 }

/-- The same interval in units of a power of ten. -/
def scale (interval : Interval) (exponent : Int) : Interval :=
  -- A power of ten goes to the denominator, or to the three numbers.
  match exponent with
  | .ofNat up => { interval with den := interval.den * Nat.pow 10 up }
  | .negSucc below =>
    let factor := Nat.pow 10 (below + 1)
    { interval with
      low := interval.low * factor
      value := interval.value * factor
      high := interval.high * factor }

/-- Whether a whole number lies in the interval. -/
def contains (interval : Interval) (n : Nat) : Bool :=
  let point := n * interval.den
  if interval.closed then interval.low ≤ point && point ≤ interval.high
  else interval.low < point && point < interval.high

/-- The nearer of the value's two whole neighbours that lie in the interval, if one does. -/
def whole? (interval : Interval) (tie : Tie) : Option Nat :=
  let below := interval.value / interval.den
  let above := below + 1
  match interval.contains below, interval.contains above with
  | false, false => none
  | true, false => some below
  | false, true => some above
  | true, true =>
    -- Both are in the interval, so the nearer one is taken.
    let twice := 2 * (interval.value % interval.den)
    if twice < interval.den then some below
    else if interval.den < twice then some above
    else if tie = .even ∧ below % 2 = 0 then some below
    else some above

end Interval

/-- Tries ever more digits, starting from a power of ten for the last of them. -/
def search (interval : Interval) (tie : Tie) : Nat → Int → Scaled
  | 0, exponent => ⟨(interval.scale exponent).value / (interval.scale exponent).den, exponent⟩
  | more + 1, exponent =>
    -- With as many digits as can be needed the value itself is taken.
    match (interval.scale exponent).whole? tie with
    | some digits => ⟨digits, exponent⟩
    | none => search interval tie more (exponent - 1)

/-- Moves zeros at the end of the digits into the exponent. -/
def normalize (decimal : Scaled) : Scaled :=
  if decimal.digits = 0 then decimal
  else if decimal.digits % 10 = 0 then normalize ⟨decimal.digits / 10, decimal.exponent + 1⟩
  else decimal
termination_by decimal.digits

/-- Digits that always suffice. -/
def maxDigits : Nat := 17

/-- The shortest decimal that reads back as a finite number, given without its sign. -/
def shortest (tie : Tie) (magnitude : Nat) : Scaled :=
  if magnitude = 0 then ⟨0, 0⟩
  else
    let interval := Interval.ofMagnitude magnitude
    normalize (search interval tie maxDigits (leadingExponent interval.value interval.den))

end BoardRpc.Decimal
