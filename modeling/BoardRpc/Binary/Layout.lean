/-! Binary floating-point numbers as bit patterns: exact values, and rounding to nearest. -/

namespace BoardRpc.Binary

/-- The quotient rounded to the nearest whole number, halves to the even neighbour. -/
def roundQuotient (num den : Nat) : Nat :=
  let quotient := num / den
  let twice := 2 * (num % den)
  if twice < den then quotient
  else if den < twice then quotient + 1
  else quotient + quotient % 2

/-- How many bits a pattern has for its exponent and its fraction, beside its sign. -/
structure Layout where
  exponentBits : Nat
  fractionBits : Nat

namespace Layout

/-- Patterns of 32 bits. -/
def single : Layout := ⟨8, 23⟩

/-- Patterns of 64 bits. -/
def double : Layout := ⟨11, 52⟩

/-- The pattern of infinity, without its sign; greater patterns are not numbers. -/
def infinity (layout : Layout) : Nat :=
  (Nat.pow 2 layout.exponentBits - 1) * Nat.pow 2 layout.fractionBits

/-- The bit that tells the quiet patterns among those that are not numbers. -/
def quiet (layout : Layout) : Nat := Nat.pow 2 (layout.fractionBits - 1)

/-- The weight of the sign. -/
def sign (layout : Layout) : Nat := Nat.pow 2 (layout.exponentBits + layout.fractionBits)

/-- The number of times that the smallest positive value goes into one. -/
def unit (layout : Layout) : Nat :=
  Nat.pow 2 (Nat.pow 2 (layout.exponentBits - 1) - 2 + layout.fractionBits)

/-- How many of the smallest positive value a pattern without sign below infinity amounts to. -/
def units (layout : Layout) (pattern : Nat) : Nat :=
  let exponent := pattern / Nat.pow 2 layout.fractionBits
  let fraction := pattern % Nat.pow 2 layout.fractionBits
  -- Without an exponent there is no leading bit beside the fraction.
  if exponent = 0 then fraction
  else (Nat.pow 2 layout.fractionBits + fraction) * Nat.pow 2 (exponent - 1)

/-- The pattern nearest to a quotient, ties to the even pattern; infinity beyond the last number. -/
def nearest (layout : Layout) (num den : Nat) : Nat :=
  let scaled := num * layout.unit
  -- The last place kept is as far up as the leading bit demands.
  let place := Nat.log2 (scaled / den) - layout.fractionBits
  let significand := roundQuotient scaled (den * Nat.pow 2 place)
  -- A significand that reaches the next power of two carries into the exponent by itself.
  min (place * Nat.pow 2 layout.fractionBits + significand) layout.infinity

end Layout

end BoardRpc.Binary
