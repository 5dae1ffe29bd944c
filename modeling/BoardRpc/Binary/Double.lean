import BoardRpc.Binary.Layout

/-! Numbers of single and double precision, and the conversions between them and integers. -/

namespace BoardRpc

open Binary

/-- A number of single precision, known by its bits. -/
structure Single where
  bits : UInt32
  deriving DecidableEq, Repr, Inhabited

/-- A number of double precision, known by its bits. -/
structure Double where
  bits : UInt64
  deriving DecidableEq, Repr, Inhabited

namespace Single

/-- Whether the sign bit is set. -/
def isNegative (x : Single) : Bool := Layout.single.sign ≤ x.bits.toNat

/-- The bits without the sign. -/
def magnitude (x : Single) : Nat := x.bits.toNat % Layout.single.sign

/-- The number with a sign and the other bits. -/
def ofParts (negative : Bool) (magnitude : Nat) : Single :=
  ⟨UInt32.ofNat ((if negative then Layout.single.sign else 0) + magnitude)⟩

end Single

namespace Double

/-- Whether the sign bit is set. -/
def isNegative (x : Double) : Bool := Layout.double.sign ≤ x.bits.toNat

/-- The bits without the sign. -/
def magnitude (x : Double) : Nat := x.bits.toNat % Layout.double.sign

/-- The number with a sign and the other bits. -/
def ofParts (negative : Bool) (magnitude : Nat) : Double :=
  ⟨UInt64.ofNat ((if negative then Layout.double.sign else 0) + magnitude)⟩

/-- Whether the bits stand for no number. -/
def isNaN (x : Double) : Bool := Layout.double.infinity < x.magnitude

/-- Whether the number is infinite. -/
def isInfinite (x : Double) : Bool := x.magnitude == Layout.double.infinity

/-- Whether the number is finite. -/
def isFinite (x : Double) : Bool := x.magnitude < Layout.double.infinity

/-- Whether the number is zero of either sign. -/
def isZero (x : Double) : Bool := x.magnitude == 0

/-- Equality of numbers: a pattern that is no number equals nothing, and zeros are equal. -/
def equals (x y : Double) : Bool :=
  -- The two zeros differ in their bits only.
  !x.isNaN && !y.isNaN && (x == y || (x.isZero && y.isZero))

/-- The number with the opposite sign. -/
def neg (x : Double) : Double := ofParts (!x.isNegative) x.magnitude

/-- The number nearest to a quotient. -/
def ofRatio (negative : Bool) (num den : Nat) : Double :=
  ofParts negative (Layout.double.nearest num den)

/-- The number nearest to an integer. -/
def ofInt (n : Int) : Double := ofRatio (n < 0) n.natAbs 1

/-- The product of two finite numbers. -/
def mul (x y : Double) : Double :=
  -- Both are whole numbers of units, so that the quotient is exact before it is rounded.
  ofRatio (x.isNegative != y.isNegative)
    (Layout.double.units x.magnitude * Layout.double.units y.magnitude)
    (Layout.double.unit * Layout.double.unit)

/-- The quotient of two finite numbers, the second not zero. -/
def div (x y : Double) : Double :=
  ofRatio (x.isNegative != y.isNegative)
    (Layout.double.units x.magnitude) (Layout.double.units y.magnitude)

/-- The nearest number of single precision. What is no number keeps its leading bits and is
quiet. -/
def narrow (x : Double) : Single :=
  let shift := Layout.double.fractionBits - Layout.single.fractionBits
  Single.ofParts x.isNegative <|
    -- What is no number loses its lowest bits, and the quiet bit keeps it from being infinite.
    if x.isNaN then
      Layout.single.infinity
        + ((x.magnitude - Layout.double.infinity) / Nat.pow 2 shift ||| Layout.single.quiet)
    else if x.isInfinite then Layout.single.infinity
    else Layout.single.nearest (Layout.double.units x.magnitude) Layout.double.unit

end Double

/-- The same number in double precision; what is no number keeps its bits and is quiet. -/
def Single.widen (x : Single) : Double :=
  let shift := Layout.double.fractionBits - Layout.single.fractionBits
  Double.ofParts x.isNegative <|
    if Layout.single.infinity < x.magnitude then
      Layout.double.infinity
        + ((x.magnitude - Layout.single.infinity) * Nat.pow 2 shift ||| Layout.double.quiet)
    else if x.magnitude = Layout.single.infinity then Layout.double.infinity
    -- Every number of single precision is one of double precision, so nothing is rounded.
    else Layout.double.nearest (Layout.single.units x.magnitude) Layout.single.unit

end BoardRpc
