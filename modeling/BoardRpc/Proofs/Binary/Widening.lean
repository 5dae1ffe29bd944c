import BoardRpc.Binary.Double
import Mathlib

/-! Widening loses nothing: what single precision can tell, double precision can tell. -/

namespace BoardRpc

open Binary

namespace Binary

/-- Rounding changes no quotient that is whole. -/
theorem roundQuotient_mul (quotient : Nat) {den : Nat} (positive : 0 < den) :
    roundQuotient (quotient * den) den = quotient := by
  -- The remainder is zero, so nothing is rounded up.
  simp [roundQuotient, Nat.mul_div_cancel _ positive, positive]

namespace Layout

variable {layout : Layout}

/-- A significand with its place makes up the pattern whose exponent counts one more. -/
theorem units_place (place : Nat) {significand : Nat}
    (full : 2 ^ layout.fractionBits ≤ significand)
    (fits : significand < 2 ^ (layout.fractionBits + 1)) :
    layout.units (place * 2 ^ layout.fractionBits + significand) = significand * 2 ^ place := by
  -- The leading bit of the significand adds one to the exponent, and the rest is the fraction.
  obtain ⟨fraction, rfl⟩ := Nat.exists_eq_add_of_le full
  have small : fraction < 2 ^ layout.fractionBits := by rw [Nat.pow_succ] at fits; omega
  have split : place * 2 ^ layout.fractionBits + (2 ^ layout.fractionBits + fraction)
      = (place + 1) * 2 ^ layout.fractionBits + fraction := by ring
  have exponent : ((place + 1) * 2 ^ layout.fractionBits + fraction) / 2 ^ layout.fractionBits
      = place + 1 := by
    rw [Nat.mul_comm, Nat.mul_add_div (by positivity), Nat.div_eq_of_lt small, Nat.add_zero]
  have rest : ((place + 1) * 2 ^ layout.fractionBits + fraction) % 2 ^ layout.fractionBits
      = fraction := by
    rw [Nat.mul_comm, Nat.mul_add_mod, Nat.mod_eq_of_lt small]
  simp [units, split, exponent, rest]

/-- A pattern without exponent stands for itself. -/
theorem units_small {pattern : Nat} (small : pattern < 2 ^ layout.fractionBits) :
    layout.units pattern = pattern := by
  -- The exponent bits are zero, so no leading bit is added.
  simp [units, Nat.div_eq_of_lt small, Nat.mod_eq_of_lt small]

/-- Every pattern is small, or it is a full significand at some place. -/
theorem small_or_place (layout : Layout) (pattern : Nat) :
    pattern < 2 ^ layout.fractionBits ∨
      ∃ place significand, 2 ^ layout.fractionBits ≤ significand ∧
        significand < 2 ^ (layout.fractionBits + 1) ∧
        pattern = place * 2 ^ layout.fractionBits + significand := by
  -- A small pattern has no exponent, so nothing is added to its fraction.
  rcases Nat.lt_or_ge pattern (2 ^ layout.fractionBits) with small | large
  · exact .inl small
  · -- The exponent counts at least one, and one less is the place.
    have positive : 0 < 2 ^ layout.fractionBits := by positivity
    have counted : 1 ≤ pattern / 2 ^ layout.fractionBits :=
      (Nat.one_le_div_iff positive).mpr large
    have below := Nat.mod_lt pattern positive
    refine .inr ⟨pattern / 2 ^ layout.fractionBits - 1,
      2 ^ layout.fractionBits + pattern % 2 ^ layout.fractionBits, by omega,
      by rw [Nat.pow_succ]; omega, ?_⟩
    have whole := Nat.div_add_mod pattern (2 ^ layout.fractionBits)
    obtain ⟨place, same⟩ := Nat.exists_eq_add_of_le' counted
    rw [same] at whole ⊢
    simp only [Nat.add_sub_cancel]
    rw [← Nat.add_assoc, ← Nat.succ_mul, Nat.mul_comm]
    exact whole.symm

/-- A quotient that a pattern stands for exactly is rounded to that pattern. -/
theorem nearest_of_exact {pattern num den : Nat} (finite : pattern < layout.infinity)
    (positive : 0 < den) (exact : num * layout.unit = layout.units pattern * den) :
    layout.nearest num den = pattern := by
  -- Counted in units the quotient is whole, and its leading bit says how many units are dropped.
  have whole : layout.units pattern * den / den = layout.units pattern :=
    Nat.mul_div_cancel _ positive
  simp only [nearest, exact, whole, Nat.pow_eq]
  rcases small_or_place layout pattern with small | ⟨place, significand, full, fits, rfl⟩
  · -- A small pattern counts units, of which none are dropped.
    have low : Nat.log2 pattern - layout.fractionBits = 0 := by
      rcases Nat.eq_zero_or_pos pattern with rfl | nonzero
      · simp
      · have := (Nat.log2_lt (by omega)).mpr small
        omega
    simp only [units_small small, low, Nat.pow_zero, Nat.mul_one, Nat.zero_mul, Nat.zero_add,
      roundQuotient_mul _ positive]
    omega
  · -- A full significand says by its leading bit at which place the rounding happens.
    have nonzero : significand ≠ 0 := by
      have : 0 < 2 ^ layout.fractionBits := by positivity
      omega
    have log : Nat.log2 (significand * 2 ^ place) = layout.fractionBits + place := by
      refine (Nat.log2_eq_iff (by positivity)).mpr ⟨?_, ?_⟩
      · rw [Nat.pow_add]
        exact Nat.mul_le_mul_right _ full
      · rw [Nat.add_right_comm, Nat.pow_add]
        exact Nat.mul_lt_mul_of_pos_right fits (by positivity)
    simp only [units_place place full fits, log, Nat.add_sub_cancel_left]
    rw [Nat.mul_assoc, Nat.mul_comm (2 ^ place) den, roundQuotient_mul _ (by positivity)]
    omega

/-- A significand that fits is at every place the value of some pattern. -/
theorem exists_units (significand place : Nat) (fits : significand < 2 ^ (layout.fractionBits + 1))
    (bounded : place + 2 < 2 ^ layout.exponentBits) :
    ∃ pattern < layout.infinity, layout.units pattern = significand * 2 ^ place := by
  have power : 0 < 2 ^ layout.fractionBits := by positivity
  have infinite : layout.infinity = (2 ^ layout.exponentBits - 1) * 2 ^ layout.fractionBits := rfl
  -- A significand without its leading bit is doubled while its place goes down.
  induction place generalizing significand with
  | zero =>
    refine ⟨significand, ?_, ?_⟩
    · -- At the lowest place every significand is its own pattern.
      have room : 2 * 2 ^ layout.fractionBits
          ≤ (2 ^ layout.exponentBits - 1) * 2 ^ layout.fractionBits :=
        Nat.mul_le_mul_right _ (by omega)
      rw [Nat.pow_succ] at fits
      omega
    · rcases Nat.lt_or_ge significand (2 ^ layout.fractionBits) with small | full
      · simp [units_small small]
      · simpa using units_place 0 full fits
  | succ place ih =>
    rcases Nat.lt_or_ge significand (2 ^ layout.fractionBits) with small | full
    · obtain ⟨pattern, finite, same⟩ := ih (2 * significand)
        (by rw [Nat.pow_succ]; omega) (by omega)
      exact ⟨pattern, finite, by rw [same]; ring⟩
    · -- A full significand is a pattern of the next place, which is still finite.
      refine ⟨(place + 1) * 2 ^ layout.fractionBits + significand, ?_, units_place _ full fits⟩
      have room : (place + 3) * 2 ^ layout.fractionBits
          ≤ (2 ^ layout.exponentBits - 1) * 2 ^ layout.fractionBits :=
        Nat.mul_le_mul_right _ (by omega)
      have split : (place + 3) * 2 ^ layout.fractionBits
          = (place + 1) * 2 ^ layout.fractionBits + 2 * 2 ^ layout.fractionBits := by ring
      rw [Nat.pow_succ] at fits
      omega

end Layout

end Binary

/-- Whether the bits stand for no number. -/
def Single.isNaN (x : Single) : Bool := Layout.single.infinity < x.magnitude

/-- The binary places by which the smallest double lies below the smallest single. -/
def finerPlaces : Nat := 925

/-- The double layout counts finer units than the single one. -/
theorem double_unit : Layout.double.unit = Layout.single.unit * 2 ^ finerPlaces := by
  -- Both units are powers of two, and their exponents differ by so many places.
  decide +kernel

/-- A finite value of single precision is one of double precision. -/
theorem exists_double_units {pattern : Nat} (finite : pattern < Layout.single.infinity) :
    ∃ wide < Layout.double.infinity,
      Layout.double.units wide = Layout.single.units pattern * 2 ^ finerPlaces := by
  -- The wider layout has room for every significand and for every place of the narrower one.
  have bound : pattern < 255 * 2 ^ 23 := finite
  rcases Layout.small_or_place .single pattern with small | ⟨place, significand, full, fits, rfl⟩
  · -- What has no leading bit in single precision gets one in double precision.
    have short : pattern < 2 ^ (Layout.double.fractionBits + 1) :=
      Nat.lt_trans small (by decide)
    rw [Layout.units_small small]
    exact Layout.exists_units _ _ short (by decide)
  · -- The finer units add to the place, which the wider exponent has room for.
    have short : significand < 2 ^ (Layout.double.fractionBits + 1) :=
      Nat.lt_trans fits (by decide)
    have low : place < 255 := by
      have : place * 2 ^ 23 < 255 * 2 ^ 23 := Nat.lt_of_le_of_lt (Nat.le_add_right ..) bound
      omega
    rw [Layout.units_place place full fits, Nat.mul_assoc, ← Nat.pow_add]
    refine Layout.exists_units _ _ short ?_
    have : 2 ^ Layout.double.exponentBits = 2048 := rfl
    have : finerPlaces = 925 := rfl
    omega

/-- The parts that a double is made of are its sign and its other bits. -/
theorem Double.ofParts_parts (negative : Bool) (magnitude : Nat)
    (fits : magnitude < Layout.double.sign) :
    (Double.ofParts negative magnitude).isNegative = negative ∧
      (Double.ofParts negative magnitude).magnitude = magnitude := by
  have sign : Layout.double.sign = 2 ^ 63 := rfl
  -- The sign is the highest bit, and the others lie below it.
  simp only [Double.isNegative, Double.magnitude, Double.ofParts, sign] at fits ⊢
  cases negative <;> simp <;> omega

/-- A single is made of its sign and its other bits. -/
theorem Single.ofParts_self (x : Single) : Single.ofParts x.isNegative x.magnitude = x := by
  have sign : Layout.single.sign = 2 ^ 31 := rfl
  -- The highest bit is the sign, and the remainder below it is the magnitude.
  have bound := x.bits.toNat_lt
  obtain ⟨bits⟩ := x
  simp only [Single.ofParts, Single.isNegative, Single.magnitude, sign, Single.mk.injEq,
    decide_eq_true_eq] at bound ⊢
  apply UInt32.toNat_inj.mp
  rw [UInt32.toNat_ofNat']
  split_ifs <;> omega

/-- Widening a number and narrowing it back changes nothing. -/
theorem Single.narrow_widen {x : Single} (number : x.isNaN = false) : x.widen.narrow = x := by
  have sign : Layout.double.sign = 2 ^ 63 := rfl
  have infinite : Layout.double.infinity = 2047 * 2 ^ 52 := rfl
  have finite : ¬ Layout.single.infinity < x.magnitude := by simpa [Single.isNaN] using number
  rcases Nat.lt_or_ge x.magnitude Layout.single.infinity with below | above
  · -- Both roundings meet a value that their layout has.
    obtain ⟨wide, wideFinite, same⟩ := exists_double_units below
    have positive : 0 < Layout.single.unit := by
      -- A unit is a power of two, far too large to be computed here.
      unfold Layout.unit
      simp only [Nat.pow_eq]
      positivity
    have ratio : 0 < 2 ^ finerPlaces := by positivity
    have units := double_unit
    generalize 2 ^ finerPlaces = fine at same ratio units
    have widened : Layout.double.nearest (Layout.single.units x.magnitude) Layout.single.unit
        = wide := by
      refine Layout.nearest_of_exact wideFinite positive ?_
      rw [same, units]
      ring
    have narrowed : Layout.single.nearest (Layout.double.units wide) Layout.double.unit
        = x.magnitude := by
      refine Layout.nearest_of_exact below (by rw [units]; positivity) ?_
      rw [same, units]
      ring
    have widen : x.widen = Double.ofParts x.isNegative wide := by
      simp only [Single.widen, if_neg finite, if_neg (Nat.ne_of_lt below), widened]
    -- The double is finite, so it is narrowed by rounding, with the sign that it was given.
    obtain ⟨negative, magnitude⟩ := Double.ofParts_parts x.isNegative wide (by omega)
    have notNaN : ¬ Layout.double.infinity < wide := by omega
    have notInfinite : (wide == Layout.double.infinity) = false := by simp; omega
    rw [widen]
    simp only [Double.narrow, Double.isNaN, Double.isInfinite, negative, magnitude,
      notNaN, notInfinite, decide_false, Bool.false_eq_true, if_false, narrowed]
    exact x.ofParts_self
  · -- Infinity is kept apart from the numbers on both ways.
    have same : x.magnitude = Layout.single.infinity := by omega
    have widen : x.widen = Double.ofParts x.isNegative Layout.double.infinity := by
      simp only [Single.widen, if_neg finite, if_pos same]
    obtain ⟨negative, magnitude⟩ := Double.ofParts_parts x.isNegative
      Layout.double.infinity (by omega)
    rw [widen]
    simp only [Double.narrow, Double.isNaN, Double.isInfinite, negative, magnitude, Nat.lt_irrefl,
      decide_false, Bool.false_eq_true, if_false, beq_self_eq_true, if_true]
    rw [← same]
    exact x.ofParts_self

end BoardRpc
