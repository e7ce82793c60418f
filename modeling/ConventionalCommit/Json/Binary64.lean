/-!
# ConventionalCommit — double precision

The magnitudes of the finite numbers of the binary64 format, as exact natural
numbers. All of them are whole multiples of `2 ^ -1074`, and `units` is that
multiple. `ofQuotient` rounds a fraction to the nearest magnitude, a tie to
the even significand; product, quotient and the reading of natural numbers
are exact results rounded once.
-/

namespace ConventionalCommit

/-- The magnitude of a finite binary64 number. -/
structure Binary64 where
  significand : Nat
  /-- The exponent of two, counted from that of the least magnitude. -/
  exponent : Nat
  significand_lt : significand < Nat.pow 2 53
  normal : Nat.pow 2 52 ≤ significand ∨ exponent = 0
  exponent_le : exponent ≤ 2045
deriving DecidableEq, Repr

namespace Binary64

/-- The least positive magnitude is one part in `scale`. -/
def scale : Nat := Nat.pow 2 1074

/-- The magnitude in multiples of the least positive one. -/
def units (x : Binary64) : Nat := x.significand * Nat.pow 2 x.exponent

/-- Zero. -/
def zero : Binary64 := ⟨0, 0, by decide, Or.inr rfl, by decide⟩

/-- Whether a magnitude is zero. -/
def isZero (x : Binary64) : Bool := x.significand == 0

/-- A quotient rounded to the nearest natural number, a tie to the even one. -/
def roundedQuotient (num den : Nat) : Nat :=
  let rest := 2 * (num % den)
  if den < rest ∨ (rest = den ∧ num / den % 2 = 1) then num / den + 1 else num / den

/-- The power of two that the significand of a rounded quotient counts. -/
def roundingExponent (num den : Nat) : Nat := Nat.log2 (num / den) - 52

/-- Rounding goes down to the integer part at most. -/
theorem le_roundedQuotient (num den : Nat) : num / den ≤ roundedQuotient num den := by
  unfold roundedQuotient
  dsimp only
  split <;> omega

/-- Above the least exponent the rounded significand has its full length, because the exponent is
taken from the length of the quotient, so that exactly 53 binary digits are left. -/
theorem normal_roundedQuotient (num den : Nat) :
    Nat.pow 2 52 ≤ roundedQuotient num (den * Nat.pow 2 (roundingExponent num den)) ∨
      roundingExponent num den = 0 := by
  by_cases h : roundingExponent num den = 0
  · exact Or.inr h
  · left
    refine Nat.le_trans ?_ (le_roundedQuotient ..)
    rw [Nat.pow_eq, Nat.pow_eq, ← Nat.div_div_eq_div_mul,
      Nat.le_div_iff_mul_le (Nat.two_pow_pos _), ← Nat.pow_add]
    have hpos : num / den ≠ 0 := by
      intro h0
      exact h (by rw [roundingExponent, h0]; rfl)
    -- the exponent is chosen so that the quotient has its first digit in place
    have hexp : 52 + roundingExponent num den = Nat.log2 (num / den) := by
      unfold roundingExponent at h ⊢
      omega
    rw [hexp]
    exact Nat.log2_self_le hpos

/-- The magnitude nearest to `num / den` multiples of the least positive one, a
tie going to the even significand; `none` if it is beyond the format. -/
def ofQuotient (num den : Nat) : Option Binary64 :=
  let e := roundingExponent num den
  let s := roundedQuotient num (den * Nat.pow 2 e)
  if hs : s < Nat.pow 2 53 then
    if he : e ≤ 2045 then some ⟨s, e, hs, normal_roundedQuotient num den, he⟩ else none
  else
    if he : e + 1 ≤ 2045 then some ⟨Nat.pow 2 52, e + 1, by decide, Or.inl (Nat.le_refl _), he⟩
    else none

/-- The magnitude nearest to a natural number. -/
def ofNat? (n : Nat) : Option Binary64 := ofQuotient (n * scale) 1

/-- The product, rounded. -/
def mul? (x y : Binary64) : Option Binary64 := ofQuotient (x.units * y.units) scale

/-- The quotient, rounded. -/
def div? (x y : Binary64) : Option Binary64 := ofQuotient (x.units * scale) y.units

/-- The natural number that a magnitude is, if it is one. -/
def toNat? (x : Binary64) : Option Nat :=
  if x.units % scale = 0 then some (x.units / scale) else none

end Binary64

end ConventionalCommit
