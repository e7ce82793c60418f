import ConventionalCommit.Json.Binary64

/-!
# ConventionalCommit — the shortest decimal of a double

The decimal with the fewest digits that is read back as a given binary64
magnitude. The reals that round to a magnitude form an interval. Of the powers
of ten, from the greatest down, the first that has a multiple in that interval
gives the fewest digits; of its multiples the nearest is taken, and of two
equally near ones the even one.
-/

namespace ConventionalCommit

/-- The number `digits * 10 ^ exponent`. -/
structure Decimal where
  digits : Nat
  /-- The power of ten that the last digit counts. -/
  exponent : Int
deriving DecidableEq, Repr

namespace Binary64

/-- The greatest power of ten within the format. -/
def greatestPower : Nat := 308

/-- The least real that rounds to a magnitude, in quarters of a unit. Below a
power of two the neighbour is half as far away as above it. -/
def lowerEnd (x : Binary64) : Nat :=
  if x.significand = Nat.pow 2 52 ∧ x.exponent ≠ 0 then 4 * x.units - Nat.pow 2 x.exponent
  else 4 * x.units - 2 * Nat.pow 2 x.exponent

/-- The greatest real that rounds to a magnitude, in quarters of a unit. -/
def upperEnd (x : Binary64) : Nat := 4 * x.units + 2 * Nat.pow 2 x.exponent

/-- Whether `num / den` quarters of a unit round to a magnitude. The ends of the
interval do so exactly when the significand is even. -/
def isReadFrom (x : Binary64) (num den : Nat) : Bool :=
  if x.significand % 2 = 0 then
    decide (x.lowerEnd * den ≤ num ∧ num ≤ x.upperEnd * den)
  else
    decide (x.lowerEnd * den < num ∧ num < x.upperEnd * den)

/-- The nearest multiple of `10 ^ (greatestPower - j)` that rounds to a
magnitude, if there is one. -/
def multipleAt? (x : Binary64) (j : Nat) : Option Decimal :=
  let step := Nat.pow 10 greatestPower * 4 * scale
  let target := 4 * x.units * Nat.pow 10 j
  let below := target / step
  let near := roundedQuotient target step
  let far := if near = below then below + 1 else below
  let hit (d : Nat) : Option Decimal :=
    if x.isReadFrom (d * step) (Nat.pow 10 j) then some ⟨d, (greatestPower : Int) - j⟩ else none
  (hit near).or (hit far)

/-- The shortest decimal that is read back as a magnitude. -/
def shortest (x : Binary64) : Decimal :=
  ((List.range 640).findSome? x.multipleAt?).getD ⟨0, 0⟩

end Binary64

end ConventionalCommit
