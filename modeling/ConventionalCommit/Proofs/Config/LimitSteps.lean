import ConventionalCommit.Proofs.Config.Limits

/-!
# ConventionalCommit — reading a limit in steps

A number that is held as an integer from zero on is a limit as it is, unless it is zero. Any other
number goes through a double, which has to be whole and not outside two bounds, and is then
converted to an integer of 64 bits. The bounds are doubles as well, and the upper one is not the
greatest limit: the double nearest to `2 ^ 64 - 1` is `2 ^ 64`. So one number passes that is no
limit, and the conversion, which stops at the ends of its range, turns it into the greatest one.

Doubles are compared, cut and converted in multiples of the least positive one, where each of them
is an integer (`Double.units`) and nothing is rounded.

* `Double.units_nearest_one`, `Double.units_nearest_greatest`: what the bounds are;
* `Config.admitsDouble_iff`: which doubles are whole and within the bounds;
* `Config.limitInSteps?_eq_some_iff`: the steps give the limit that the number stands for;
* `Config.checkPositive_exact`: what is read from any number, and what is reported on it.
-/

namespace ConventionalCommit

/-- A finite double. -/
structure Double where
  isNegative : Bool
  magnitude : Binary64

variable {f : Double} {n : Json.Number} {limit : UInt64} {x : Binary64} {k : ℤ}

namespace Double

open Binary64 (scale)

/-- A double in multiples of the least positive one. The two zeros are the same. -/
def units (f : Double) : ℤ := if f.isNegative then -f.magnitude.units else f.magnitude.units

/-- The double nearest to a natural number. -/
def nearest? (n : ℕ) : Option Double := (Binary64.ofNat? n).map (Double.mk false)

/-- What a double has after the point, in its units and with its sign. -/
def fraction (f : Double) : ℤ := f.units.tmod scale

/-- Whether a double is not above another. -/
def le (f g : Double) : Bool := decide (f.units ≤ g.units)

/-- What a double has before the point, or the end of the range that it is beyond. -/
def toUInt64 (f : Double) : UInt64 := UInt64.ofNat (min (f.units.tdiv scale).toNat (2 ^ 64 - 1))

/-- The units of one are positive, so comparing multiples of them is comparing the factors. -/
theorem scale_pos : (0 : ℤ) < scale := Int.natCast_pos.mpr Binary64.scale_pos

theorem units_negative (x : Binary64) : (Double.mk true x).units ≤ 0 := by
  have hunits := Int.natCast_nonneg x.units
  simp only [units, if_true]
  omega

/-- Nothing stands after the point exactly if the units are a multiple of those of one. -/
theorem fraction_eq_zero_iff : f.fraction = 0 ↔ ∃ k : ℤ, f.units = k * scale := by
  rw [fraction, ← Int.dvd_iff_tmod_eq_zero, dvd_iff_exists_eq_mul_left]

/-- A whole double is converted to itself, or to the end of the range. -/
theorem toNat_toUInt64 (h : f.units = k * scale) :
    f.toUInt64.toNat = min k.toNat (2 ^ 64 - 1) := by
  have hpart : f.units.tdiv scale = k := by
    rw [h, Int.mul_tdiv_cancel k scale_pos.ne']
  rw [toUInt64, hpart, UInt64.toNat_ofNat_of_lt']
  simp only [UInt64.size]
  omega

theorem units_nearest_one : ∃ g, nearest? 1 = some g ∧ g.units = 1 * scale := by
  have hone : (nearest? 1).map units = some (1 * scale : ℤ) := by decide +kernel
  exact Option.map_eq_some_iff.mp hone

/-- The greatest limit is rounded up. -/
theorem units_nearest_greatest :
    ∃ g, nearest? (2 ^ 64 - 1) = some g ∧ g.units = 2 ^ 64 * scale := by
  have htop : (nearest? (2 ^ 64 - 1)).map units = some (2 ^ 64 * scale : ℤ) := by decide +kernel
  exact Option.map_eq_some_iff.mp htop

end Double

namespace Json.Number

/-- A number as an integer of 64 bits, if it is held as one and has no sign. -/
def asUInt64? : Number → Option UInt64
  | natural n => some n
  | negative .. => none
  | double .. => none

/-- A number as a double, to which an integer is rounded. -/
def asDouble? : Number → Option Double
  | natural n => Double.nearest? n.toNat
  | negative distance _ _ => (Binary64.ofNat? distance).map (Double.mk true)
  | double isNegative magnitude => some ⟨isNegative, magnitude⟩

/-- A double has a whole value exactly if it has so many units. This is the step from the rational
value to integers. -/
theorem value_double_eq_iff {isNegative : Bool} : (double isNegative x).value = k ↔
    (Double.mk isNegative x).units = k * Binary64.scale := by
  have hscale : (Binary64.scale : ℚ) ≠ 0 := Nat.cast_ne_zero.mpr Binary64.scale_pos.ne'
  cases isNegative with
  | true =>
    rw [value, Binary64.value, ← neg_div, div_eq_iff hscale]
    exact_mod_cast Iff.rfl
  | false =>
    rw [value, Binary64.value, div_eq_iff hscale]
    exact_mod_cast Iff.rfl

/-- A number has a whole value within the bounds exactly if it stands for a limit. -/
theorem exists_denotes_iff : (∃ limit, n.Denotes limit) ↔
    ∃ k : ℤ, n.value = k ∧ 1 ≤ k ∧ k ≤ 2 ^ 64 := by
  constructor
  · rintro ⟨limit, m, hvalue, hone, htop, -⟩
    exact ⟨m, by exact_mod_cast hvalue, by omega, by omega⟩
  · rintro ⟨k, hvalue, hone, htop⟩
    obtain ⟨m, rfl⟩ := Int.eq_ofNat_of_zero_le (le_trans zero_le_one hone)
    exact ⟨UInt64.ofNat (min m (2 ^ 64 - 1)), m, by exact_mod_cast hvalue, by omega, by omega,
      Config.ofNat_min_eq_iff.mp rfl⟩

end Json.Number

namespace Config

open Binary64 (scale)

/-- Whether a double is whole, not below one and not above the greatest limit. -/
def admitsDouble (f : Double) : Bool :=
  f.fraction == 0 && (Double.nearest? 1).any (·.le f) && (Double.nearest? (2 ^ 64 - 1)).any f.le

/-- The limit that is read from a number, step by step. -/
def limitInSteps? (n : Json.Number) : Option UInt64 :=
  (n.asUInt64?.or ((n.asDouble?.filter admitsDouble).map Double.toUInt64)).filter (0 < ·)

/-- The bounds let `2 ^ 64` through, and no other integer that is no limit. -/
theorem admitsDouble_iff :
    admitsDouble f = true ↔ ∃ k : ℤ, f.units = k * scale ∧ 1 ≤ k ∧ k ≤ 2 ^ 64 := by
  obtain ⟨one, hone, hunits⟩ := Double.units_nearest_one
  obtain ⟨top, htop, hunits'⟩ := Double.units_nearest_greatest
  unfold admitsDouble Double.le
  rw [hone, htop, Option.any_some, Option.any_some, Bool.and_eq_true, Bool.and_eq_true, beq_iff_eq,
    Double.fraction_eq_zero_iff, decide_eq_true_eq, decide_eq_true_eq, hunits, hunits']
  constructor
  · rintro ⟨⟨⟨k, hk⟩, hbelow⟩, habove⟩
    rw [hk] at hbelow habove
    exact ⟨k, hk, le_of_mul_le_mul_right hbelow Double.scale_pos,
      le_of_mul_le_mul_right habove Double.scale_pos⟩
  · rintro ⟨k, hk, hbelow, habove⟩
    rw [hk]
    exact ⟨⟨⟨k, rfl⟩, mul_le_mul_of_nonneg_right hbelow Double.scale_pos.le⟩,
      mul_le_mul_of_nonneg_right habove Double.scale_pos.le⟩

/-- No double with a sign passes, not even the negative zero, because it is compared with one. -/
theorem admitsDouble_negative (x : Binary64) : admitsDouble ⟨true, x⟩ = false := by
  rw [Bool.eq_false_iff, ne_eq, admitsDouble_iff]
  rintro ⟨k, hk, hone, -⟩
  have hunits := Double.units_negative x
  have hpos := mul_pos (Int.lt_of_lt_of_le one_pos hone) Double.scale_pos
  omega

/-- A double stands for a limit if it is let through, and for the one that it is converted to. -/
theorem denotes_double_iff {isNegative : Bool} : (Json.Number.double isNegative x).Denotes limit ↔
    admitsDouble ⟨isNegative, x⟩ = true ∧ (Double.mk isNegative x).toUInt64 = limit := by
  rw [admitsDouble_iff]
  constructor
  · rintro ⟨m, hvalue, hone, htop, hlimit⟩
    have hk : (Double.mk isNegative x).units = (m : ℤ) * scale :=
      Json.Number.value_double_eq_iff.mp (by exact_mod_cast hvalue)
    -- the conversion stops at the end of its range, which is where `2 ^ 64` ends up
    have hconverted := Double.toNat_toUInt64 hk
    rw [Int.toNat_natCast, ← hlimit] at hconverted
    exact ⟨⟨m, hk, by omega, by omega⟩, UInt64.toNat_inj.mp hconverted⟩
  · rintro ⟨⟨k, hk, hone, htop⟩, rfl⟩
    obtain ⟨m, rfl⟩ := Int.eq_ofNat_of_zero_le (le_trans zero_le_one hone)
    have hvalue := Json.Number.value_double_eq_iff.mpr hk
    have hconverted := Double.toNat_toUInt64 hk
    rw [Int.toNat_natCast] at hconverted
    exact ⟨m, by exact_mod_cast hvalue, by omega, by omega, hconverted⟩

/-- A number with a sign stays below one when it is rounded, since rounding does not change the
sign. -/
theorem filter_asDouble?_negative {distance : ℕ} (hpos : 0 < distance)
    (hle : distance ≤ Nat.pow 2 63) :
    (Json.Number.negative distance hpos hle).asDouble?.filter admitsDouble = none := by
  rw [Option.filter_eq_none_iff, Json.Number.asDouble?]
  intro f hf
  obtain ⟨x, -, rfl⟩ := Option.map_eq_some_iff.mp hf
  rw [admitsDouble_negative]
  exact Bool.false_ne_true

/-- The steps give the limit that the value of a number stands for, whichever form it is held in. -/
theorem limitInSteps?_eq_some_iff : limitInSteps? n = some limit ↔ n.Denotes limit := by
  have hpositive : (0 < limit) ↔ 1 ≤ limit.toNat := UInt64.lt_iff_toNat_lt
  unfold limitInSteps?
  rw [Option.filter_eq_some_iff, decide_eq_true_eq, hpositive]
  cases n with
  | natural m =>
    rw [Json.Number.denotes_natural_iff, Json.Number.asUInt64?, Option.some_or, Option.some.injEq]
    constructor
    · rintro ⟨rfl, hone⟩
      exact ⟨hone, rfl⟩
    · rintro ⟨hone, rfl⟩
      exact ⟨rfl, hone⟩
  | negative distance hpos hle =>
    -- a negative number passes neither test
    rw [Json.Number.asUInt64?, Option.none_or, filter_asDouble?_negative]
    refine iff_of_false ?_ Json.Number.not_denotes_negative
    rintro ⟨hread, -⟩
    cases hread
  | double isNegative x =>
    -- a double is converted, with a stop at the greatest limit, if it is admitted
    have hread : (Option.filter admitsDouble (some ⟨isNegative, x⟩)).map Double.toUInt64 =
        some limit ↔ (Json.Number.double isNegative x).Denotes limit := by
      rw [denotes_double_iff, Option.filter_some]
      split
      · next h => rw [Option.map_some, Option.some.injEq, and_iff_right h]
      · next h =>
        refine iff_of_false (fun hnone => ?_) fun hadmits => h hadmits.1
        cases hnone
    rw [Json.Number.asUInt64?, Option.none_or, Json.Number.asDouble?, hread]
    -- so the last test, that the limit is positive, takes nothing away
    exact and_iff_left_of_imp Json.Number.Denotes.pos

theorem positive?_eq_limitInSteps? (n : Json.Number) : positive? n = limitInSteps? n := by
  refine Option.ext fun limit => ?_
  rw [positive?_eq_some_iff, limitInSteps?_eq_some_iff]

section

variable {key : Key} {fallback : UInt64}

/-- A number that stands for a limit is accepted, and its limit is read. -/
theorem checkPositive_eq_fine (h : n.Denotes limit) :
    checkPositive key fallback (.number n) = .fine limit := by
  rw [checkPositive, positive?_eq_some_iff.mpr h]

/-- Any other number is reported at the key, as it is written, and the setting stays as it was. -/
theorem checkPositive_eq_wrong (h : ¬ ∃ limit, n.Denotes limit) :
    checkPositive key fallback (.number n) = .wrong fallback key .positiveInteger n.text := by
  have hread : positive? n = none := by
    rw [Option.eq_none_iff_forall_ne_some]
    exact fun limit hlimit => h ⟨limit, positive?_eq_some_iff.mp hlimit⟩
  rw [checkPositive, hread]

end

/--
A number is read through the steps, and accepted exactly if its value is an integer from one to
`2 ^ 64`. What is read is that integer, whatever its size, except that `2 ^ 64` is read as the
greatest limit. On any other number a single error is reported, at the key.
-/
theorem checkPositive_exact (key : Key) (fallback : UInt64) (n : Json.Number) :
    positive? n = limitInSteps? n ∧
    ((checkPositive key fallback (.number n)).errors = [] ↔
      ∃ k : ℤ, n.value = k ∧ 1 ≤ k ∧ k ≤ 2 ^ 64) ∧
    (∀ k : ℤ, n.value = k → 1 ≤ k → k ≤ 2 ^ 64 →
      ∃ limit : UInt64, checkPositive key fallback (.number n) = .fine limit ∧
        (limit.toNat : ℤ) = min k (2 ^ 64 - 1)) ∧
    ((¬ ∃ k : ℤ, n.value = k ∧ 1 ≤ k ∧ k ≤ 2 ^ 64) →
      checkPositive key fallback (.number n) =
        ⟨fallback, [⟨.setting key, .positiveInteger, n.text⟩]⟩) := by
  refine ⟨positive?_eq_limitInSteps? n, ?accepted, ?read, ?reported⟩
  case accepted =>
    rw [← Json.Number.exists_denotes_iff]
    by_cases h : ∃ limit, n.Denotes limit
    · obtain ⟨limit, hlimit⟩ := h
      rw [checkPositive_eq_fine hlimit]
      exact iff_of_true rfl ⟨limit, hlimit⟩
    · rw [checkPositive_eq_wrong h]
      exact iff_of_false (List.cons_ne_nil _ _) h
  case read =>
    intro k hvalue hone htop
    obtain ⟨limit, hlimit⟩ := Json.Number.exists_denotes_iff.mpr ⟨k, hvalue, hone, htop⟩
    refine ⟨limit, checkPositive_eq_fine hlimit, ?_⟩
    obtain ⟨m, hm, -, -, hcut⟩ := hlimit
    have hk : k = m := by
      rw [hvalue] at hm
      exact_mod_cast hm
    omega
  case reported =>
    intro hnone
    exact checkPositive_eq_wrong (mt Json.Number.exists_denotes_iff.mp hnone)

/-- The double that passes and is no limit, and the greatest one below one. The first is `2 ^ 64`,
which passes because the greatest limit is rounded up to it when the two are compared. -/
theorem checkPositive_exact_bounds :
    let top : Binary64 := ⟨Nat.pow 2 52, 1086, by decide, Or.inl (Nat.le_refl _), by decide⟩
    let below : Binary64 := ⟨Nat.pow 2 53 - 1, 1021, by decide, Or.inl (by decide), by decide⟩
    (Json.Number.double false top).value = (2 ^ 64 : ℤ) ∧
      checkPositive .maxLineLength 100 (.number (.double false top)) =
        .fine 18446744073709551615 ∧
      checkPositive .maxLineLength 100 (.number (.double false below)) =
        ⟨100, [⟨.setting .maxLineLength, .positiveInteger, "0.9999999999999999".toList⟩]⟩ := by
  intro top below
  have htop : (Json.Number.double false top).value = (2 ^ 64 : ℤ) :=
    Json.Number.value_double_eq_iff.mpr (by decide +kernel)
  have hbelow : ¬ ∃ k : ℤ, (Json.Number.double false below).value = k ∧ 1 ≤ k ∧ k ≤ 2 ^ 64 := by
    rintro ⟨k, hvalue, hone, -⟩
    have hunits := Json.Number.value_double_eq_iff.mp hvalue
    -- less than the units of one, hence no multiple of them but zero
    have hless : (Double.mk false below).units < scale := by decide +kernel
    have hscale := le_mul_of_one_le_left Double.scale_pos.le hone
    omega
  have htext : (Json.Number.double false below).text = "0.9999999999999999".toList := by
    decide +kernel
  obtain ⟨-, -, hread, -⟩ := checkPositive_exact .maxLineLength 100 (.double false top)
  obtain ⟨-, -, -, hreported⟩ := checkPositive_exact .maxLineLength 100 (.double false below)
  -- `2 ^ 64` is the integer at which the minimum takes effect
  obtain ⟨limit, hfine, hlimit⟩ := hread (2 ^ 64) htop (by decide) (le_refl _)
  have hgreatest : limit = 18446744073709551615 := by
    rw [← UInt64.toNat_inj]
    show limit.toNat = 18446744073709551615
    omega
  exact ⟨htop, hgreatest ▸ hfine, htext ▸ hreported hbelow⟩

end Config

end ConventionalCommit
