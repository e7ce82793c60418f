import ConventionalCommit.Config.OfJson
import Mathlib.Data.Rat.Cast.Order
import Mathlib.Tactic.Linarith

/-!
# ConventionalCommit — the limits that numbers stand for

A number of JSON is held in one of three forms. Its value is a rational number all the same
(`Json.Number.value`), and the limit that it stands for depends on that value alone
(`Json.Number.Denotes`): the forms only decide which values there are.

* `Binary64.toNat?_eq_some_iff`: a double is read as the natural number that it is;
* `positive?_eq_some_iff`: the limit that is read is the one that the value stands for.
-/

namespace ConventionalCommit

/-- The exact value of a magnitude. -/
def Binary64.value (x : Binary64) : ℚ := x.units / Binary64.scale

/-- The exact value of a number. -/
def Json.Number.value : Json.Number → ℚ
  | natural n => n.toNat
  | negative distance _ _ => -distance
  | double true magnitude => -magnitude.value
  | double false magnitude => magnitude.value

/-- A limit is the one that a number stands for: the number itself, except that `2 ^ 64`
stands for the greatest limit below it. -/
def Json.Number.Denotes (n : Json.Number) (limit : UInt64) : Prop :=
  ∃ k : ℕ, n.value = k ∧ 1 ≤ k ∧ k ≤ 2 ^ 64 ∧ limit.toNat = min k (2 ^ 64 - 1)

variable {n : Json.Number} {limit : UInt64} {x : Binary64} {k : ℕ}

namespace Binary64

theorem scale_pos : 0 < scale := by
  have hpow : ∀ e, 0 < Nat.pow 2 e := Nat.two_pow_pos
  unfold scale
  apply hpow

/-- The value of a magnitude is zero or more; the sign is kept apart. -/
theorem value_nonneg (x : Binary64) : 0 ≤ x.value :=
  div_nonneg (Nat.cast_nonneg _) (Nat.cast_nonneg _)

/-- A magnitude is a natural number if it is a multiple of the unit. -/
theorem value_eq_natCast_iff : x.value = k ↔ x.units = k * scale := by
  have hscale : (scale : ℚ) ≠ 0 := Nat.cast_ne_zero.mpr (Nat.ne_of_gt scale_pos)
  rw [value, div_eq_iff hscale]
  exact_mod_cast Iff.rfl

/-- A magnitude is read as the natural number that it is. -/
theorem toNat?_eq_some_iff : x.toNat? = some k ↔ x.value = k := by
  rw [value_eq_natCast_iff, toNat?]
  constructor
  · intro h
    split at h
    · next hwhole =>
      rw [← Option.some.inj h, Nat.div_mul_cancel (Nat.dvd_of_mod_eq_zero hwhole)]
    · cases h
  · intro h
    rw [h, Nat.mul_mod_left, if_pos rfl, Nat.mul_div_cancel _ scale_pos]

end Binary64

namespace Json.Number

/-- A literal from one to `2 ^ 64 - 1` stands for itself. -/
theorem denotes_natural_iff {m : UInt64} : (natural m).Denotes limit ↔ 1 ≤ m.toNat ∧ limit = m := by
  have hbound := m.toNat_lt
  simp only [Denotes, value, Nat.cast_inj, exists_eq_left', ← UInt64.toNat_inj]
  omega

theorem Denotes.pos (h : n.Denotes limit) : 1 ≤ limit.toNat := by
  obtain ⟨k, -, hone, -, hlimit⟩ := h
  omega

/-- What is below one stands for no limit. -/
theorem not_denotes_of_value_lt (h : n.value < 1) : ¬ n.Denotes limit := by
  rintro ⟨k, hk, hone, -⟩
  have hcast : (1 : ℚ) ≤ k := Nat.one_le_cast.mpr hone
  linarith

theorem not_denotes_negative {distance : ℕ} {hpos : 0 < distance} {hle : distance ≤ Nat.pow 2 63} :
    ¬ (negative distance hpos hle).Denotes limit := by
  refine not_denotes_of_value_lt ?_
  have hneg : -(distance : ℚ) ≤ 0 := neg_nonpos.mpr (Nat.cast_nonneg distance)
  exact hneg.trans_lt one_pos

end Json.Number

namespace Config

/-- A number from one to `2 ^ 64` is read as itself or as the greatest limit. -/
theorem ofNat_min_eq_iff : UInt64.ofNat (min k (2 ^ 64 - 1)) = limit ↔
    limit.toNat = min k (2 ^ 64 - 1) := by
  rw [← UInt64.toNat_inj, UInt64.toNat_ofNat_of_lt' (by simp [UInt64.size]), eq_comm]

/-- The limit that is read from a number is the one that its value stands for. -/
theorem positive?_eq_some_iff : positive? n = some limit ↔ n.Denotes limit := by
  cases n with
  | natural m =>
    rw [Json.Number.denotes_natural_iff, positive?]
    split
    · next h => exact iff_of_false nofun (by simp [h])
    · next h =>
      have hone : 1 ≤ m.toNat := Nat.one_le_iff_ne_zero.mpr fun h0 => h (UInt64.toNat_inj.mp h0)
      rw [Option.some.injEq, and_iff_right hone, eq_comm]
  | negative => exact iff_of_false nofun Json.Number.not_denotes_negative
  | double isNegative magnitude =>
    cases isNegative with
    | true =>
      -- a negative double is at most zero
      refine iff_of_false nofun (Json.Number.not_denotes_of_value_lt ?_)
      exact (neg_nonpos.mpr magnitude.value_nonneg).trans_lt one_pos
    | false =>
      rw [positive?, Option.bind_eq_some_iff]
      simp only [Binary64.toNat?_eq_some_iff]
      refine exists_congr fun k => and_congr_right fun _ => ?_
      rw [Nat.pow_eq]
      split
      · -- out of bounds
        exact iff_of_false nofun (by omega)
      · -- in bounds, where only the greatest integer is lowered
        rw [Option.some.injEq, ofNat_min_eq_iff]
        omega

end Config

end ConventionalCommit
