/-!
# ConventionalCommit — sets of characters as ranges

A property of the Unicode character database is a set of code points that
falls into long runs. It is written here as a list of closed ranges in
ascending order, and asked one code point at a time. The order lets the
search stop at the first range that begins too late, so that the frequent
characters, which come first, are decided in a few steps.
-/

namespace ConventionalCommit.Unicode

/-- Closed ranges of code points, each given by its first and last member. -/
abbrev Ranges := List (Nat × Nat)

/-- Whether each range is well formed and ends before the next one begins, the first
of them not before a given code point. -/
def Ranges.ascendingFrom : Nat → Ranges → Bool
  | _, [] => true
  | least, (low, high) :: rest =>
    Nat.ble least low && Nat.ble low high && ascendingFrom (high + 1) rest

/-- Whether a code point lies in one of the ranges, for ascending ranges. -/
def Ranges.contains : Ranges → Nat → Bool
  | [], _ => false
  | (low, high) :: rest, n =>
    if n < low then false else if n ≤ high then true else Ranges.contains rest n

/-- No range of an ascending table begins below its least code point. So the search may stop at the
first range that begins too late. -/
theorem Ranges.le_of_ascendingFrom {rs : Ranges} {least : Nat}
    (h : rs.ascendingFrom least = true) : ∀ r ∈ rs, least ≤ r.1 := by
  induction rs generalizing least with
  | nil => exact fun _ hr => absurd hr List.not_mem_nil
  | cons r rest ih =>
    obtain ⟨low, high⟩ := r
    simp only [ascendingFrom, Bool.and_eq_true, Nat.ble_eq] at h
    intro q hq
    rcases List.mem_cons.mp hq with rfl | hq
    · exact h.1.1
    · have hafter := ih h.2 q hq
      omega

/-- Stopping early loses nothing: an ascending list contains a code point exactly
when one of its ranges does. By induction on the ranges that are left, each of which
begins after those that were passed. -/
theorem Ranges.contains_iff {rs : Ranges} {least : Nat} (h : rs.ascendingFrom least = true)
    (n : Nat) : rs.contains n = true ↔ ∃ r ∈ rs, r.1 ≤ n ∧ n ≤ r.2 := by
  induction rs generalizing least with
  | nil => simp [contains]
  | cons r rest ih =>
    obtain ⟨low, high⟩ := r
    simp only [ascendingFrom, Bool.and_eq_true, Nat.ble_eq] at h
    obtain ⟨⟨-, hle⟩, hrest⟩ := h
    simp only [contains, List.mem_cons, exists_eq_or_imp]
    split
    · next hn =>
      -- the code point lies before this range, and so before all that follow
      simp only [Bool.false_eq_true, false_iff, not_or, not_exists, not_and]
      refine ⟨by omega, fun r hr hlow => ?_⟩
      have hafter := le_of_ascendingFrom hrest r hr
      omega
    · next hn =>
      split
      · next hm =>
        simp only [true_iff]
        exact Or.inl ⟨by omega, hm⟩
      · next hm =>
        rw [ih hrest]
        constructor
        · exact Or.inr
        · rintro (⟨-, hhigh⟩ | hlater)
          · omega
          · exact hlater

end ConventionalCommit.Unicode
