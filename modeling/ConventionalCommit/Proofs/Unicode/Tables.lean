import ConventionalCommit.Unicode.CaseMapping
import ConventionalCommit.Unicode.Cased
import ConventionalCommit.Unicode.WhiteSpace
import ConventionalCommit.Unicode.WordChar

/-!
# ConventionalCommit — what the tables of characters have in common

Facts about a whole table, proved from checks on its ranges and runs. A table
has some thousand code points but only a few hundred runs, so comparing the
runs pair by pair is what keeps the checks small.

* `contains_iff_of_mem_tables`: the search in a table, which stops early, misses nothing;
* `isWordChar_eq_false`: no white space is a word character;
* `Ranges.contains_of_covers`, `Ranges.contains_of_spares`: a check on an interval decides
  all of its code points;
* `CaseMapping.Closed`: the images of a mapping lie beside its own runs and
  beside the white space;
* `CaseMapping.Closed.map_head`: the first character of an image is its own
  image, so mapping twice changes nothing there;
* `lowerMapping_closed`, `upperMapping_closed`.
-/

namespace ConventionalCommit.Unicode

-- ---------------------------------------------------------------------------
-- The order of the ranges
-- ---------------------------------------------------------------------------

/-- The sets of characters that are asked for. -/
def tables : List Ranges := [whiteSpace, wordChars, cased, caseIgnorable]

/-- The ranges of each table are apart from each other and in order. The check looks at neighbours,
so it takes one step for each range. -/
theorem ascending_of_mem_tables : ∀ rs ∈ tables, rs.ascendingFrom 0 = true := by
  decide +kernel

/-- A code point is found in a table exactly if one of the ranges has it. The search gives up
at the first range that begins after it, which is safe only because the tables ascend. -/
theorem contains_iff_of_mem_tables {rs : Ranges} (h : rs ∈ tables) (n : Nat) :
    rs.contains n = true ↔ ∃ r ∈ rs, r.1 ≤ n ∧ n ≤ r.2 :=
  Ranges.contains_iff (ascending_of_mem_tables rs h) n

-- ---------------------------------------------------------------------------
-- Disjoint ranges
-- ---------------------------------------------------------------------------

/-- A code point of a list of ranges lies in one of them, ascending or not. -/
theorem Ranges.exists_of_contains {rs : Ranges} {n : Nat} (h : rs.contains n = true) :
    ∃ r ∈ rs, r.1 ≤ n ∧ n ≤ r.2 := by
  induction rs with
  | nil => cases h
  | cons r rest ih =>
    rw [contains] at h
    split at h
    · cases h
    · next hlow =>
      split at h
      · next hhigh => exact ⟨r, List.mem_cons_self .., by omega, hhigh⟩
      · obtain ⟨q, hq, hbounds⟩ := ih h
        exact ⟨q, List.mem_cons_of_mem _ hq, hbounds⟩

/-- Lists of ranges share no code point if no two of their ranges overlap. -/
theorem Ranges.contains_eq_false_of_disjoint {rs qs : Ranges} {n : Nat}
    (hapart : (rs.all fun r => qs.all fun q => Nat.blt r.2 q.1 || Nat.blt q.2 r.1) = true)
    (h : rs.contains n = true) : qs.contains n = false := by
  rw [Bool.eq_false_iff]
  intro hq
  obtain ⟨r, hr, hr1, hr2⟩ := exists_of_contains h
  obtain ⟨q, hq, hq1, hq2⟩ := exists_of_contains hq
  have := List.all_eq_true.mp (List.all_eq_true.mp hapart r hr) q hq
  simp only [Bool.or_eq_true, Nat.blt_eq] at this
  omega

/-- No white space is a word character. -/
theorem isWordChar_eq_false {c : Char} (h : isWhite c = true) : isWordChar c = false :=
  Ranges.contains_eq_false_of_disjoint (by decide +kernel) h

/-- No word character is white space. So a type is never trimmed, and a word does not end inside it.
-/
theorem isWhite_eq_false_of_isWordChar {c : Char} (h : isWordChar c = true) :
    isWhite c = false := by
  cases hw : isWhite c with
  | false => rfl
  | true => rw [isWordChar_eq_false hw] at h; cases h

-- ---------------------------------------------------------------------------
-- Intervals in a table
-- ---------------------------------------------------------------------------

/-- One of the ranges has the whole interval. Like the search for a code point, the
check stops at the first range that decides it. -/
def Ranges.covers : Ranges → Nat → Nat → Bool
  | [], _, _ => false
  | (low, high) :: rest, first, last =>
    Nat.ble low first && (Nat.ble last high || (Nat.blt high first && covers rest first last))

/-- None of the ranges has a part of the interval. -/
def Ranges.spares : Ranges → Nat → Nat → Bool
  | [], _, _ => true
  | (low, high) :: rest, first, last =>
    Nat.blt last low || (Nat.blt high first && spares rest first last)

/-- A table has all code points of an interval that one of its ranges covers. -/
theorem Ranges.contains_of_covers {rs : Ranges} {first last n : Nat}
    (h : rs.covers first last = true) (hfirst : first ≤ n) (hlast : n ≤ last) :
    rs.contains n = true := by
  induction rs with
  | nil => cases h
  | cons r rest ih =>
    obtain ⟨low, high⟩ := r
    simp only [covers, Bool.and_eq_true, Bool.or_eq_true, Nat.ble_eq, Nat.blt_eq] at h
    rw [contains, if_neg (by omega)]
    rcases h.2 with hhigh | ⟨hhigh, hrest⟩
    · rw [if_pos (by omega)]
    · rw [if_neg (by omega)]
      exact ih hrest

/-- A table has no code point of an interval that all of its ranges spare. -/
theorem Ranges.contains_of_spares {rs : Ranges} {first last n : Nat}
    (h : rs.spares first last = true) (hfirst : first ≤ n) (hlast : n ≤ last) :
    rs.contains n = false := by
  induction rs with
  | nil => rfl
  | cons r rest ih =>
    obtain ⟨low, high⟩ := r
    simp only [spares, Bool.and_eq_true, Bool.or_eq_true, Nat.blt_eq] at h
    rw [contains]
    rcases h with hlow | ⟨hhigh, hrest⟩
    · rw [if_pos (by omega)]
    · split
      · rfl
      · rw [if_neg (by omega)]
        exact ih hrest

-- ---------------------------------------------------------------------------
-- The images of a run
-- ---------------------------------------------------------------------------

namespace Run

/-- The code points of a run. -/
def points (r : Run) : List Nat :=
  (List.range ((r.last - r.first) / r.step + 1)).map fun i => r.first + r.step * i

/-- The least image of a run. -/
def low (r : Run) : Nat := (r.first + r.shift).toNat

/-- The greatest image of a run. -/
def high (r : Run) : Nat := (r.last + r.shift).toNat

/-- The images of a run lie after or before an interval. -/
def avoids (r : Run) (first last : Nat) : Bool := Nat.blt last r.low || Nat.blt r.high first

/-- All code points of a run are even, or all are odd. -/
def alternates (r : Run) : Bool := r.step == 2 || r.first == r.last

/-- The images of a run are no code points of another: they lie beside them, or
fall into the gaps between them. -/
def misses (r q : Run) : Bool :=
  r.avoids q.first q.last ||
    (r.alternates && q.alternates && decide (0 ≤ r.first + r.shift) &&
      r.low % 2 != q.first % 2)

/-- No image of a run is found by a search; like the search, the check stops at the
first run that begins too late. -/
def clears (r : Run) : List Run → Bool
  | [] => true
  | q :: rest => Nat.blt r.high q.first || (r.misses q && clears r rest)

/-- The images of a run are between those of its first and its last code point. -/
theorem image?_bounds {r : Run} {n k : Nat} (h : r.image? n = some k) :
    r.low ≤ k ∧ k ≤ r.high := by
  rw [image?] at h
  split at h
  · obtain rfl := Option.some.inj h
    rw [low, high]
    omega
  · cases h

/-- A code point that a run maps is one of those that are listed for it. -/
theorem mem_points {r : Run} {n k : Nat} (h : r.image? n = some k) : n ∈ r.points := by
  rw [image?] at h
  split at h
  · next hn =>
    refine List.mem_map.mpr ⟨(n - r.first) / r.step, ?_, ?_⟩
    · rw [List.mem_range, Nat.lt_succ_iff]
      exact Nat.div_le_div_right (by omega)
    · rw [Nat.mul_div_cancel' (Nat.dvd_of_mod_eq_zero hn.2.2)]
      omega
  · cases h

/-- A run maps code points between its first and its last one only. -/
theorem image?_domain {r : Run} {n k : Nat} (h : r.image? n = some k) :
    r.first ≤ n ∧ n ≤ r.last := by
  rw [image?] at h
  split at h
  · next hn => exact ⟨hn.1, hn.2.1⟩
  · cases h

/-- If the images of a run lie beside an interval, none of them is in it. -/
theorem not_mem_of_avoids {r : Run} {first last n k : Nat} (ha : r.avoids first last = true)
    (h : r.image? n = some k) : ¬ (first ≤ k ∧ k ≤ last) := by
  have := image?_bounds h
  simp only [avoids, Bool.or_eq_true, Nat.blt_eq] at ha
  omega

/-- A run in which even and odd alternate keeps the parity of its first code point. -/
theorem parity_of_alternates {r : Run} {n k : Nat} (ha : r.alternates = true)
    (h : r.image? n = some k) : n % 2 = r.first % 2 := by
  rw [image?] at h
  split at h
  · next hn =>
    obtain ⟨h1, h2, h3⟩ := hn
    simp only [alternates, Bool.or_eq_true, beq_iff_eq] at ha
    rcases ha with ha | ha
    · rw [ha] at h3
      omega
    · omega
  · cases h

/-- An image under a run that misses another is no code point of the other. -/
theorem image?_eq_none_of_misses {r q : Run} {n k : Nat} (hm : r.misses q = true)
    (h : r.image? n = some k) : q.image? k = none := by
  cases hq : q.image? k with
  | none => rfl
  | some j =>
    exfalso
    have hk := image?_domain hq
    simp only [misses, Bool.or_eq_true, Bool.and_eq_true, decide_eq_true_eq, bne_iff_ne] at hm
    -- either the images lie beside the other run, or they have the other parity
    rcases hm with hm | ⟨⟨⟨hr, hq2⟩, hpos⟩, hne⟩
    · exact not_mem_of_avoids hm h hk
    · have hn := parity_of_alternates hr h
      have hk2 := parity_of_alternates hq2 hq
      rw [image?] at h
      split at h
      · obtain rfl := Option.some.inj h
        rw [low] at hne
        omega
      · cases h

/-- What a search finds is an image under one of the runs, by induction along the search and without
use of their order. -/
theorem exists_of_search {rs : List Run} {n k : Nat} (h : search rs n = some k) :
    ∃ r ∈ rs, r.image? n = some k := by
  induction rs with
  | nil => cases h
  | cons r rest ih =>
    rw [search] at h
    split at h
    · cases h
    · cases hr : r.image? n with
      | some j =>
        rw [hr, Option.some_or] at h
        exact ⟨r, List.mem_cons_self .., hr.trans h⟩
      | none =>
        rw [hr, Option.none_or] at h
        obtain ⟨q, hq, himage⟩ := ih h
        exact ⟨q, List.mem_cons_of_mem _ hq, himage⟩

/-- An image that all runs miss is not found. The runs ascend, so the search ends where the check
does. -/
theorem search_eq_none_of_clears {r : Run} {rs : List Run} {n k : Nat}
    (hc : r.clears rs = true) (h : r.image? n = some k) : search rs k = none := by
  induction rs with
  | nil => rfl
  | cons q rest ih =>
    rw [search]
    split
    · rfl
    · next hk =>
      have hbounds := image?_bounds h
      simp only [clears, Bool.or_eq_true, Bool.and_eq_true, Nat.blt_eq] at hc
      rcases hc with hc | ⟨hm, hc⟩
      · omega
      · rw [image?_eq_none_of_misses hm h, ih hc]
        rfl

end Run

-- ---------------------------------------------------------------------------
-- Mappings whose images are at rest
-- ---------------------------------------------------------------------------

namespace CaseMapping

/-- A mapping leaves its images alone, and none of them is white space. -/
structure Closed (m : CaseMapping) : Prop where
  runs_runs : m.runs.all (fun r => r.clears m.runs) = true
  runs_several : m.runs.all (fun r => m.several.all fun e => r.avoids e.1 e.1) = true
  runs_white : m.runs.all (fun r => whiteSpace.all fun w => r.avoids w.1 w.2) = true
  runs_valid : m.runs.all (fun r => r.avoids 0xD800 0xDFFF && Nat.blt r.high 0x110000) = true
  several_head : m.several.all (fun e => e.2.head?.any fun d => m.map d == [d]) = true
  several_white : m.several.all (fun e => e.2.all fun d => !isWhite d) = true

variable {m : CaseMapping} {c d : Char}

/-- What is found under a code point is an entry of the list. -/
theorem mem_of_lookup {l : List (Nat × List Char)} {n : Nat} {cs : List Char}
    (h : l.lookup n = some cs) : (n, cs) ∈ l := by
  induction l with
  | nil => cases h
  | cons e rest ih =>
    rw [List.lookup_cons] at h
    split at h
    · next hn =>
      obtain rfl := Option.some.inj h
      rw [beq_iff_eq.mp hn]
      exact List.mem_cons_self ..
    · exact List.mem_cons_of_mem _ (ih h)

/-- A character maps to several, to its image under a run, or to itself. -/
theorem map_cases (m : CaseMapping) (c : Char) :
    (c.toNat, m.map c) ∈ m.several ∨
      (∃ r ∈ m.runs, ∃ k, r.image? c.toNat = some k ∧ m.map c = [Char.ofNat k]) ∨
      m.map c = [c] := by
  unfold map
  split
  · next cs h => exact Or.inl (mem_of_lookup h)
  · cases hs : Run.search m.runs c.toNat with
    | none => exact Or.inr (Or.inr rfl)
    | some k =>
      obtain ⟨r, hr, himage⟩ := Run.exists_of_search hs
      exact Or.inr (Or.inl ⟨r, hr, k, himage, rfl⟩)

/-- The image of a run is a character: none falls among the surrogates or behind the last code
point. -/
theorem Closed.toNat_ofNat (hm : m.Closed) {r : Run} (hr : r ∈ m.runs) {n k : Nat}
    (h : r.image? n = some k) : (Char.ofNat k).toNat = k := by
  have hk := Run.image?_bounds h
  have hvalid := List.all_eq_true.mp hm.runs_valid r hr
  rw [Bool.and_eq_true, Nat.blt_eq] at hvalid
  have hnot := Run.not_mem_of_avoids hvalid.1 h
  have : k.isValidChar := by
    unfold Nat.isValidChar
    omega
  rw [Char.ofNat, dif_pos this]
  rfl

/-- An image under a run is its own image. The check on the table asks of each run that its images
are spared by all runs. -/
theorem Closed.map_image (hm : m.Closed) {r : Run} (hr : r ∈ m.runs) {n k : Nat}
    (h : r.image? n = some k) : m.map (Char.ofNat k) = [Char.ofNat k] := by
  have hsearch : Run.search m.runs k = none :=
    Run.search_eq_none_of_clears (List.all_eq_true.mp hm.runs_runs r hr) h
  have hlookup : m.several.lookup k = none := by
    cases hl : m.several.lookup k with
    | none => rfl
    | some cs =>
      have havoids := List.all_eq_true.mp hm.runs_several r hr
      have hne := Run.not_mem_of_avoids (List.all_eq_true.mp havoids _ (mem_of_lookup hl)) h
      exact absurd ⟨Nat.le_refl k, Nat.le_refl k⟩ hne
  rw [map, hm.toNat_ofNat hr h, hlookup, hsearch]
  rfl

/-- Every character has an image, and the first character of it is at rest. -/
theorem Closed.map_head (hm : m.Closed) (c : Char) :
    ∃ d, (m.map c).head? = some d ∧ m.map d = [d] := by
  rcases map_cases m c with h | ⟨r, hr, k, himage, h⟩ | h
  · have := List.all_eq_true.mp hm.several_head _ h
    rw [Option.any_eq_true] at this
    obtain ⟨d, hd, hrest⟩ := this
    exact ⟨d, hd, beq_iff_eq.mp hrest⟩
  · exact ⟨Char.ofNat k, by rw [h]; rfl, hm.map_image hr himage⟩
  · exact ⟨c, by rw [h]; rfl, h⟩

/-- No white space comes of a character that is none. White space is no image under a run, so a form
that is white is the character itself. -/
theorem Closed.isWhite_eq_false (hm : m.Closed) (hc : isWhite c = false) (hd : d ∈ m.map c) :
    isWhite d = false := by
  -- several characters, an image under a run, or the character itself
  rcases map_cases m c with h | ⟨r, hr, k, himage, h⟩ | h
  · have := List.all_eq_true.mp (List.all_eq_true.mp hm.several_white _ h) d hd
    simpa using this
  · rw [h, List.mem_singleton] at hd
    subst hd
    rw [Bool.eq_false_iff]
    intro hw
    obtain ⟨w, hw, hbounds⟩ := Ranges.exists_of_contains hw
    rw [hm.toNat_ofNat hr himage] at hbounds
    have havoids := List.all_eq_true.mp (List.all_eq_true.mp hm.runs_white r hr) w hw
    exact Run.not_mem_of_avoids havoids himage hbounds
  · rw [h, List.mem_singleton] at hd
    rw [hd]
    exact hc

/-- A character that no run and none of the several images reaches is its own image only. -/
theorem Closed.eq_of_mem_map (hm : m.Closed)
    (hruns : m.runs.all (fun r => r.avoids d.toNat d.toNat) = true)
    (hseveral : m.several.all (fun e => !e.2.contains d) = true) (hd : d ∈ m.map c) : d = c := by
  rcases map_cases m c with h | ⟨r, hr, k, himage, h⟩ | h
  · have hnot := List.all_eq_true.mp hseveral _ h
    simp only [Bool.not_eq_true', List.contains_eq_mem, decide_eq_false_iff_not] at hnot
    exact absurd hd hnot
  · rw [h, List.mem_singleton] at hd
    subst hd
    have havoids := List.all_eq_true.mp hruns r hr
    rw [hm.toNat_ofNat hr himage] at havoids
    exact absurd ⟨Nat.le_refl k, Nat.le_refl k⟩ (Run.not_mem_of_avoids havoids himage)
  · rwa [h, List.mem_singleton] at hd

end CaseMapping

/-- Mapping to lower case leaves what is in lower case alone. Each check is evaluated on the table
once, here. -/
theorem lowerMapping_closed : lowerMapping.Closed where
  runs_runs := by decide +kernel
  runs_several := by decide +kernel
  runs_white := by decide +kernel
  runs_valid := by decide +kernel
  several_head := by decide +kernel
  several_white := by decide +kernel

/-- The same for upper case. Here several characters may come of one, and the first of them is at
rest. -/
theorem upperMapping_closed : upperMapping.Closed where
  runs_runs := by decide +kernel
  runs_several := by decide +kernel
  runs_white := by decide +kernel
  runs_valid := by decide +kernel
  several_head := by decide +kernel
  several_white := by decide +kernel

end ConventionalCommit.Unicode
