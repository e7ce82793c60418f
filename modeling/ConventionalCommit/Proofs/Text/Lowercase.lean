import ConventionalCommit.Proofs.Unicode.Tables
import ConventionalCommit.Text.Lowercase

/-!
# ConventionalCommit — lower case of a part of a text

The lower case of a character depends on its neighbours only through the capital
sigma, and there only on whether a letter comes next on either side. So a part of a
text has the same lower case by itself as in the text if no letter touches its two
ends (`lowercase_isInfix`), and a text that begins with the lower case of its first
character has the same lower case as before (`lowercase_toLower_append`).

* `startsCased_toLower`: a character that has a lower case form is a letter, and so is
  that form.
-/

namespace ConventionalCommit

namespace Unicode

-- ---------------------------------------------------------------------------
-- Letters and what they become
-- ---------------------------------------------------------------------------

/-- A search for a neighbouring letter stops at white space, which has no case. -/
theorem not_letter_of_isWhite {c : Char} (h : isWhite c = true) :
    isCased c = false ∧ isCaseIgnorable c = false :=
  ⟨Ranges.contains_eq_false_of_disjoint (by decide +kernel) h,
    Ranges.contains_eq_false_of_disjoint (by decide +kernel) h⟩

/-- The code points of the runs are letters, and no search passes over them. Where letters
alternate with other characters, they are checked one by one. -/
theorem lowerMapping_domain : (lowerMapping.runs.all fun r =>
    (cased.covers r.first r.last || r.points.all cased.contains) &&
      caseIgnorable.spares r.first r.last) = true := by
  decide +kernel

/-- The images of the runs are letters as well, and no search passes over them either. -/
theorem lowerMapping_image : (lowerMapping.runs.all fun r =>
    cased.covers r.low r.high && caseIgnorable.spares r.low r.high) = true := by
  decide +kernel

variable {r : Run} {n k : Nat}

/-- A character with a lower case form under a run is a letter, and a search for a letter stops at
it. -/
theorem letter_of_image? (hr : r ∈ lowerMapping.runs) (h : r.image? n = some k) :
    cased.contains n = true ∧ caseIgnorable.contains n = false := by
  obtain ⟨hfirst, hlast⟩ := Run.image?_domain h
  have hdomain := List.all_eq_true.mp lowerMapping_domain r hr
  rw [Bool.and_eq_true, Bool.or_eq_true] at hdomain
  refine ⟨?_, Ranges.contains_of_spares hdomain.2 hfirst hlast⟩
  rcases hdomain.1 with hcovers | hpoints
  · exact Ranges.contains_of_covers hcovers hfirst hlast
  · exact List.all_eq_true.mp hpoints n (Run.mem_points h)

/-- Its lower case form is a letter, and a search stops there too. -/
theorem letter_image_of_image? (hr : r ∈ lowerMapping.runs) (h : r.image? n = some k) :
    cased.contains k = true ∧ caseIgnorable.contains k = false := by
  obtain ⟨hlow, hhigh⟩ := Run.image?_bounds h
  have himage := List.all_eq_true.mp lowerMapping_image r hr
  rw [Bool.and_eq_true] at himage
  exact ⟨Ranges.contains_of_covers himage.1 hlow hhigh,
    Ranges.contains_of_spares himage.2 hlow hhigh⟩

end Unicode

namespace Text

open Unicode (isWhite isCased isCaseIgnorable toLower lowerMapping lowerMapping_closed)

variable {before before' x y rest t : Text} {c d : Char}

-- ---------------------------------------------------------------------------
-- The next letter
-- ---------------------------------------------------------------------------

@[simp] theorem startsCased_nil : startsCased [] = false := rfl

/-- A search passes the characters that count for nothing, and the next one decides. -/
theorem startsCased_cons (c : Char) (t : Text) :
    startsCased (c :: t) = if isCaseIgnorable c then startsCased t else isCased c := by
  rw [startsCased, List.dropWhile_cons]
  split
  · rfl
  · rfl

/-- White space ends a search, and no letter is found. -/
theorem startsCased_of_isWhite (h : isWhite c = true) (t : Text) :
    startsCased (c :: t) = false := by
  obtain ⟨hcased, hstop⟩ := Unicode.not_letter_of_isWhite h
  rw [startsCased_cons, hstop, if_neg Bool.false_ne_true, hcased]

theorem startsCased_append (h : startsCased rest = false) (t : Text) :
    startsCased (t ++ rest) = startsCased t := by
  induction t with
  | nil => exact h
  | cons c t ih => rw [List.cons_append, startsCased_cons, startsCased_cons, ih]

-- ---------------------------------------------------------------------------
-- Parts of a text
-- ---------------------------------------------------------------------------

/-- Of what comes before a text only the next letter matters, and of this only whether there is one.
Just the form of a sigma depends on it. -/
theorem lowercaseAfter_congr (h : startsCased before = startsCased before') (t : Text) :
    lowercaseAfter before t = lowercaseAfter before' t := by
  induction t generalizing before before' with
  | nil => rfl
  | cons c t ih =>
    have hnext : startsCased (c :: before) = startsCased (c :: before') := by
      rw [startsCased_cons, startsCased_cons, h]
    rw [lowercaseAfter, lowercaseAfter, smallSigma, smallSigma, h, ih hnext]

/-- The lower case of the end of a text is found at the end. -/
theorem lowercaseAfter_isSuffix (before x rest : Text) :
    lowercaseAfter (x.reverse ++ before) rest <:+ lowercaseAfter before (x ++ rest) := by
  induction x generalizing before with
  | nil => exact List.suffix_rfl
  | cons c x ih =>
    have hrest := ih (c :: before)
    rw [List.reverse_cons, List.append_assoc, List.singleton_append, List.cons_append,
      lowercaseAfter]
    exact hrest.trans (List.suffix_append _ _)

/-- The lower case of the start of a text is found at the start, unless a letter follows. -/
theorem lowercaseAfter_isPrefix (h : startsCased rest = false) (before x : Text) :
    lowercaseAfter before x <+: lowercaseAfter before (x ++ rest) := by
  induction x generalizing before with
  | nil => exact List.nil_prefix
  | cons c x ih =>
    rw [List.cons_append, lowercaseAfter, lowercaseAfter, smallSigma, smallSigma,
      startsCased_append h x]
    exact List.prefix_append_right_inj _ |>.mpr (ih (c :: before))

/-- A part that no letter touches has the same lower case by itself. -/
theorem lowercase_isInfix (hbefore : startsCased x.reverse = false)
    (hafter : startsCased rest = false) : lowercase y <:+: lowercase (x ++ y ++ rest) := by
  have hend := lowercaseAfter_isSuffix [] x (y ++ rest)
  rw [List.append_nil, lowercaseAfter_congr (hbefore.trans startsCased_nil.symm)] at hend
  have hstart := lowercaseAfter_isPrefix hafter [] y
  rw [lowercase, lowercase, List.append_assoc]
  exact hstart.isInfix.trans hend.isInfix

-- ---------------------------------------------------------------------------
-- A text with its first character in lower case
-- ---------------------------------------------------------------------------

/-- The lower case of a character is in lower case, as the check of the table says. -/
theorem toLower_of_mem_toLower (h : d ∈ toLower c) : toLower d = [d] := by
  have hseveral : (lowerMapping.several.all fun e => e.2.all fun d => toLower d == [d]) = true :=
    rfl
  rcases Unicode.CaseMapping.map_cases lowerMapping c with hc | ⟨r, hr, k, himage, hc⟩ | hc
  · exact beq_iff_eq.mp (List.all_eq_true.mp (List.all_eq_true.mp hseveral _ hc) d h)
  · rw [toLower, hc, List.mem_singleton] at h
    rw [h]
    exact lowerMapping_closed.map_image hr himage
  · rw [toLower, hc, List.mem_singleton] at h
    rw [h]
    exact hc

/-- The lower case of a character ends in a letter exactly if the character is one. -/
theorem startsCased_toLower (c : Char) : startsCased (toLower c).reverse = startsCased [c] := by
  have hseveral : (lowerMapping.several.all fun e =>
      startsCased e.2.reverse == startsCased [Char.ofNat e.1]) = true :=
    rfl
  rcases Unicode.CaseMapping.map_cases lowerMapping c with hc | ⟨r, hr, k, himage, hc⟩ | hc
  · have := beq_iff_eq.mp (List.all_eq_true.mp hseveral _ hc)
    rwa [Char.ofNat_toNat] at this
  · obtain ⟨hcased, hstop⟩ := Unicode.letter_of_image? hr himage
    obtain ⟨hcased', hstop'⟩ := Unicode.letter_image_of_image? hr himage
    have hk := lowerMapping_closed.toNat_ofNat hr himage
    rw [toLower, hc, List.reverse_singleton, startsCased_cons, startsCased_cons, isCaseIgnorable,
      isCaseIgnorable, isCased, isCased, hk, hcased, hstop, hcased', hstop']
  · rw [toLower, hc, List.reverse_singleton]

/-- What is in lower case stays as it is, also a small sigma, since only a capital one has its form
chosen. -/
theorem lowercaseAfter_append_of_toLower (h : ∀ d ∈ x, toLower d = [d]) (before rest : Text) :
    lowercaseAfter before (x ++ rest) = x ++ lowercaseAfter (x.reverse ++ before) rest := by
  induction x generalizing before with
  | nil => rfl
  | cons c x ih =>
    have hc := h c (List.mem_cons_self ..)
    have hsigma : c ≠ 'Σ' := by
      rintro rfl
      exact absurd hc (by decide)
    rw [List.cons_append, lowercaseAfter, if_neg hsigma, hc,
      ih (fun d hd => h d (List.mem_cons_of_mem _ hd)), List.reverse_cons]
    simp

/-- Changing the first character to lower case does not change the lower case of a text. -/
theorem lowercase_toLower_append (c : Char) (rest : Text) :
    lowercase (toLower c ++ rest) = lowercase (c :: rest) := by
  have hfirst : (if c = 'Σ' then [smallSigma [] rest] else toLower c) = toLower c := by
    split
    · next hc =>
      rw [hc, smallSigma, startsCased_nil, Bool.false_and, if_neg Bool.false_ne_true]
      rfl
    · rfl
  rw [lowercase, lowercase, lowercaseAfter,
    lowercaseAfter_append_of_toLower (fun d hd => toLower_of_mem_toLower hd), hfirst,
    List.append_nil, lowercaseAfter_congr (startsCased_toLower c)]

/-- The lower case of a text begins with that of its first character. -/
theorem toLower_isPrefix_lowercase (c : Char) (rest : Text) :
    toLower c <+: lowercase (c :: rest) := by
  rw [← lowercase_toLower_append, lowercase,
    lowercaseAfter_append_of_toLower fun d hd => toLower_of_mem_toLower hd]
  exact List.prefix_append _ _

end Text

end ConventionalCommit
