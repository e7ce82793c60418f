import ConventionalCommit.Proofs.Message.Footer
import Mathlib.Order.Bounds.Basic

/-!
# ConventionalCommit — where the sections are

The positions of body and footer in the lines of a message, said without reference to how they are
searched for (`Sections.Placed`): each is the least or the greatest position with a property that
the lines around it decide. Such positions are unique, so `Placed` determines them, and whatever
follows from it holds of the sections of every list of lines.

The definition looks at lines with text only. That no blank line stands in the footer, and that no
trailer of the last paragraph stands before it, are consequences.

* `placed_ofLines`: the sections are where they are said to be;
* `positions_ofLines`: the same as an equivalence, with the order of the positions;
* `mem_footer_iff`: the lines of the footer by their positions.
-/

namespace ConventionalCommit

open Trailer (isTrailerLine)

/-- Whether a line has more than white space. -/
def Text.hasText (l : Text) : Bool := !l.isBlank

namespace Sections

open Text (hasText)

variable {ls : List Text} {kind : Text → Bool} {bodyStart footerStart stop i : Nat} {l : Text}

/-- Whether there is a line of a certain kind at a position. -/
def lineAt (ls : List Text) (kind : Text → Bool) (i : Nat) : Bool := ls[i]?.any kind

/-- The positions of the sections: the first line under the header that has text, the position after
the last such line, and the first trailer from which on all lines up to there have text. -/
structure Placed (ls : List Text) (bodyStart footerStart stop : Nat) : Prop where
  /-- Without a line with text under the header, the body would start after all lines. -/
  first_text : IsLeast {i | min 1 ls.length ≤ i ∧ (lineAt ls hasText i = true ∨ i = ls.length)}
    bodyStart
  last_text : IsGreatest {j | (∃ i, bodyStart ≤ i ∧ lineAt ls hasText i = true ∧ j = i + 1) ∨
    j = bodyStart} stop
  footer : bodyStart < stop → lineAt ls isTrailerLine (stop - 1) = true →
    IsLeast {i | bodyStart ≤ i ∧ i < stop ∧ lineAt ls isTrailerLine i = true ∧
      ∀ j, i ≤ j → j < stop → lineAt ls hasText j = true} footerStart
  no_footer : ¬ (bodyStart < stop ∧ lineAt ls isTrailerLine (stop - 1) = true) →
    footerStart = stop

-- ---------------------------------------------------------------------------
-- What follows from the positions
-- ---------------------------------------------------------------------------

theorem lt_length_of_lineAt (h : lineAt ls kind i = true) : i < ls.length := by
  obtain ⟨l, hl, -⟩ := Option.any_eq_true _ _ |>.mp h
  exact (List.getElem?_eq_some_iff.mp hl).1

/-- A trailer has text. So the footer, which begins and ends in a trailer, is found among the lines
with text. -/
theorem hasText_of_isTrailerLine (h : isTrailerLine l = true) : hasText l = true := by
  rw [hasText, Trailer.isBlank_eq_false h]
  rfl

theorem lineAt_hasText_of_trailer (h : lineAt ls isTrailerLine i = true) :
    lineAt ls hasText i = true := by
  obtain ⟨l, hl, htrailer⟩ := Option.any_eq_true _ _ |>.mp h
  exact Option.any_eq_true _ _ |>.mpr ⟨l, hl, hasText_of_isTrailerLine htrailer⟩

namespace Placed

/-- The greatest position of the last line with text is not before the body, also if no line has
text. -/
theorem bodyStart_le_stop (h : Placed ls bodyStart footerStart stop) : bodyStart ≤ stop :=
  h.last_text.2 (Or.inr rfl)

theorem stop_le_length (h : Placed ls bodyStart footerStart stop) : stop ≤ ls.length := by
  rcases h.last_text.1 with ⟨i, -, htext, hstop⟩ | hstop
  · have hlt := lt_length_of_lineAt htext
    omega
  · rw [hstop]
    exact h.first_text.2 ⟨Nat.min_le_right _ _, Or.inr rfl⟩

/-- Either there is a footer, which starts at the least position with the property, or not. -/
theorem footerStart_cases (h : Placed ls bodyStart footerStart stop) :
    (footerStart < stop ∧ lineAt ls isTrailerLine (stop - 1) = true ∧
      IsLeast {i | bodyStart ≤ i ∧ i < stop ∧ lineAt ls isTrailerLine i = true ∧
        ∀ j, i ≤ j → j < stop → lineAt ls hasText j = true} footerStart) ∨
      footerStart = stop := by
  by_cases hlast : bodyStart < stop ∧ lineAt ls isTrailerLine (stop - 1) = true
  · have hleast := h.footer hlast.1 hlast.2
    exact Or.inl ⟨hleast.1.2.1, hlast.2, hleast⟩
  · exact Or.inr (h.no_footer hlast)

theorem bodyStart_le_footerStart (h : Placed ls bodyStart footerStart stop) :
    bodyStart ≤ footerStart := by
  rcases h.footerStart_cases with ⟨-, -, hleast⟩ | hstop
  · exact hleast.1.1
  · have := h.bodyStart_le_stop
    omega

theorem footerStart_le_stop (h : Placed ls bodyStart footerStart stop) : footerStart ≤ stop := by
  rcases h.footerStart_cases with ⟨hlt, -, -⟩ | hstop
  · exact Nat.le_of_lt hlt
  · exact Nat.le_of_eq hstop

theorem text_of_footer (h : Placed ls bodyStart footerStart stop) (hfirst : footerStart ≤ i)
    (hlast : i < stop) : lineAt ls hasText i = true := by
  rcases h.footerStart_cases with ⟨-, -, hleast⟩ | hstop
  · exact hleast.1.2.2.2 i hfirst hlast
  · omega

/-- Between a trailer before the footer and the footer there is a line without text. -/
theorem exists_blank_of_trailer (h : Placed ls bodyStart footerStart stop)
    (hfooter : footerStart < stop) (hbody : bodyStart ≤ i) (hi : i < footerStart)
    (htrailer : lineAt ls isTrailerLine i = true) :
    ∃ j, i < j ∧ j < footerStart ∧ lineAt ls hasText j = false := by
  rcases h.footerStart_cases with ⟨-, -, hleast⟩ | hstop
  · by_contra hno
    have hall : ∀ j, i ≤ j → j < stop → lineAt ls hasText j = true := by
      intro j hij hj
      by_cases hfirst : footerStart ≤ j
      · exact h.text_of_footer hfirst hj
      · rcases Nat.eq_or_lt_of_le hij with rfl | hlt
        · exact lineAt_hasText_of_trailer htrailer
        · rw [← Bool.not_eq_false]
          exact fun hblank => hno ⟨j, hlt, by omega, hblank⟩
    -- then the footer would start at `i`, since it starts as early as it can
    have hle := hleast.2 ⟨hbody, by omega, htrailer, hall⟩
    omega
  · omega

/-- There is one way to place the sections. Each position is the least or the greatest one with its
property, and such a position is unique. -/
theorem unique (h : Placed ls bodyStart footerStart stop) {bodyStart' footerStart' stop' : Nat}
    (h' : Placed ls bodyStart' footerStart' stop') :
    bodyStart = bodyStart' ∧ footerStart = footerStart' ∧ stop = stop' := by
  obtain rfl := h.first_text.unique h'.first_text
  obtain rfl := h.last_text.unique h'.last_text
  refine ⟨rfl, ?_, rfl⟩
  by_cases hlast : bodyStart < stop ∧ lineAt ls isTrailerLine (stop - 1) = true
  · exact (h.footer hlast.1 hlast.2).unique (h'.footer hlast.1 hlast.2)
  · rw [h.no_footer hlast, h'.no_footer hlast]

end Placed

-- ---------------------------------------------------------------------------
-- The lines at the positions
-- ---------------------------------------------------------------------------

/-- The lines are the header, the blank lines under it, the lines from the first with text to the
last one, and blank lines. No line is lost or counted twice. -/
theorem append_core (ls : List Text) : (ofLines ls).header ++ ((ofLines ls).gap ++
    (core (ls.drop 1) ++ (ofLines ls).trailing)) = ls := by
  rw [← beforeFooter_append_footerOf (core (ls.drop 1)), List.append_assoc]
  exact append_eq ls

theorem isBlank_of_mem_gap (h : l ∈ (ofLines ls).gap) : l.isBlank = true := Text.of_mem_takeWhile h

theorem isBlank_of_mem_trailing (h : l ∈ (ofLines ls).trailing) : l.isBlank = true :=
  Text.of_mem_takeWhile (List.mem_reverse.mp h)

theorem stop_eq (ls : List Text) :
    (ofLines ls).stop = (ofLines ls).bodyStart + (core (ls.drop 1)).length := by
  rw [← beforeFooter_append_footerOf (core (ls.drop 1)), List.length_append, ← Nat.add_assoc]
  rfl

/-- What is left when the blank lines under the header are passed. -/
theorem core_append_trailing (ls : List Text) :
    core (ls.drop 1) ++ (ofLines ls).trailing = (ls.drop 1).dropWhile Text.isBlank := by
  show (List.dropWhile _ _).reverse ++ (List.takeWhile _ _).reverse = _
  rw [← List.reverse_append, List.takeWhile_append_dropWhile, List.reverse_reverse]

theorem isBlank_head_content (h : l ∈ (core (ls.drop 1) ++ (ofLines ls).trailing).head?) :
    l.isBlank = false := by
  have hhead := List.head?_dropWhile_not Text.isBlank (ls.drop 1)
  rw [← core_append_trailing, Option.mem_def.mp h] at hhead
  simpa using hhead

/-- If no line under the header has text, there are no lines after the gap. -/
theorem trailing_eq_nil (h : core (ls.drop 1) = []) : (ofLines ls).trailing = [] := by
  cases htrailing : (ofLines ls).trailing with
  | nil => rfl
  | cons l rest =>
    have hblank : l.isBlank = true :=
      isBlank_of_mem_trailing (by rw [htrailing]; exact List.mem_cons_self ..)
    have htext : l.isBlank = false := isBlank_head_content (by rw [h, htrailing]; rfl)
    rw [hblank] at htext
    cases htext

/-- A position in the first of two lists is a position in both. -/
theorem lineAt_append_left {xs : List Text} (h : i < xs.length) (ys : List Text) :
    lineAt (xs ++ ys) kind i = lineAt xs kind i := by
  rw [lineAt, List.getElem?_append_left h, lineAt]

/-- A position behind the first of two lists is one in the second, counted from there. -/
theorem lineAt_append_right {xs : List Text} (h : xs.length ≤ i) (ys : List Text) :
    lineAt (xs ++ ys) kind i = lineAt ys kind (i - xs.length) := by
  rw [lineAt, List.getElem?_append_right h, lineAt]

/-- Nowhere in a list of blank lines is a line with text. -/
theorem lineAt_hasText_of_blank (h : ∀ l ∈ ls, l.isBlank = true) (i : Nat) :
    lineAt ls hasText i = false := by
  rw [lineAt, Option.any_eq_false]
  intro l hl
  rw [hasText, h l (List.mem_of_getElem? hl)]
  decide

theorem lineAt_of_bodyStart_le (h : (ofLines ls).bodyStart ≤ i) : lineAt ls kind i =
    lineAt (core (ls.drop 1) ++ (ofLines ls).trailing) kind (i - (ofLines ls).bodyStart) := by
  have hlines := append_core ls
  rw [← List.append_assoc] at hlines
  conv_lhs => rw [← hlines]
  rw [bodyStart, ← List.length_append] at h ⊢
  exact lineAt_append_right h _

/-- Between the header and the body no line has text. -/
theorem lineAt_gap (hheader : min 1 ls.length ≤ i) (hbody : i < (ofLines ls).bodyStart) :
    lineAt ls hasText i = false := by
  have hlines := append_core ls
  have hlength : (ofLines ls).header.length = min 1 ls.length := List.length_take
  rw [bodyStart] at hbody
  conv_lhs => rw [← hlines]
  rw [lineAt_append_right (by omega), lineAt_append_left (by omega)]
  exact lineAt_hasText_of_blank (fun l => isBlank_of_mem_gap) _

theorem lineAt_trailing (h : (ofLines ls).stop ≤ i) : lineAt ls hasText i = false := by
  rw [stop_eq] at h
  rw [lineAt_of_bodyStart_le (by omega), lineAt_append_right (by omega)]
  exact lineAt_hasText_of_blank (fun l => isBlank_of_mem_trailing) _

/-- The lines that hold body and footer, counted from the start of the body. -/
theorem lineAt_core (h : i < (core (ls.drop 1)).length) :
    lineAt ls kind ((ofLines ls).bodyStart + i) = lineAt (core (ls.drop 1)) kind i := by
  rw [lineAt_of_bodyStart_le (Nat.le_add_right _ _), Nat.add_sub_cancel_left,
    lineAt_append_left h]

/-- The last line by its position. If there is no line, the position is 0 and there is none at it
either. -/
theorem lineAt_last (xs : List Text) : lineAt xs kind (xs.length - 1) = xs.getLast?.any kind := by
  rw [lineAt, ← List.getLast?_eq_getElem?]

/-- A position inside a list has a line, and its kind is that of the line. -/
theorem lineAt_getElem {xs : List Text} (h : i < xs.length) : lineAt xs kind i = kind xs[i] := by
  rw [lineAt, List.getElem?_eq_getElem h, Option.any_some]

-- ---------------------------------------------------------------------------
-- The sections are placed
-- ---------------------------------------------------------------------------

/-- Behind the last line with text come the blank ones and nothing else. -/
theorem length_eq (ls : List Text) :
    ls.length = (ofLines ls).stop + (ofLines ls).trailing.length := by
  conv_lhs => rw [← append_core ls]
  rw [stop_eq, bodyStart]
  simp only [List.length_append]
  omega

/-- The body starts at the first line under the header that has text. If there is none, it starts
behind all lines. -/
theorem isLeast_bodyStart (ls : List Text) :
    IsLeast {i | min 1 ls.length ≤ i ∧ (lineAt ls hasText i = true ∨ i = ls.length)}
      (ofLines ls).bodyStart := by
  have hheader : (ofLines ls).header.length = min 1 ls.length := List.length_take
  have hstop := stop_eq ls
  have hlength := length_eq ls
  refine ⟨⟨?_, ?_⟩, ?_⟩
  · rw [← hheader]
    exact Nat.le_add_right _ _
  · cases hcore : core (ls.drop 1) with
    | nil =>
      right
      rw [hcore, List.length_nil] at hstop
      rw [trailing_eq_nil hcore, List.length_nil] at hlength
      omega
    | cons l rest =>
      left
      have hl : l.isBlank = false := isBlank_head_core _ l (by rw [hcore]; rfl)
      have hfirst : lineAt ls hasText ((ofLines ls).bodyStart + 0) =
          lineAt (core (ls.drop 1)) hasText 0 :=
        lineAt_core (by rw [hcore]; exact Nat.succ_pos _)
      rw [Nat.add_zero] at hfirst
      rw [hfirst, hcore, lineAt_getElem (by simp), List.getElem_cons_zero, hasText, hl]
      rfl
  · rintro i ⟨hmin, htext | hend⟩
    · -- a line before the body stands in the gap and is blank
      by_contra hlt
      rw [lineAt_gap hmin (by omega)] at htext
      cases htext
    · omega

/-- The sections stop behind the last line with text, or they are empty and stop where the body
starts. -/
theorem isGreatest_stop (ls : List Text) :
    IsGreatest {j | (∃ i, (ofLines ls).bodyStart ≤ i ∧ lineAt ls hasText i = true ∧ j = i + 1) ∨
      j = (ofLines ls).bodyStart} (ofLines ls).stop := by
  have hstop := stop_eq ls
  refine ⟨?_, ?_⟩
  · by_cases hcore : (core (ls.drop 1)).length = 0
    · right
      omega
    · left
      refine ⟨(ofLines ls).bodyStart + ((core (ls.drop 1)).length - 1), Nat.le_add_right _ _, ?_,
        by omega⟩
      rw [lineAt_core (by omega), lineAt_last]
      have hne : core (ls.drop 1) ≠ [] := fun hnil => hcore (by rw [hnil]; rfl)
      have hl := List.getLast?_eq_some_getLast hne
      rw [hl, Option.any_some, hasText, isBlank_getLast_core _ _ hl]
      rfl
  · rintro j (⟨i, hbody, htext, rfl⟩ | rfl)
    · -- a line behind the sections is blank
      by_contra hlt
      rw [lineAt_trailing (by omega)] at htext
      cases htext
    · omega

/-- Between a trailer before a footer and the footer there is a line without text. -/
theorem exists_blank_of_beforeFooter {xs : List Text} (h : footerOf xs ≠ [])
    (hi : i < (beforeFooter xs).length) (htrailer : lineAt xs isTrailerLine i = true) :
    ∃ j, i ≤ j ∧ j < xs.length ∧ lineAt xs hasText j = false := by
  obtain ⟨front, part, hbefore, hfront, hpart⟩ := exists_beforeFooter h
  have hsplit := beforeFooter_append_footerOf xs
  have hlength : (beforeFooter xs).length ≤ xs.length := by
    conv_rhs => rw [← hsplit]
    rw [List.length_append]
    omega
  have hbelow : ∀ (kind : Text → Bool) (k : Nat), k < (beforeFooter xs).length →
      lineAt xs kind k = lineAt (front ++ part) kind k := by
    intro kind k hk
    conv_lhs => rw [← hsplit]
    rw [lineAt_append_left hk, hbefore]
  rw [hbelow _ i hi] at htrailer
  rw [hbefore, List.length_append] at hi hlength
  -- either the trailer stands in an earlier paragraph, or in lines that are no trailers
  by_cases hin : i < front.length
  · -- the last line before the paragraph of the footer is blank
    refine ⟨front.length - 1, by omega, by omega, ?_⟩
    rw [hbelow _ _ (by rw [hbefore, List.length_append]; omega), lineAt_append_left (by omega),
      lineAt_last, Option.any_eq_false]
    intro l hl
    rw [hasText, hfront l hl]
    decide
  · rw [lineAt_append_right (by omega), lineAt_getElem (by omega),
      (hpart _ (List.getElem_mem _)).2] at htrailer
    cases htrailer

theorem footerStart_eq (ls : List Text) : (ofLines ls).footerStart =
    (ofLines ls).bodyStart + (beforeFooter (core (ls.drop 1))).length := rfl

/-- A footer starts at the first trailer from which on no line is blank. An earlier trailer has a
blank line behind it, since the search goes up through one paragraph only. -/
theorem isLeast_footerStart (h : footerOf (core (ls.drop 1)) ≠ []) :
    IsLeast {i | (ofLines ls).bodyStart ≤ i ∧ i < (ofLines ls).stop ∧
      lineAt ls isTrailerLine i = true ∧
        ∀ j, i ≤ j → j < (ofLines ls).stop → lineAt ls hasText j = true}
      (ofLines ls).footerStart := by
  have hstop := stop_eq ls
  have hfooter : 0 < (footerOf (core (ls.drop 1))).length := List.length_pos_iff.mpr h
  have hsplit := beforeFooter_append_footerOf (core (ls.drop 1))
  have hlength := congrArg List.length hsplit
  rw [List.length_append] at hlength
  -- positions in the footer, counted from the start of the body
  have hin : ∀ (kind : Text → Bool) (k : Nat), (beforeFooter (core (ls.drop 1))).length ≤ k →
      k < (core (ls.drop 1)).length → lineAt ls kind ((ofLines ls).bodyStart + k) =
        lineAt (footerOf (core (ls.drop 1))) kind
          (k - (beforeFooter (core (ls.drop 1))).length) := by
    intro kind k hk hlt
    rw [lineAt_core hlt]
    conv_lhs => rw [← hsplit]
    exact lineAt_append_right hk _
  refine ⟨⟨?_, ?_, ?_, fun j hj hlt => ?_⟩, ?_⟩
  · rw [footerStart_eq]
    omega
  · rw [footerStart_eq]
    omega
  · rw [footerStart_eq, hin _ _ (Nat.le_refl _) (by omega), Nat.sub_self, lineAt,
      ← List.head?_eq_getElem?]
    exact (footerOf_ends h).1
  · rw [footerStart_eq] at hj
    obtain ⟨k, rfl⟩ : ∃ k, j = (ofLines ls).bodyStart + k := ⟨j - (ofLines ls).bodyStart, by omega⟩
    rw [hin _ k (by omega) (by omega), lineAt_getElem (by omega), hasText,
      isBlank_of_mem_footerOf (List.getElem_mem _)]
    rfl
  · rintro i ⟨hbody, hlt, htrailer, htext⟩
    obtain ⟨k, rfl⟩ : ∃ k, i = (ofLines ls).bodyStart + k := ⟨i - (ofLines ls).bodyStart, by omega⟩
    by_contra hbefore
    rw [footerStart_eq] at hbefore
    rw [lineAt_core (by omega)] at htrailer
    obtain ⟨j, hj, hjlt, hblank⟩ := exists_blank_of_beforeFooter h (by omega) htrailer
    have := htext ((ofLines ls).bodyStart + j) (by omega) (by omega)
    rw [lineAt_core hjlt, hblank] at this
    cases this

/-- The sections of any lines are where they are said to be. The positions are lengths of fronts of
the lines, and each condition is about what stands at the border of two sections. -/
theorem placed_ofLines (ls : List Text) :
    Placed ls (ofLines ls).bodyStart (ofLines ls).footerStart (ofLines ls).stop := by
  have hstop := stop_eq ls
  -- there is a footer exactly if the last line with text is a trailer
  have hiff : (ofLines ls).bodyStart < (ofLines ls).stop ∧
      lineAt ls isTrailerLine ((ofLines ls).stop - 1) = true ↔
        footerOf (core (ls.drop 1)) ≠ [] := by
    rw [Ne, footerOf_eq_nil_iff, Bool.not_eq_false, ← lineAt_last]
    constructor
    · rintro ⟨hlt, htrailer⟩
      have hlast : (ofLines ls).stop - 1 =
          (ofLines ls).bodyStart + ((core (ls.drop 1)).length - 1) := by omega
      rwa [hlast, lineAt_core (by omega)] at htrailer
    · intro htrailer
      have hlt := lt_length_of_lineAt htrailer
      have hlast : (ofLines ls).stop - 1 =
          (ofLines ls).bodyStart + ((core (ls.drop 1)).length - 1) := by omega
      rw [hlast, lineAt_core hlt]
      exact ⟨by omega, htrailer⟩
  refine ⟨isLeast_bodyStart ls, isGreatest_stop ls, fun hlt htrailer => ?_, fun hno => ?_⟩
  · exact isLeast_footerStart (hiff.mp ⟨hlt, htrailer⟩)
  · have hnone : footerOf (core (ls.drop 1)) = [] := by
      by_contra h
      exact hno (hiff.mpr h)
    rw [stop, ofLines_footer, hnone]
    rfl

/-- The body is what stands between its start and the footer. -/
theorem body_eq (ls : List Text) :
    (ofLines ls).body = (ls.take (ofLines ls).footerStart).drop (ofLines ls).bodyStart := by
  have hlines := append_eq ls
  rw [← List.append_assoc] at hlines
  have hdrop : ls.drop (ofLines ls).bodyStart =
      (ofLines ls).body ++ ((ofLines ls).footer ++ (ofLines ls).trailing) := by
    have hcut := congrArg (List.drop (ofLines ls).bodyStart) hlines
    rw [bodyStart, ← List.length_append, List.drop_left] at hcut
    rw [bodyStart, ← List.length_append, hcut]
  rw [List.drop_take, hdrop, footerStart, Nat.add_sub_cancel_left, List.take_left]

/-- The footer is what stands between its start and the last line with text. -/
theorem footer_eq (ls : List Text) :
    (ofLines ls).footer = (ls.take (ofLines ls).stop).drop (ofLines ls).footerStart := by
  have hlines := append_eq ls
  rw [← List.append_assoc, ← List.append_assoc] at hlines
  have hdrop : ls.drop (ofLines ls).footerStart =
      (ofLines ls).footer ++ (ofLines ls).trailing := by
    have hcut := congrArg (List.drop (ofLines ls).footerStart) hlines
    rw [footerStart, bodyStart, ← List.length_append, ← List.length_append, List.drop_left] at hcut
    rw [footerStart, bodyStart, ← List.length_append, ← List.length_append, hcut]
  rw [List.drop_take, hdrop, stop, Nat.add_sub_cancel_left, List.take_left]

/-- The lines of the footer by their positions. -/
theorem mem_footer_iff {l : Text} : l ∈ (ofLines ls).footer ↔
    ∃ i, (ofLines ls).footerStart ≤ i ∧ i < (ofLines ls).stop ∧ ls[i]? = some l := by
  rw [footer_eq, List.mem_iff_getElem?]
  constructor
  · rintro ⟨i, hi⟩
    rw [List.getElem?_drop, List.getElem?_take] at hi
    split at hi
    · next hlt => exact ⟨(ofLines ls).footerStart + i, Nat.le_add_right _ _, hlt, hi⟩
    · cases hi
  · rintro ⟨i, hfirst, hlast, hi⟩
    refine ⟨i - (ofLines ls).footerStart, ?_⟩
    rw [List.getElem?_drop, Nat.add_sub_cancel' hfirst, List.getElem?_take, if_pos hlast, hi]

/--
The positions of the sections are the only ones that are placed as they should be. So the body does
not start after the footer, and the footer neither starts after the last line with text nor has a
line without text; if there is a footer, no trailer of its paragraph stands before it.
-/
theorem positions_ofLines (ls : List Text) :
    (∀ bodyStart footerStart stop, Placed ls bodyStart footerStart stop ↔
      bodyStart = (ofLines ls).bodyStart ∧ footerStart = (ofLines ls).footerStart ∧
        stop = (ofLines ls).stop) ∧
      (ofLines ls).body = (ls.take (ofLines ls).footerStart).drop (ofLines ls).bodyStart ∧
      (ofLines ls).footer = (ls.take (ofLines ls).stop).drop (ofLines ls).footerStart ∧
      (ofLines ls).bodyStart ≤ (ofLines ls).footerStart ∧
      (ofLines ls).footerStart ≤ (ofLines ls).stop ∧
      (ofLines ls).stop ≤ ls.length ∧
      (∀ i, (ofLines ls).footerStart ≤ i → i < (ofLines ls).stop → lineAt ls hasText i = true) ∧
      ((ofLines ls).footerStart < (ofLines ls).stop →
        ∀ i, (ofLines ls).bodyStart ≤ i → i < (ofLines ls).footerStart →
          lineAt ls isTrailerLine i = true →
            ∃ j, i < j ∧ j < (ofLines ls).footerStart ∧ lineAt ls hasText j = false) := by
  have hplaced := placed_ofLines ls
  refine ⟨fun bodyStart footerStart stop => ⟨fun h => h.unique hplaced, ?_⟩, body_eq ls,
    footer_eq ls, hplaced.bodyStart_le_footerStart, hplaced.footerStart_le_stop,
    hplaced.stop_le_length, fun i => hplaced.text_of_footer,
    fun hfooter i => hplaced.exists_blank_of_trailer hfooter⟩
  rintro ⟨rfl, rfl, rfl⟩
  exact hplaced

end Sections

end ConventionalCommit
