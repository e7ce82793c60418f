import ConventionalCommit.Message.Sections
import ConventionalCommit.Proofs.Text.Rows
import ConventionalCommit.Proofs.Unicode.Tables

/-!
# ConventionalCommit — which lines are the footer

The footer of a list of lines, without reference to how it is searched for. It
is part of the last paragraph, so a blank line hides all that stands before it
(`footerOf_append_blank`), and it reaches from a trailer to a trailer
(`footerOf_ends`).

* `footerOf_eq_nil_iff`: there is none exactly if the last line is no trailer;
* `Sections.core`: the lines between the blank ones at the two ends, which
  body and footer share (`core_eq_append`).
-/

namespace ConventionalCommit

open Unicode (isWhite)

-- ---------------------------------------------------------------------------
-- Trailers
-- ---------------------------------------------------------------------------

namespace Trailer

theorem toNat_of_isCapital {c : Char} (h : isCapital c = true) : 65 ≤ c.toNat ∧ c.toNat ≤ 90 := by
  simp only [isCapital, Bool.and_eq_true, decide_eq_true_eq, Char.le_def] at h
  exact h

/-- A capital is in none of the ranges of white space. -/
theorem isWhite_eq_false_of_isCapital {c : Char} (h : isCapital c = true) :
    isWhite c = false := by
  have hc := toNat_of_isCapital h
  rw [Bool.eq_false_iff]
  intro hw
  obtain ⟨r, hr, hbounds⟩ := Unicode.Ranges.exists_of_contains hw
  simp only [Unicode.whiteSpace, List.mem_cons, List.not_mem_nil, or_false] at hr
  rcases hr with rfl | rfl | rfl | rfl | rfl | rfl | rfl | rfl | rfl | rfl <;>
    (dsimp only at hbounds; omega)

/-- A trailer begins with a character that is not white space, a capital letter. So trimming leaves
the start of a footer alone. -/
theorem isTrailerLine_head {line : Text} (h : isTrailerLine line = true) :
    ∃ c rest, line = c :: rest ∧ isWhite c = false := by
  cases line with
  | nil => exact absurd h (by decide)
  | cons c rest =>
    refine ⟨c, rest, rfl, ?_⟩
    rw [isTrailerLine, Bool.or_eq_true] at h
    rcases h with h | h
    · simp only [startsWithWord, Bool.and_eq_true] at h
      exact isWhite_eq_false_of_isCapital h.1.1
    · rw [startsWithBreakingKey, Bool.and_eq_true, List.isPrefixOf_iff_prefix] at h
      obtain ⟨tail, htail⟩ := h.1
      obtain rfl : 'B' = c := (List.cons.inj htail).1
      decide

/-- A trailer is not blank. So a footer has a first and a last line that show. -/
theorem isBlank_eq_false {line : Text} (h : isTrailerLine line = true) :
    line.isBlank = false := by
  obtain ⟨c, rest, rfl, hc⟩ := isTrailerLine_head h
  exact Text.isBlank_eq_false_of_mem (List.mem_cons_self ..) hc

/-- Whether a value follows is decided by the first two characters behind the key, so more text
makes no difference. -/
theorem startsValue_append {t : Text} (h : startsValue t = true) (w : Text) :
    startsValue (t ++ w) = true := by
  unfold startsValue at h
  split at h
  · exact h
  · cases h

/-- A line stays a trailer however it goes on. The pattern asks for the key, the colon and one
character of white space, and looks at nothing behind them. -/
theorem isTrailerLine_append {line : Text} (h : isTrailerLine line = true) (w : Text) :
    isTrailerLine (line ++ w) = true := by
  rw [isTrailerLine, Bool.or_eq_true] at h ⊢
  rcases h with h | h
  · left
    cases line with
    | nil => cases h
    | cons c rest =>
      simp only [startsWithWord, Bool.and_eq_true] at h
      obtain ⟨⟨hc, hkey⟩, hvalue⟩ := h
      -- what follows the key is not empty, so the key ends where it did
      have hne : (rest.dropWhile isKeyChar).isEmpty = false := by
        cases hd : rest.dropWhile isKeyChar with
        | nil => rw [hd] at hvalue; cases hvalue
        | cons _ _ => rfl
      have hdrop : (rest ++ w).dropWhile isKeyChar = rest.dropWhile isKeyChar ++ w := by
        rw [List.dropWhile_append, hne]
        rfl
      have htake : ((rest ++ w).takeWhile isKeyChar).isEmpty = false := by
        cases rest with
        | nil => cases hkey
        | cons k others =>
          rw [List.cons_append, List.takeWhile_cons] at *
          split at hkey
          · next hk => rw [if_pos hk]; rfl
          · cases hkey
      simp only [List.cons_append, startsWithWord, Bool.and_eq_true]
      exact ⟨⟨hc, by rw [htake]; rfl⟩, by rw [hdrop]; exact startsValue_append hvalue w⟩
  · right
    rw [startsWithBreakingKey, Bool.and_eq_true, List.isPrefixOf_iff_prefix] at h ⊢
    obtain ⟨⟨tail, rfl⟩, hvalue⟩ := h
    rw [List.drop_left] at hvalue
    rw [List.append_assoc, List.drop_left]
    exact ⟨List.prefix_append _ _, startsValue_append hvalue w⟩

end Trailer

open Trailer (isTrailerLine)

namespace Sections

variable {xs ys ls : List Text} {l : Text}

-- ---------------------------------------------------------------------------
-- The last paragraph
-- ---------------------------------------------------------------------------

theorem isBlank_of_mem_lastParagraph (h : l ∈ lastParagraph ls) : l.isBlank = false := by
  rw [lastParagraph, List.mem_reverse] at h
  simpa using Text.of_mem_takeWhile h

theorem lastParagraph_eq_self (h : ∀ l ∈ ls, l.isBlank = false) : lastParagraph ls = ls := by
  have hall : ∀ l ∈ ls.reverse, (fun l : Text => !l.isBlank) l = true := fun l hl => by
    simp [h l (List.mem_reverse.mp hl)]
  rw [lastParagraph, List.takeWhile_eq_self_iff.mpr hall, List.reverse_reverse]

/-- Nothing before a blank line is in the last paragraph. -/
theorem lastParagraph_append_blank (hl : l.isBlank = true) (xs ys : List Text) :
    lastParagraph (xs ++ l :: ys) = lastParagraph ys := by
  rw [lastParagraph, lastParagraph, List.reverse_append, List.reverse_cons, List.append_assoc,
    List.takeWhile_append]
  split
  · next h =>
    rw [List.singleton_append, List.takeWhile_cons_of_neg (by simp [hl]), List.append_nil,
      (List.takeWhile_prefix _).eq_of_length h]
  · rfl

/-- The last line is in the last paragraph, unless it is blank, in which case that paragraph is
empty. -/
theorem mem_lastParagraph_of_getLast? (h : ls.getLast? = some l) (hl : l.isBlank = false) :
    l ∈ lastParagraph ls := by
  obtain ⟨front, rfl⟩ := List.getLast?_eq_some_iff.mp h
  rw [lastParagraph, List.mem_reverse, List.reverse_append, List.reverse_singleton,
    List.singleton_append, List.takeWhile_cons_of_pos (by simp [hl])]
  exact List.mem_cons_self ..

-- ---------------------------------------------------------------------------
-- The footer
-- ---------------------------------------------------------------------------

/-- Where the last line is no trailer, there is no footer, whatever stands above it. -/
theorem footerOf_eq_nil (h : ls.getLast?.any isTrailerLine = false) : footerOf ls = [] := by
  rw [footerOf, if_neg (by simp [h])]

/-- There is a footer exactly if the last line is a trailer. The lines above it only decide how far
up the footer goes. -/
theorem footerOf_eq_nil_iff : footerOf ls = [] ↔ ls.getLast?.any isTrailerLine = false := by
  refine ⟨fun h => ?_, footerOf_eq_nil⟩
  rw [Bool.eq_false_iff]
  intro hany
  rw [footerOf, if_pos hany, List.dropWhile_eq_nil_iff] at h
  obtain ⟨l, hl, htrailer⟩ := Option.any_eq_true _ _ |>.mp hany
  have := h l (mem_lastParagraph_of_getLast? hl (Trailer.isBlank_eq_false htrailer))
  simp [htrailer] at this

/-- A footer is part of a paragraph, so it has no blank line. -/
theorem isBlank_of_mem_footerOf (h : l ∈ footerOf ls) : l.isBlank = false := by
  rw [footerOf] at h
  split at h
  · exact isBlank_of_mem_lastParagraph ((List.dropWhile_suffix _).subset h)
  · cases h

/-- A footer begins with a trailer and ends with one, unless there is none. What stands between the
two may be any lines with text. -/
theorem footerOf_ends (h : footerOf ls ≠ []) :
    (footerOf ls).head?.any isTrailerLine = true ∧
      (footerOf ls).getLast?.any isTrailerLine = true := by
  have hany : ls.getLast?.any isTrailerLine = true := by
    rw [← Bool.not_eq_false]
    exact fun hn => h (footerOf_eq_nil hn)
  constructor
  · have hhead := List.head?_dropWhile_not (fun l => !isTrailerLine l) (lastParagraph ls)
    rw [footerOf, if_pos hany] at h ⊢
    revert hhead
    cases hd : (lastParagraph ls).dropWhile (fun l => !isTrailerLine l) with
    | nil => exact absurd hd h
    | cons l rest => simp
  · -- a footer is what the lines end in
    obtain ⟨front, hfront⟩ := footerOf_suffix ls
    rw [← hfront, List.getLast?_append_of_ne_nil _ h] at hany
    exact hany

/-- A blank line hides what stands before it, because the search goes up from the end and stops
there. -/
theorem footerOf_append_blank (hl : l.isBlank = true) (xs ys : List Text) :
    footerOf (xs ++ l :: ys) = footerOf ys := by
  have hno : isTrailerLine l = false := by
    rw [Bool.eq_false_iff]
    intro h
    rw [Trailer.isBlank_eq_false h] at hl
    cases hl
  cases ys with
  | nil =>
    rw [footerOf_eq_nil (by simp [hno]), footerOf_eq_nil (by rfl)]
  | cons y rest =>
    rw [footerOf, footerOf, lastParagraph_append_blank hl,
      List.getLast?_append_of_ne_nil _ (List.cons_ne_nil _ _), List.getLast?_cons_cons]

/-- A paragraph from a trailer to a trailer is a footer as a whole. -/
theorem footerOf_eq_self (hblank : ∀ l ∈ ls, l.isBlank = false)
    (hfirst : ls.head?.any isTrailerLine = true) (hlast : ls.getLast?.any isTrailerLine = true) :
    footerOf ls = ls := by
  rw [footerOf, if_pos hlast, lastParagraph_eq_self hblank]
  cases ls with
  | nil => rfl
  | cons l rest => exact List.dropWhile_cons_of_neg (by simpa using hfirst)

-- ---------------------------------------------------------------------------
-- The lines that body and footer share
-- ---------------------------------------------------------------------------

/-- The lines between the blank ones at the two ends. -/
def core (ls : List Text) : List Text :=
  ((ls.dropWhile Text.isBlank).reverse.dropWhile Text.isBlank).reverse

/-- The lines before the footer. -/
def beforeFooter (ls : List Text) : List Text := ls.take (ls.length - (footerOf ls).length)

/-- The lines before the footer and the footer are all the lines. -/
theorem beforeFooter_append_footerOf (ls : List Text) : beforeFooter ls ++ footerOf ls = ls := by
  obtain ⟨front, hfront⟩ := footerOf_suffix ls
  rw [beforeFooter]
  generalize footerOf ls = footer at hfront ⊢
  subst hfront
  simp

/-- What is before a footer ends in lines that are no trailers, up to a blank line. -/
theorem exists_beforeFooter (h : footerOf ls ≠ []) :
    ∃ front part, beforeFooter ls = front ++ part ∧
      (∀ l ∈ front.getLast?, l.isBlank = true) ∧
      ∀ l ∈ part, l.isBlank = false ∧ isTrailerLine l = false := by
  refine ⟨(ls.reverse.dropWhile fun l => !l.isBlank).reverse,
    (lastParagraph ls).takeWhile fun l => !isTrailerLine l, ?_, ?_, ?_⟩
  · have hany : ls.getLast?.any isTrailerLine = true := by
      rw [← Bool.not_eq_false]
      exact fun hn => h (footerOf_eq_nil hn)
    -- the lines above the last paragraph, those of it up to its first trailer, and the footer
    have hlines : (ls.reverse.dropWhile fun l => !l.isBlank).reverse ++
        ((lastParagraph ls).takeWhile fun l => !isTrailerLine l) ++ footerOf ls = ls := by
      rw [footerOf, if_pos hany, List.append_assoc, List.takeWhile_append_dropWhile,
        lastParagraph, ← List.reverse_append, List.takeWhile_append_dropWhile, List.reverse_reverse]
    exact List.append_cancel_right ((beforeFooter_append_footerOf ls).trans hlines.symm)
  · intro l hl
    have hhead := List.head?_dropWhile_not (fun l : Text => !l.isBlank) ls.reverse
    rw [List.getLast?_reverse] at hl
    rw [Option.mem_def.mp hl] at hhead
    simpa using hhead
  · intro l hl
    exact ⟨isBlank_of_mem_lastParagraph ((List.takeWhile_prefix _).subset hl),
      by simpa using Text.of_mem_takeWhile hl⟩

/-- The body is what stands before the footer, without the blank lines at the two ends of both. -/
theorem ofLines_body (ls : List Text) : (ofLines ls).body = beforeFooter (core (ls.drop 1)) := rfl

/-- The footer is looked for between the blank lines at the two ends of what is under the header. -/
theorem ofLines_footer (ls : List Text) : (ofLines ls).footer = footerOf (core (ls.drop 1)) := rfl

theorem core_isInfix (ls : List Text) : core ls <:+: ls := by
  rw [core, ← List.reverse_infix, List.reverse_reverse]
  exact (List.dropWhile_suffix _).isInfix.trans
    (List.reverse_infix.mpr (List.dropWhile_suffix _).isInfix)

theorem core_drop_subset (ls : List Text) : core (ls.drop 1) ⊆ ls :=
  fun _ hl => List.mem_of_mem_drop ((core_isInfix _).subset hl)

theorem footer_subset (ls : List Text) : (ofLines ls).footer ⊆ ls.drop 1 :=
  fun _ hl => (core_isInfix _).subset ((footerOf_suffix _).subset hl)

/-- The first of these lines is not blank. -/
theorem isBlank_head_core (ls : List Text) : ∀ l ∈ (core ls).head?, l.isBlank = false := by
  intro l hl
  obtain ⟨rest, hrest⟩ : core ls <+: ls.dropWhile Text.isBlank := by
    rw [core, ← List.reverse_suffix, List.reverse_reverse]
    exact List.dropWhile_suffix _
  have hhead := List.head?_dropWhile_not Text.isBlank ls
  rw [← hrest, List.head?_append, Option.mem_def.mp hl] at hhead
  simpa using hhead

theorem isBlank_getLast_core (ls : List Text) : ∀ l ∈ (core ls).getLast?, l.isBlank = false := by
  intro l hl
  have hhead := List.head?_dropWhile_not Text.isBlank (ls.dropWhile Text.isBlank).reverse
  rw [core, List.getLast?_reverse] at hl
  rw [Option.mem_def.mp hl] at hhead
  simpa using hhead

/-- Lines without a blank one at either end are their own core, since the core leaves out blank
lines at the ends only. -/
theorem core_eq_self (hfirst : ∀ l ∈ ls.head?, l.isBlank = false)
    (hlast : ∀ l ∈ ls.getLast?, l.isBlank = false) : core ls = ls := by
  have hdrop : ∀ {xs : List Text}, (∀ l ∈ xs.head?, l.isBlank = false) →
      xs.dropWhile Text.isBlank = xs := by
    intro xs h
    cases xs with
    | nil => rfl
    | cons x rest => exact List.dropWhile_cons_of_neg (by simp [h x rfl])
  rw [core, hdrop hfirst, hdrop fun l hl => hlast l (by rwa [List.head?_reverse] at hl),
    List.reverse_reverse]

theorem core_cons_blank (hl : l.isBlank = true) (ls : List Text) : core (l :: ls) = core ls := by
  rw [core, List.dropWhile_cons_of_pos hl, core]

end Sections

end ConventionalCommit
