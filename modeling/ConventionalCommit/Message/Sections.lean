import ConventionalCommit.Message.Trailer

/-!
# ConventionalCommit — the sections of a message

The lines of a message in five consecutive parts (`Sections`): the header
line, the blank lines under it, the body, the footer, and the blank lines at
the end. The footer belongs to the last paragraph: if the last line of that
paragraph is a trailer, the footer starts at its first trailer.

* `Sections.append_eq`: the five parts are the lines, in order.
-/

namespace ConventionalCommit

open Trailer (isTrailerLine)

/-- The lines of a message, part by part. -/
structure Sections where
  /-- The first line, if there is any. -/
  header : List Text
  /-- The blank lines between the header and what follows it. -/
  gap : List Text
  /-- The lines of the body, with the blank lines between body and footer. -/
  body : List Text
  /-- The lines of the footer. -/
  footer : List Text
  /-- The blank lines at the end. -/
  trailing : List Text
deriving DecidableEq, Repr

namespace Sections

/-- The last paragraph of a list of lines: those after the last blank one. -/
def lastParagraph (ls : List Text) : List Text :=
  (ls.reverse.takeWhile (fun l => !l.isBlank)).reverse

/-- The lines of the footer of a message whose last line is not blank: the last
paragraph from its first trailer on, if it ends in a trailer. -/
def footerOf (ls : List Text) : List Text :=
  if ls.getLast?.any isTrailerLine then
    (lastParagraph ls).dropWhile (fun l => !isTrailerLine l)
  else
    []

/-- Sorts lines into the sections of a message. -/
def ofLines (ls : List Text) : Sections :=
  let under := ls.drop 1
  let content := under.dropWhile Text.isBlank
  let kept := (content.reverse.dropWhile Text.isBlank).reverse
  let footer := footerOf kept
  { header := ls.take 1
    gap := under.takeWhile Text.isBlank
    body := kept.take (kept.length - footer.length)
    footer
    trailing := (content.reverse.takeWhile Text.isBlank).reverse }

/-- The index of the first line under the header that is not blank. -/
def bodyStart (s : Sections) : Nat := s.header.length + s.gap.length

/-- The index of the first line of the footer. -/
def footerStart (s : Sections) : Nat := s.bodyStart + s.body.length

/-- The index after the last line that is not blank. -/
def stop (s : Sections) : Nat := s.footerStart + s.footer.length

/-- A footer is what the lines end in, since it is the end of their last paragraph. -/
theorem footerOf_suffix (ls : List Text) : footerOf ls <:+ ls := by
  unfold footerOf
  split
  · have h : lastParagraph ls <:+ ls := by
      rw [lastParagraph, ← List.reverse_prefix, List.reverse_reverse]
      exact List.takeWhile_prefix _
    exact (List.dropWhile_suffix _).trans h
  · exact List.nil_suffix

/-- The sections hold all lines, in order. So a position in one of them is a position in the
message, and nothing of a message is lost by dividing it. -/
theorem append_eq (ls : List Text) :
    (ofLines ls).header ++ ((ofLines ls).gap ++ ((ofLines ls).body ++
      ((ofLines ls).footer ++ (ofLines ls).trailing))) = ls := by
  simp only [ofLines]
  generalize hc : (ls.drop 1).dropWhile Text.isBlank = content
  generalize hk : (content.reverse.dropWhile Text.isBlank).reverse = kept
  have hkept : kept.take (kept.length - (footerOf kept).length) ++ footerOf kept = kept := by
    obtain ⟨front, hfront⟩ := footerOf_suffix kept
    generalize footerOf kept = footer at hfront
    subst hfront
    simp
  rw [← List.append_assoc (kept.take _), hkept, ← hk, ← List.reverse_append,
    List.takeWhile_append_dropWhile, List.reverse_reverse, ← hc,
    List.takeWhile_append_dropWhile, List.take_append_drop]

end Sections

end ConventionalCommit
