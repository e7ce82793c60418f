import ConventionalCommit.Proofs.Message.Rereading
import Mathlib.Logic.Function.Iterate

/-!
# ConventionalCommit — writing messages again and again

A message that is read and written over and over settles. Each pass takes one
return from before each newline under the header. Once there is none left to
take, the text under the header stays (`under_reread`), even if it moves from
the body to the footer or back, and the header stays after one more pass.

* `rewrite_settles`: every message settles, and most of them at once.
-/

namespace ConventionalCommit

open Text (Tight lines rows dropReturn)
open Trailer (isTrailerLine)
open Unicode (isWhite)

variable {d : Draft} {T : Text} {k : Nat}

-- ---------------------------------------------------------------------------
-- One pass over a draft
-- ---------------------------------------------------------------------------

namespace Draft

/-- The text under the header is cut where it was, or it is one section. -/
theorem SectionsRead.reads_under (hs : d.SectionsRead) (hu : d.under = some T) :
    Sections.Reads (rows T) d.body d.footer ∨ Sections.Reads (rows T) (some T) none ∨
      Sections.Reads (rows T) none (some T) := by
  have hT := tight_under hs.toSectionsFit hu
  cases hf : d.footer with
  | none =>
    have hb : d.body = some T := by rwa [under_eq_body hf] at hu
    right
    rcases hs.body_read hf T hb with hlast | hsingle
    · exact Or.inl (reads_of_no_trailer hT hlast)
    · exact reads_of_single_row hT hsingle
  | some f =>
    -- whether the footer still ends in a trailer, once its end is trimmed
    cases hlast : (rows f).getLast?.any isTrailerLine with
    | true =>
      left
      have hstands := footerOf_rows (hs.footer_read f hf) hlast
      have := reads_of_stands hs.toSectionsFit hf hstands hu
      rwa [hf] at this
    | false =>
      right; left
      -- it does not, so all the text is a body
      rw [← getLast?_rows_under hf hu] at hlast
      exact reads_of_no_trailer hT hlast

/-- Without returns to take, the text under the header is the same after a pass. -/
theorem under_reread (hd : d.HeaderRead) (hs : d.SectionsRead) (hr : d.ReturnsBelow 1) :
    d.reread.under = d.under := by
  have hno := not_mem_header hd
  cases hu : d.under with
  | none =>
    rw [reread_of_under_none hno hu, under_eq_none_iff]
    exact ⟨readHeader_body, readHeader_footer⟩
  | some T =>
    have hreread : ∀ body footer, Sections.Reads (rows T) body footer →
        d.reread.body = body ∧ d.reread.footer = footer := by
      intro body footer hreads
      rw [reread_of_reads hno hs.toSectionsFit hr hu hreads]
      exact ⟨readHeader_body, readHeader_footer⟩
    generalize d.reread = e at hreread
    -- body and footer as before, the whole text as a body, or the whole text as a footer
    rcases hs.reads_under hu with h | h | h
    · obtain ⟨hb, hf⟩ := hreread _ _ h
      rw [← hu, under, under, hb, hf]
    · obtain ⟨hb, hf⟩ := hreread _ _ h
      rw [under, hb, hf]
    · obtain ⟨hb, hf⟩ := hreread _ _ h
      rw [under, hb, hf]

/-- The header fields of a pass come from the header line alone, which has no return to lose. -/
theorem reread_eq_readHeader (hd : d.HeaderRead) (hs : d.SectionsFit) :
    ∃ body footer, d.reread = readHeader d.header body footer := by
  obtain ⟨line, body, footer, hline, hreread⟩ := exists_reread_eq (not_mem_header hd) hs
  rw [dropReturn_header hd, or_self] at hline
  exact ⟨body, footer, hline ▸ hreread⟩

/-- The header line of a draft settles after one pass. It has no white space in front, and what is
read from such a line is written as a line that gives the same fields. -/
theorem header_reread_reread (hd : d.HeaderRead) (hs : d.SectionsFit)
    (hd' : d.reread.HeaderRead) (hs' : d.reread.SectionsFit) :
    d.reread.reread.header = d.reread.header := by
  obtain ⟨body', footer', hreread'⟩ := reread_eq_readHeader hd' hs'
  obtain ⟨body, footer, hreread⟩ := reread_eq_readHeader hd hs
  rw [hreread', hreread]
  exact header_readHeader (not_mem_header hd) (head_header hd)

end Draft

-- ---------------------------------------------------------------------------
-- Passes over a message
-- ---------------------------------------------------------------------------

namespace Message

variable {raw : Text}

/-- The message as it is written after it was read. -/
def rewrite (raw : Text) : Text := (parse raw).render

/-- Writing a message and reading it is a step from one draft to the next, so what follows is about
drafts. -/
theorem ofMessage_parse_rewrite (raw : Text) :
    Draft.ofMessage (parse (rewrite raw)) = (Draft.ofMessage (parse raw)).reread := by
  rw [Draft.reread, rewrite, render]

/-- A message is written as its header and the text under it. -/
theorem rewrite_eq (raw : Text) : rewrite raw = (Draft.ofMessage (parse raw)).header ++
    Draft.sectionText (Draft.ofMessage (parse raw)).under := by
  rw [rewrite, render, Draft.render_eq]

theorem returnsBelow_rewrite (hk : 0 < k) (h : Text.ReturnsBelow (k + 1) raw) :
    Text.ReturnsBelow k (rewrite raw) := by
  rw [rewrite, render]
  exact Draft.returnsBelow_render hk (Draft.headerRead_ofMessage raw)
    (Draft.sectionsRead_ofMessage raw).toSectionsFit (Draft.returnsBelow_ofMessage hk h)

/-- The text under the header stays from the second pass on. -/
theorem under_rewrite (h : Text.ReturnsBelow 2 raw) :
    (Draft.ofMessage (parse (rewrite raw))).under = (Draft.ofMessage (parse raw)).under := by
  rw [ofMessage_parse_rewrite]
  exact Draft.under_reread (Draft.headerRead_ofMessage raw) (Draft.sectionsRead_ofMessage raw)
    (Draft.returnsBelow_ofMessage Nat.one_pos h)

/-- The third pass changes nothing if there are no returns to take any more. The first may take
returns, and the second may still read other sections than were written. -/
theorem rewrite_rewrite_rewrite (h : Text.ReturnsBelow 2 raw) :
    rewrite (rewrite (rewrite raw)) = rewrite (rewrite raw) := by
  have hheader : (Draft.ofMessage (parse (rewrite (rewrite raw)))).header =
      (Draft.ofMessage (parse (rewrite raw))).header := by
    have hd := Draft.headerRead_ofMessage (rewrite raw)
    have hs := (Draft.sectionsRead_ofMessage (rewrite raw)).toSectionsFit
    rw [ofMessage_parse_rewrite raw] at hd hs
    rw [ofMessage_parse_rewrite (rewrite raw), ofMessage_parse_rewrite raw]
    exact Draft.header_reread_reread (Draft.headerRead_ofMessage raw)
      (Draft.sectionsRead_ofMessage raw).toSectionsFit hd hs
  have hunder : (Draft.ofMessage (parse (rewrite (rewrite raw)))).under =
      (Draft.ofMessage (parse (rewrite raw))).under :=
    under_rewrite ((returnsBelow_rewrite Nat.one_pos h).mono (by omega))
  rw [rewrite_eq (rewrite (rewrite raw)), hheader, hunder, ← rewrite_eq (rewrite raw)]

/-- The second pass changes nothing if moreover the first line begins without white space. Otherwise
trimming the first line may show a header that was none. -/
theorem rewrite_rewrite (h : Text.ReturnsBelow 2 raw)
    (hfirst : ∀ line ∈ (lines raw).head?, ∀ c ∈ line.head?, isWhite c = false) :
    rewrite (rewrite raw) = rewrite raw := by
  have hline : ∀ c ∈ (parse raw).header.head?, isWhite c = false := by
    rw [header_parse, Text.firstLine]
    cases hl : lines raw with
    | nil => exact fun _ h => absurd h (Option.not_mem_none _)
    | cons line rest =>
      rw [hl] at hfirst
      simpa using hfirst line rfl
  -- the header settles at once, because no white space hides its start
  have hheader : (Draft.ofMessage (parse (rewrite raw))).header =
      (Draft.ofMessage (parse raw)).header := by
    obtain ⟨body, footer, hreread⟩ := Draft.reread_eq_readHeader (Draft.headerRead_ofMessage raw)
      (Draft.sectionsRead_ofMessage raw).toSectionsFit
    rw [ofMessage_parse_rewrite, hreread, Draft.ofMessage_parse]
    exact Draft.header_readHeader (Draft.not_mem_header_parse raw) hline
  rw [rewrite_eq (rewrite raw), hheader, under_rewrite h, ← rewrite_eq raw]

/-- Every message settles, by induction on the returns that stand before a newline. Each pass takes
one return from each line, so the bound goes down by one. -/
theorem rewrite_eventually (k : Nat) (raw : Text) (h : Text.ReturnsBelow (k + 2) raw) :
    ∃ n, ∀ j, n ≤ j → rewrite^[j] raw = rewrite^[n] raw := by
  induction k generalizing raw with
  | zero =>
    refine ⟨2, fun j hj => ?_⟩
    obtain ⟨i, rfl⟩ := Nat.exists_eq_add_of_le' hj
    rw [Function.iterate_add_apply]
    exact Function.iterate_fixed (rewrite_rewrite_rewrite h) i
  | succ k ih =>
    obtain ⟨n, hn⟩ := ih (rewrite raw) (returnsBelow_rewrite (by omega) h)
    refine ⟨n + 1, fun j hj => ?_⟩
    obtain ⟨i, rfl⟩ := Nat.exists_eq_add_of_le' hj
    exact hn (i + n) (by omega)

/--
Every message settles. Without two returns before any newline it has settled after two
passes, and after one if its first line does not begin with white space.
-/
theorem rewrite_settles (raw : Text) :
    (∃ n, ∀ j, n ≤ j → rewrite^[j] raw = rewrite^[n] raw) ∧
      (¬ ['\r', '\r', '\n'] <:+: raw →
        rewrite^[3] raw = rewrite^[2] raw ∧
          ((∀ line ∈ (lines raw).head?, ∀ c ∈ line.head?, isWhite c = false) →
            rewrite^[2] raw = rewrite raw)) := by
  refine ⟨?_, fun h => ⟨rewrite_rewrite_rewrite h, rewrite_rewrite h⟩⟩
  exact rewrite_eventually raw.length raw ((Text.returnsBelow_length raw).mono (by omega))

/-- A trailer that was indented moves to the footer, and the message has settled. -/
theorem rewrite_settles_indented :
    rewrite^[2] "fix: a\n\n Closes: b".toList = rewrite "fix: a\n\n Closes: b".toList := by
  have hreturns : ¬ ['\r', '\r', '\n'] <:+: "fix: a\n\n Closes: b".toList := by
    rw [← Text.occursIn_iff]
    decide
  have hlines : lines "fix: a\n\n Closes: b".toList =
      ["fix: a".toList, [], " Closes: b".toList] := rfl
  refine ((rewrite_settles _).2 hreturns).2 fun line hline c hc => ?_
  rw [hlines] at hline
  obtain rfl : "fix: a".toList = line := Option.some.inj hline
  obtain rfl : 'f' = c := Option.some.inj hc
  rfl

end Message

end ConventionalCommit
