import ConventionalCommit.Fix.Basic
import ConventionalCommit.Proofs.Message.SectionTexts

/-!
# ConventionalCommit — line endings and blank lines at the end

Two texts with the same lines, but for blank ones at the end, are read, checked and fixed
alike (`SameLines`). A text without carriage returns has the same lines if each newline gets
one, and white space after it on lines of its own only adds blank lines.

The rules look at the raw lines as well as at the fields: at the line under the header, and
at the line above the footer. The blank lines at the end come after both.

* `SameLines.parse_eq`, `SameLines.check_eq`, `SameLines.fixMessage_eq`: what the same lines
  have in common;
* `parse_of_lineEndings`: all of it for the two kinds of texts.
-/

namespace ConventionalCommit

open Text (lines rows unlines dropReturn isBlank)

-- ---------------------------------------------------------------------------
-- Lines
-- ---------------------------------------------------------------------------

namespace Text

variable {t u : Text}

/-- The text with a carriage return before every newline. -/
def withReturns (t : Text) : Text := t.flatMap fun c => if c = '\n' then ['\r', '\n'] else [c]

@[simp] theorem withReturns_append (t u : Text) :
    withReturns (t ++ u) = withReturns t ++ withReturns u :=
  List.flatMap_append ..

/-- A text of one row has no newline that a return could go before. -/
theorem withReturns_of_not_mem (h : '\n' ∉ t) : withReturns t = t := by
  induction t with
  | nil => rfl
  | cons c rest ih =>
    rw [List.mem_cons, not_or] at h
    rw [withReturns, List.flatMap_cons, if_neg (Ne.symm h.1), ← withReturns, ih h.2,
      List.singleton_append]

/-- Line by line: each newline ends the line that it ended before, and the return in front of it is
dropped when the lines are read. -/
theorem lines_withReturns_unlines {ls : List Text} (h : ∀ l ∈ ls, '\n' ∉ l ∧ '\r' ∉ l) :
    lines (withReturns (unlines ls)) = lines (unlines ls) := by
  induction ls with
  | nil => rfl
  | cons l rest ih =>
    obtain ⟨hl, hreturn⟩ := h l (List.mem_cons_self ..)
    by_cases hr : rest = []
    · rw [hr, unlines_singleton, withReturns_of_not_mem hl]
    · have hcut : withReturns (unlines (l :: rest)) =
          (l ++ ['\r']) ++ '\n' :: withReturns (unlines rest) := by
        rw [unlines_cons l hr, withReturns_append, withReturns_of_not_mem hl, List.append_assoc]
        rfl
      -- the line has no return of its own that it could lose
      have hkeep : dropReturn l = l :=
        dropReturn_eq_self fun hlast => hreturn (List.mem_of_getLast? hlast)
      rw [hcut, unlines_cons l hr, lines_append_newline, lines_append_newline,
        ih fun x hx => h x (List.mem_cons_of_mem _ hx), rows_of_not_mem hl,
        rows_of_not_mem (by simp [hl]), List.map_singleton, List.map_singleton,
        dropReturn_concat, hkeep]

theorem lines_withReturns (h : '\r' ∉ t) : lines (withReturns t) = lines t := by
  have hrows : ∀ row ∈ rows t, '\n' ∉ row ∧ '\r' ∉ row := fun row hrow =>
    ⟨not_mem_of_mem_rows hrow, fun hr => h ((isInfix_of_mem_rows hrow).subset hr)⟩
  rw [← unlines_rows t]
  exact lines_withReturns_unlines hrows

theorem isBlank_of_mem_lines (hu : isBlank u = true) : ∀ l ∈ lines u, isBlank l = true := by
  intro l hl
  obtain ⟨row, hrow, hpart⟩ := exists_row_of_mem_lines hl
  rw [isBlank_iff] at hu ⊢
  exact fun c hc => hu c ((isInfix_of_mem_rows hrow).subset (hpart.subset hc))

end Text

/-- The second text has the lines of the first and after them at most blank ones, of which
the first is empty if there is no line before it. -/
def SameLines (raw raw' : Text) : Prop :=
  ∃ blanks, lines raw' = lines raw ++ blanks ∧ (∀ l ∈ blanks, isBlank l = true) ∧
    (lines raw = [] → ∀ l ∈ blanks.head?, l = [])

variable {raw raw' u : Text} {c : Config} {o : FixOptions}

/-- Returns before the newlines change no line, provided that there are no others. A line that ended
in a return would lose one more. -/
theorem sameLines_withReturns (h : '\r' ∉ raw) : SameLines raw raw.withReturns := by
  refine ⟨[], ?_, fun l hl => ?_, fun _ l hl => ?_⟩
  · rw [Text.lines_withReturns h, List.append_nil]
  · cases hl
  · cases hl

/-- White space on lines of its own only adds blank lines. A text that ended in a newline gets one
line more than a text that did not, so the two cases differ. -/
theorem sameLines_append_blank (h : '\r' ∉ raw) (hu : isBlank u = true) :
    SameLines raw (raw ++ '\n' :: u) := by
  have hblank := Text.isBlank_of_mem_lines hu
  obtain ⟨front, last, hrows, hlines⟩ := Text.lines_cases raw
  -- without returns nothing is lost where the text used to end
  have hlast : dropReturn last = last := by
    refine Text.dropReturn_eq_self fun hr => h ?_
    have hmem : last ∈ rows raw := hrows ▸ List.mem_concat_self
    exact (Text.isInfix_of_mem_rows hmem).subset (List.mem_of_getLast? hr)
  have hlonger : lines (raw ++ '\n' :: u) = front.map dropReturn ++ last :: lines u := by
    rw [Text.lines_append_newline, hrows, List.map_append, List.map_singleton, hlast,
      List.append_assoc, List.singleton_append]
  -- a text that ended in a newline has an empty row there, which counts as a line now
  rcases hlines with ⟨rfl, hlines⟩ | ⟨-, hlines⟩
  · refine ⟨[] :: lines u, by rw [hlonger, hlines], fun l hl => ?_, fun _ l hl => ?_⟩
    · rcases List.mem_cons.mp hl with rfl | hl
      · rfl
      · exact hblank l hl
    · exact (Option.some.inj hl).symm
  · exact ⟨lines u, by rw [hlonger, hlines, List.append_assoc, List.singleton_append], hblank,
      fun hnil => by simp [hlines] at hnil⟩

-- ---------------------------------------------------------------------------
-- Sections
-- ---------------------------------------------------------------------------

namespace Sections

variable {ls blanks : List Text}

/-- Blank lines at the end are not between the blank ones at the two ends. -/
theorem core_append_blank (h : ∀ l ∈ blanks, isBlank l = true) (ls : List Text) :
    core (ls ++ blanks) = core ls := by
  have hback : ∀ l ∈ blanks.reverse, isBlank l = true := fun l hl => h l (List.mem_reverse.mp hl)
  rw [core, core, List.dropWhile_append]
  split
  · next hnil =>
    rw [List.isEmpty_iff] at hnil
    rw [hnil, List.dropWhile_eq_nil_iff.mpr h]
  · rw [List.reverse_append, List.dropWhile_append_of_pos hback]

/-- Blank lines that are added stay blank lines behind the header. Without a line before them the
first one is the header. -/
theorem drop_append_blank (h : ∀ l ∈ blanks, isBlank l = true) (ls : List Text) :
    ∃ others, (ls ++ blanks).drop 1 = ls.drop 1 ++ others ∧ ∀ l ∈ others, isBlank l = true :=
  ⟨blanks.drop (1 - ls.length), List.drop_append, fun l hl => h l (List.mem_of_mem_drop hl)⟩

/-- If there is a footer, the blank lines under the header stay the same however the lines
go on. -/
theorem gap_append (hfooter : (ofLines ls).footer ≠ []) (blanks : List Text) :
    (ofLines (ls ++ blanks)).header = (ofLines ls).header ∧
      (ofLines (ls ++ blanks)).gap = (ofLines ls).gap := by
  -- a footer has text, so the blank lines under the header end before it
  have hcore : (ls.drop 1).dropWhile isBlank ≠ [] := by
    intro hnil
    refine hfooter ?_
    rw [ofLines_footer, core, hnil]
    rfl
  obtain ⟨x, rest, rfl⟩ := List.exists_cons_of_ne_nil (l := ls) fun hnil => by
    rw [hnil] at hcore
    exact hcore rfl
  refine ⟨rfl, ?_⟩
  show (rest ++ blanks).takeWhile isBlank = rest.takeWhile isBlank
  rw [List.takeWhile_append]
  split
  · next hlen =>
    have hall := (List.takeWhile_prefix (l := rest) isBlank).eq_of_length hlen
    exact absurd (List.dropWhile_eq_nil_iff.mpr (List.takeWhile_eq_self_iff.mp hall)) hcore
  · rfl

end Sections

-- ---------------------------------------------------------------------------
-- Messages
-- ---------------------------------------------------------------------------

namespace Message

/-- The rules see the raw text through the lines next to header and footer only. -/
theorem check_of_raw {m : Message} (hheader : { m with raw }.crowdsHeader = m.crowdsHeader)
    (hfooter : { m with raw }.crowdsFooter = m.crowdsFooter) (c : Config) :
    { m with raw }.check c = m.check c := by
  have hrule : ∀ r : Rule, r.check c { m with raw } = r.check c m := by
    intro r
    cases r with
    | bodyLeadingBlank => rw [Rule.check, hheader, Rule.check]
    | footerLeadingBlank => rw [Rule.check, hfooter, Rule.check]
    | _ => rfl
  rw [check, check]
  exact List.flatMap_congr fun r _ => hrule r

end Message

namespace SameLines

theorem core_eq (h : SameLines raw raw') :
    Sections.core ((lines raw').drop 1) = Sections.core ((lines raw).drop 1) := by
  obtain ⟨blanks, hlines, hblank, -⟩ := h
  obtain ⟨others, hdrop, hothers⟩ := Sections.drop_append_blank hblank (lines raw)
  rw [hlines, hdrop, Sections.core_append_blank hothers]

/-- The first line is the same. This is why the first of the blank lines has to be empty if there is
no line before it. -/
theorem firstLine_eq (h : SameLines raw raw') : raw'.firstLine = raw.firstLine := by
  obtain ⟨blanks, hlines, -, hfirst⟩ := h
  rw [Text.firstLine, Text.firstLine, hlines]
  cases hraw : lines raw with
  | cons l rest => rfl
  | nil =>
    cases blanks with
    | nil => rfl
    | cons b rest => rw [hfirst hraw b rfl]; rfl

/-- All fields are read alike, and only the raw text differs. So every rule sees the same message,
but for the two that look at the raw lines. -/
theorem parse_eq (h : SameLines raw raw') :
    Message.parse raw' = { Message.parse raw with raw := raw' } := by
  have hheader : (Sections.ofLines (lines raw')).header.flatten =
      (Sections.ofLines (lines raw)).header.flatten :=
    (Message.header_parse raw').trans (h.firstLine_eq.trans (Message.header_parse raw).symm)
  simp only [Message.parse, Sections.ofLines_body, Sections.ofLines_footer, h.core_eq, hheader]

/-- The line under the header is there in both texts, or it is blank or missing. -/
theorem crowdsHeader_eq (h : SameLines raw raw') :
    { Message.parse raw with raw := raw' }.crowdsHeader = (Message.parse raw).crowdsHeader := by
  obtain ⟨blanks, hlines, hblank, -⟩ := h
  show (lines raw')[1]?.any _ = (lines raw)[1]?.any _
  rw [hlines]
  by_cases hlen : 1 < (lines raw).length
  · rw [List.getElem?_append_left hlen]
  · -- the line under the header is blank, or there is none
    have hnone : (lines raw)[1]? = none := List.getElem?_eq_none (by omega)
    rw [hnone, Option.any_none, List.getElem?_append_right (by omega), Option.any_eq_false]
    intro l hl
    rw [hblank l (List.mem_of_getElem? hl)]
    decide

/-- The line above the footer is the same, since blank lines at the end come after the footer. -/
theorem crowdsFooter_eq (h : SameLines raw raw') :
    { Message.parse raw with raw := raw' }.crowdsFooter = (Message.parse raw).crowdsFooter := by
  have hcore := h.core_eq
  obtain ⟨blanks, hlines, -, -⟩ := h
  have hbody : (Sections.ofLines (lines raw')).body = (Sections.ofLines (lines raw)).body := by
    rw [Sections.ofLines_body, Sections.ofLines_body, hcore]
  have hfooter : (Sections.ofLines (lines raw')).footer =
      (Sections.ofLines (lines raw)).footer := by
    rw [Sections.ofLines_footer, Sections.ofLines_footer, hcore]
  have hraw : (Message.parse raw).raw = raw := rfl
  rw [Message.crowdsFooter, Message.crowdsFooter, hraw]
  dsimp only
  rw [hfooter, hbody]
  -- without a footer no line is above it
  by_cases hnil : (Sections.ofLines (lines raw)).footer = []
  · rw [hnil]
    rfl
  · obtain ⟨hheader, hgap⟩ := Sections.gap_append hnil blanks
    rw [hlines, hheader, hgap]

theorem check_eq (h : SameLines raw raw') (c : Config) :
    (Message.parse raw').check c = (Message.parse raw).check c := by
  rw [h.parse_eq]
  exact Message.check_of_raw h.crowdsHeader_eq h.crowdsFooter_eq c

theorem fixMessage_eq (h : SameLines raw raw') (o : FixOptions) (c : Config) :
    fixMessage o c raw' = fixMessage o c raw := by
  have hdraft : ∀ m : Message, Draft.ofMessage { m with raw := raw' } = Draft.ofMessage m :=
    fun _ => rfl
  rw [fixMessage, fixMessage, h.parse_eq, hdraft]

end SameLines

/--
A message without carriage returns is read, checked and fixed alike if every newline gets a
return before it, or if white space is added on lines of its own.
-/
theorem parse_of_lineEndings (h : '\r' ∉ raw) (hraw : raw' = raw.withReturns ∨
      ∃ u, isBlank u = true ∧ raw' = raw ++ '\n' :: u) :
    Message.parse raw' = { Message.parse raw with raw := raw' } ∧
      (∀ c, (Message.parse raw').check c = (Message.parse raw).check c) ∧
      ∀ o c, fixMessage o c raw' = fixMessage o c raw := by
  have hsame : SameLines raw raw' := by
    rcases hraw with rfl | ⟨u, hu, rfl⟩
    · exact sameLines_withReturns h
    · exact sameLines_append_blank h hu
  exact ⟨hsame.parse_eq, hsame.check_eq, hsame.fixMessage_eq⟩

/-- A message with a body and a footer, and blank lines of both kinds after it. -/
theorem parse_of_lineEndings_trailing :
    let raw := "feat: add x\nsome words\n\nCloses: #1".toList
    let raw' := raw ++ "\n \r\n\t".toList
    Message.parse raw' = { Message.parse raw with raw := raw' } ∧
      (∀ c, (Message.parse raw').check c = (Message.parse raw).check c) ∧
      ∀ o c, fixMessage o c raw' = fixMessage o c raw := by
  intro raw raw'
  have hreturn : '\r' ∉ raw := by decide
  exact parse_of_lineEndings hreturn (Or.inr ⟨" \r\n\t".toList, by decide, rfl⟩)

end ConventionalCommit
