import ConventionalCommit.Fix.Basic
import ConventionalCommit.Proofs.Checked.Sections
import ConventionalCommit.Proofs.Checked.Wrapping
import ConventionalCommit.Proofs.Fix.Subject
import ConventionalCommit.Proofs.Message.SectionTexts

/-!
# ConventionalCommit — nothing is out of range

Checking and fixing with every operation that has a range, on numbers, on lists and on texts. Each
of these computations gives a result, whatever the message, the settings and the width, and it is
the result of the definition that works without positions. Only the lengths of the texts are
bounded, as they are in a memory with addresses of 64 bits.

* `in_range`: reading, checking, fixing and wrapping are in range at every step.
-/

namespace ConventionalCommit

open Text (lines)

namespace Checked

open Json (byteLength)

variable {c : Config} {o : FixOptions} {d : Draft} {m : Message} {r : Rule} {ls : List Text}
  {b l raw t : Text} {limit index : Nat}

-- ---------------------------------------------------------------------------
-- Checking a message
-- ---------------------------------------------------------------------------

/-- The lines of a body that are longer than a limit, where a line is numbered by its index from
zero and one more. -/
def longLines (limit index : Nat) : List Text → Option (List Issue)
  | [] => some []
  | l :: rest => do
    if limit < l.length then
      let line ← add index 1
      let issues ← longLines limit (index + 1) rest
      return .bodyLineTooLong line limit l.length :: issues
    else longLines limit (index + 1) rest

/-- Whether there is a footer and the line above it has something on it. The first line has none
above it. -/
def crowdsFooter (ls : List Text) : Option Bool := do
  let place ← layout ls
  let above := (sub place.footerStart 1).bind (ls[·]?)
  return decide (place.footerStart < place.stop) && above.any fun l => !l.isBlank

/-- The issues that a rule reports. Only two rules go by positions. -/
def checkRule (c : Config) (m : Message) (r : Rule) : Option (List Issue) :=
  match r with
  | .bodyMaxLineLength =>
    match m.body with
    | some body => longLines c.maxLineLength.toNat 0 body.lines
    | none => some []
  | .footerLeadingBlank =>
    if c.footerLeadingBlank && m.footer.isSome then do
      return if ← crowdsFooter m.raw.lines then [.footerNotSeparated] else []
    else some []
  | r => some (r.check c m)

/-- The issues that all rules report. -/
def check (m : Message) (c : Config) : Option (List Issue) := do
  return (← Rule.all.mapM (checkRule c m)).flatten

/-- The number of a line is one more than its index, and there are not so many lines that this is
out of range. -/
theorem longLines_eq_some (hsize : index + ls.length < wordSize) :
    longLines limit index ls = some (ConventionalCommit.longLines limit (index + 1) ls) := by
  induction ls generalizing index with
  | nil => rfl
  | cons l ls ih =>
    rw [List.length_cons] at hsize
    rw [longLines, ConventionalCommit.longLines, ih (by omega), add_eq_some (by omega)]
    split <;> rfl

/-- The line above the footer is looked up only if there is one. A footer that starts at position 0
has none above it. -/
theorem crowdsFooter_eq_some (hsize : m.raw.lines.length < wordSize) :
    crowdsFooter m.raw.lines = some m.crowdsFooter := by
  have hlines := Sections.append_eq m.raw.lines
  rw [crowdsFooter, Message.crowdsFooter, layout_eq_some hsize]
  generalize Sections.ofLines m.raw.lines = s at hlines ⊢
  have hfooter : decide (s.footerStart < s.stop) = !s.footer.isEmpty := by
    rw [Sections.stop]
    cases s.footer with
    | nil => simp
    | cons l rest => simp
  -- position 0 has no predecessor, and an empty list no last element
  have habove : (sub s.footerStart 1).bind (m.raw.lines[·]?) =
      (s.header ++ s.gap ++ s.body).getLast? := by
    have hstart : s.footerStart = (s.header ++ s.gap ++ s.body).length := by
      rw [List.length_append, List.length_append]
      rfl
    rw [← hlines, ← List.append_assoc, ← List.append_assoc, hstart]
    generalize s.header ++ s.gap ++ s.body = front
    rcases List.eq_nil_or_concat front with rfl | ⟨init, l, rfl⟩
    · rfl
    · rw [List.concat_eq_append, List.length_append, List.length_singleton,
        sub_eq_some (Nat.le_add_left _ _), Nat.add_one_sub_one, Option.bind_some,
        List.getLast?_concat, List.append_assoc]
      exact getElem?_append_cons ..
  simp only [Option.bind_eq_bind, Option.bind_some, Layout.ofSections, hfooter, habove]
  rfl

/-- Each rule gives the issues that it gives without positions. Two of them look lines up, and the
others need no argument. -/
theorem checkRule_eq_some (hraw : m.raw.lines.length < wordSize)
    (hbody : ∀ b ∈ m.body, b.lines.length < wordSize) (r : Rule) :
    checkRule c m r = some (r.check c m) := by
  cases r with
  | bodyMaxLineLength =>
    rw [checkRule, Rule.check]
    cases hb : m.body with
    | none => rfl
    | some b => exact longLines_eq_some (by rw [Nat.zero_add]; exact hbody b hb)
  | footerLeadingBlank =>
    rw [checkRule, Rule.check, crowdsFooter_eq_some hraw]
    cases c.footerLeadingBlank && m.footer.isSome <;> rfl
  | _ => rfl

theorem check_eq_some (hraw : m.raw.lines.length < wordSize)
    (hbody : ∀ b ∈ m.body, b.lines.length < wordSize) : check m c = some (m.check c) := by
  rw [check, mapM_eq_some fun r _ => checkRule_eq_some hraw hbody r, Message.check,
    List.flatMap_def]
  rfl

-- ---------------------------------------------------------------------------
-- Fixing a message
-- ---------------------------------------------------------------------------

/-- Gives the first character of the subject the form that a case asks for. -/
def withSubjectCase (case : SubjectCase) (d : Draft) : Option Draft :=
  match d.subject with
  | none => some d
  | some s =>
    match s.head? with
    | none => some d
    | some first =>
      if case.admits first then some d
      else do
        let rest ← textFrom s first.utf8Size
        return { d with subject := some (case.convert first ++ rest) }

/-- Wraps the long lines of the body. -/
def withWrappedBody (width : Nat) (d : Draft) : Option Draft :=
  match d.body with
  | none => some d
  | some b => do return { d with body := some (← wrap width b) }

/-- Cuts the subject of a header that is too long, if enough room for a subject is left. -/
def withHeaderWithin (limit : Nat) (d : Draft) : Option Draft :=
  if d.header.length ≤ limit then some d
  else
    match d.subject with
    | none => some d
    | some s =>
      let room := limit - d.typePrefix.length
      if room ≤ Draft.leastSubject then some d
      else do
        let kept := s.take (← sub room Draft.ellipsis.length)
        return { d with subject := some (kept ++ Draft.ellipsis) }

/-- An edit, if it is enabled. -/
def editIf (enabled : Bool) (edit : Draft → Option Draft) (d : Draft) : Option Draft :=
  if enabled then edit d else some d

/-- A draft after all enabled fixes. -/
def fixDraft (o : FixOptions) (c : Config) (d : Draft) : Option Draft := do
  let d := d.editIf o.inferType Draft.withInferredType
  let d ← editIf o.adjustCase (withSubjectCase c.subjectCase) d
  let d := d.editIf o.stripFullStop Draft.withoutFullStop
  let d ← editIf o.wrapBody (withWrappedBody c.maxLineLength.toNat) d
  withHeaderWithin c.maxHeaderLength.toNat d

/-- The text of a message after the enabled fixes, if they change a field. -/
def fixMessage (o : FixOptions) (c : Config) (raw : Text) : Option (Option Text) := do
  let m ← parse raw
  let draft := Draft.ofMessage m
  let fixed ← fixDraft o c draft
  return if fixed = draft then none else some fixed.render

/-- The subject is cut behind its first character, however many bytes that has. So the cut is at the
border of a character even if that is not an ASCII one. -/
theorem withSubjectCase_eq_some (case : SubjectCase) (d : Draft) :
    withSubjectCase case d = some (d.withSubjectCase case) := by
  rw [withSubjectCase, Draft.withSubjectCase]
  cases hs : d.subject with
  | none => rfl
  | some s =>
    cases s with
    | nil => rfl
    | cons first rest =>
      have hrest : textFrom (first :: rest) first.utf8Size = some rest :=
        textFrom_append [first] rest
      dsimp only [List.head?_cons]
      rw [hrest]
      split <;> rfl

/-- The cut is in range since a subject of `leastSubject` characters is longer than the ellipsis. -/
theorem withHeaderWithin_eq_some (limit : Nat) (d : Draft) :
    withHeaderWithin limit d = some (d.withHeaderWithin limit) := by
  rw [withHeaderWithin, Draft.withHeaderWithin]
  cases hs : d.subject with
  | none => exact ite_self _
  | some s =>
    by_cases hlength : d.header.length ≤ limit
    · rw [if_pos hlength]
      dsimp only
      rw [if_pos (Or.inl hlength)]
    · rw [if_neg hlength]
      dsimp only
      by_cases hroom : limit - d.typePrefix.length ≤ Draft.leastSubject
      · rw [if_pos hroom, if_pos (Or.inr hroom)]
      · -- the subtraction for the ellipsis is the one that could be out of range
        have hellipsis : Draft.ellipsis.length ≤ limit - d.typePrefix.length := by
          have : Draft.ellipsis.length ≤ Draft.leastSubject := by decide
          omega
        rw [if_neg hroom, if_neg (not_or.mpr ⟨hlength, hroom⟩), sub_eq_some hellipsis]
        rfl

/-- Wrapping the body is in range if no line has more than half as many characters as there are
numbers. -/
theorem withWrappedBody_eq_some (width : Nat)
    (hsize : ∀ b ∈ d.body, ∀ l ∈ lines b, 2 * l.length < wordSize) :
    withWrappedBody width d = some (d.withWrappedBody width) := by
  obtain ⟨type, scope, subject, body, footer, marked⟩ := d
  cases body with
  | none => rfl
  | some b =>
    rw [withWrappedBody]
    dsimp only
    rw [wrap_eq_some width (hsize b rfl)]
    rfl

/-- An edit that is in range is so if it is enabled, and one that is not enabled does nothing. -/
theorem editIf_eq_some {enabled : Bool} {edit : Draft → Option Draft} {f : Draft → Draft}
    (h : edit d = some (f d)) : editIf enabled edit d = some (d.editIf enabled f) := by
  rw [editIf, Draft.editIf, h]
  split <;> rfl

/-- An edit that leaves the body alone does so if it is enabled or not. -/
theorem editIf_body {f : Draft → Draft} (h : ∀ d, (f d).body = d.body) (enabled : Bool)
    (d : Draft) : (d.editIf enabled f).body = d.body := by
  rw [Draft.editIf]
  split
  · exact h d
  · rfl

/-- The fixes before wrapping leave the body alone. -/
theorem body_beforeWrapping (o : FixOptions) (case : SubjectCase) (d : Draft) :
    (((d.editIf o.inferType Draft.withInferredType).editIf o.adjustCase
      (Draft.withSubjectCase case)).editIf o.stripFullStop Draft.withoutFullStop).body =
      d.body := by
  have hinfer : ∀ d : Draft, d.withInferredType.body = d.body := fun d => by
    rw [Draft.withInferredType_eq_or]
  have hcase : ∀ d : Draft, (d.withSubjectCase case).body = d.body := fun d => by
    rw [Draft.withSubjectCase_eq_map]
  have hstop : ∀ d : Draft, d.withoutFullStop.body = d.body := fun d => by
    rw [Draft.withoutFullStop_eq_bind]
  rw [editIf_body hstop, editIf_body hcase, editIf_body hinfer]

/-- All edits are in range. The bound on the body is still there when it is wrapped, because the
edits before leave it alone. -/
theorem fixDraft_eq_some (o : FixOptions) (c : Config)
    (hsize : ∀ b ∈ d.body, ∀ l ∈ lines b, 2 * l.length < wordSize) :
    fixDraft o c d = some (ConventionalCommit.fixDraft o c d) := by
  have hbody := body_beforeWrapping o c.subjectCase d
  rw [fixDraft, ConventionalCommit.fixDraft]
  dsimp only
  rw [editIf_eq_some (withSubjectCase_eq_some c.subjectCase _)]
  simp only [Option.bind_eq_bind, Option.bind_some]
  rw [editIf_eq_some (withWrappedBody_eq_some _ (hbody ▸ hsize)), Option.bind_some]
  exact withHeaderWithin_eq_some _ _

/-- A fix is in range from reading the message to writing it. The bound on the lines of the body
leaves room for what wrapping counts on a row. -/
theorem fixMessage_eq_some (o : FixOptions) (c : Config) (hraw : raw.lines.length < wordSize)
    (hsize : ∀ b ∈ (Message.parse raw).body, ∀ l ∈ lines b, 2 * l.length < wordSize) :
    fixMessage o c raw = some (ConventionalCommit.fixMessage o c raw) := by
  rw [fixMessage, parse_eq_some hraw, ConventionalCommit.fixMessage]
  generalize Message.parse raw = m at hsize ⊢
  have hdraft : fixDraft o c (Draft.ofMessage m) =
      some (ConventionalCommit.fixDraft o c (Draft.ofMessage m)) := fixDraft_eq_some o c hsize
  simp only [Option.bind_eq_bind, Option.bind_some, hdraft]
  rfl

-- ---------------------------------------------------------------------------
-- Texts in memory
-- ---------------------------------------------------------------------------

/-- A line of a body is no longer than the message, so sums of such lengths stay below the size of a
word if the message does. -/
theorem length_le_of_mem_lines_body (hb : b ∈ (Message.parse raw).body) (h : l ∈ lines b) :
    l.length ≤ raw.length := by
  obtain ⟨row, hrow, hpre⟩ := Text.exists_row_of_mem_lines h
  obtain ⟨u, hu, hinfix⟩ := Text.exists_row_of_isInfix ((Sections.reads_core raw).isInfix_body hb)
    hrow
  have hlines := Sections.core_drop_subset (lines raw)
  refine Nat.le_trans (hpre.isInfix.trans hinfix).length_le ?_
  by_cases hne : Sections.core ((lines raw).drop 1) = []
  · rw [hne] at hu
    rw [List.mem_singleton.mp hu]
    exact Nat.zero_le _
  · rw [Text.rows_unlines hne fun l hl => Text.not_mem_of_mem_lines (hlines hl)] at hu
    exact Text.length_le_of_mem_lines (hlines hu)

/-- Reading, checking, fixing and wrapping are in range at every step, and give what they give
without positions: for every message, for fields that need not belong to it, and for any settings
and widths. -/
theorem in_range (o : FixOptions) (c : Config) (width : Nat) :
    (∀ raw, byteLength raw ≤ mostBytes → parse raw = some (Message.parse raw)) ∧
    (∀ m : Message, byteLength m.raw ≤ mostBytes → (∀ b ∈ m.body, byteLength b ≤ mostBytes) →
      check m c = some (m.check c)) ∧
    (∀ raw, byteLength raw ≤ mostBytes →
      fixMessage o c raw = some (ConventionalCommit.fixMessage o c raw)) ∧
    (∀ t, byteLength t ≤ mostBytes → wrap width t = some (Text.wrap width t)) := by
  -- a text takes less than half of the numbers, so twice a length is still a number
  have hlines : ∀ t, byteLength t ≤ mostBytes → (lines t).length < wordSize := by
    intro t ht
    have hlength := length_le_byteLength t
    have hle := Text.length_lines_le t
    rw [mostBytes] at ht
    rw [wordSize, UInt64.size]
    omega
  have hline : ∀ t, byteLength t ≤ mostBytes → ∀ l : Text, l.length ≤ t.length →
      2 * l.length < wordSize := by
    intro t ht l hl
    have hlength := length_le_byteLength t
    rw [mostBytes] at ht
    rw [wordSize, UInt64.size]
    omega
  refine ⟨fun raw hraw => parse_eq_some (hlines raw hraw),
    fun m hraw hbody => check_eq_some (hlines _ hraw) fun b hb => hlines b (hbody b hb),
    fun raw hraw => fixMessage_eq_some o c (hlines raw hraw) fun b hb l hl =>
      hline raw hraw l (length_le_of_mem_lines_body hb hl),
    fun t ht => wrap_eq_some width fun l hl => hline t ht l (Text.length_le_of_mem_lines hl)⟩

/-- Characters of several bytes, a header limit that no text reaches and rows of one character. -/
theorem in_range_multibyte :
    let c : Config :=
      { Config.default with maxHeaderLength := 18446744073709551615, maxLineLength := 0 }
    let raw : Text := "feat: \u00c4pfel.\n\n\u00e4\u00f6 \u20ac\n\nRefs: #1".toList
    let m : Message := { Message.parse raw with raw := "\u00e9\nRefs: #1".toList }
    byteLength raw ≤ mostBytes ∧ byteLength m.raw ≤ mostBytes ∧
      parse raw = some (Message.parse raw) ∧
      check m c = some (m.check c) ∧
      fixMessage .all c raw =
        some (some "feat: \u00e4pfel\n\n\u00e4\n\u00f6\n\u20ac\n\nRefs: #1".toList) ∧
      wrap 2 "\u00e4\u00f6\u20ac".toList = some "\u00e4\u00f6\n\u20ac".toList := by
  intro c raw m
  have hraw : byteLength raw ≤ mostBytes := by decide +kernel
  have hmraw : byteLength m.raw ≤ mostBytes := by decide +kernel
  have hbody : ∀ b ∈ m.body, byteLength b ≤ mostBytes := by decide +kernel
  obtain ⟨hparse, hcheck, hfix, -⟩ := in_range .all c 0
  obtain ⟨-, -, -, hwrap⟩ := in_range .all c 2
  have hfixed : ConventionalCommit.fixMessage .all c raw =
      some "feat: \u00e4pfel\n\n\u00e4\n\u00f6\n\u20ac\n\nRefs: #1".toList := by decide +kernel
  have hwrapped : Text.wrap 2 "\u00e4\u00f6\u20ac".toList = "\u00e4\u00f6\n\u20ac".toList := by
    decide +kernel
  exact ⟨hraw, hmraw, hparse raw hraw, hcheck m hmraw hbody,
    hfixed ▸ hfix raw hraw, hwrapped ▸ hwrap _ (by decide +kernel)⟩

end Checked

end ConventionalCommit
