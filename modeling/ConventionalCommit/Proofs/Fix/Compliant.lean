import ConventionalCommit.Proofs.Fix.AtRest
import ConventionalCommit.Proofs.Fix.Rereading

/-!
# ConventionalCommit — what the rules say about a suggested fix

The rules look at a message as it was given, and the fixes at the fields that were read
from it. The two notions of a good message differ in three places. A full stop is stripped
whether it is forbidden or not, wrapping evens out the gaps between the paragraphs of a body
(`Text.EvenlySpaced`), which no rule looks at, and a first line is measured with its padding
(`Header.padding`), which no field keeps.

* `suggestedFix_eq_none_iff_of_check_eq_nil`: which messages without an issue are left alone;
* `length_header_add_padding`: the padding is all that a first line loses;
* `suggestedFix_isSome_iff_of_headerMaxLength`: which overlong headers get a fix.
-/

namespace ConventionalCommit

open Unicode (isWhite)
open Text (Tight trimmed? trim lines rows isBlank)

variable {c : Config} {d : Draft} {raw t u : Text} {width : Nat}

-- ---------------------------------------------------------------------------
-- Messages without an issue
-- ---------------------------------------------------------------------------

/-- Between two lines with text there is one empty line at most, and no newline has a return
before it. -/
structure Text.EvenlySpaced (t : Text) : Prop where
  gaps : ∀ u, '\n' :: u ++ ['\n'] <:+: t → isBlank u = true → u = []
  returns : Text.ReturnsBelow 1 t

/-- Wrapping leaves alone what is evenly spaced, if the lines fit. Then no row is filled anew, and
only the gaps could change. -/
theorem Text.Tight.wrap_eq_iff_of_fits (h : Tight t) (hfits : Text.LinesFit width t) :
    Text.wrap width t = t ↔ t.EvenlySpaced := by
  rw [h.wrap_eq_iff]
  constructor
  · exact fun ⟨hwrapped, hreturns⟩ => ⟨hwrapped.gaps, hreturns⟩
  · rintro ⟨hgaps, hreturns⟩
    refine ⟨⟨fun row hrow => ?_, hgaps⟩, hreturns⟩
    rw [← h.lines_eq_rows hreturns] at hrow
    exact (hfits row hrow).trans (Nat.le_max_left _ _)

namespace Message

variable {m : Message}

theorem not_fails_of_check_eq_nil (h : m.check c = []) (r : Rule) : ¬ m.Fails c r := by
  intro hfails
  obtain ⟨i, hi, -⟩ := exists_mem_check_iff.mpr hfails
  rw [h] at hi
  exact List.not_mem_nil hi

/-- What the rules leave to say of a message whose fields are trimmed: full stops count for the fix
even if they are allowed, and the gaps in a body count for no rule. -/
theorem atRest_ofMessage_iff (h : m.check c = []) (hvisible : m.visibleSubject = m.subject)
    (htight : ∀ b ∈ m.body, Tight b)
    (hshorter : (Draft.ofMessage m).header.length ≤ m.header.length) :
    (Draft.ofMessage m).AtRest c ↔
      (c.subjectFullStopForbidden = false → ∀ s ∈ m.subject, s.getLast? ≠ some '.') ∧
      ∀ b ∈ m.body, b.EvenlySpaced := by
  have htype : m.type ≠ none := not_fails_of_check_eq_nil h .typeEmpty
  have hcase := not_fails_of_check_eq_nil h .subjectCase
  have hstop := not_fails_of_check_eq_nil h .subjectFullStop
  have hheader : ¬ c.maxHeaderLength.toNat < m.header.length :=
    not_fails_of_check_eq_nil h .headerMaxLength
  have hlines := not_fails_of_check_eq_nil h .bodyMaxLineLength
  simp only [Fails, hvisible] at hcase hstop
  -- no line is too long, so wrapping can only change gaps and returns
  have hbody : ∀ b ∈ m.body, (Text.wrap c.maxLineLength.toNat b = b ↔ b.EvenlySpaced) := by
    intro b hb
    refine (htight b hb).wrap_eq_iff_of_fits fun l hl => ?_
    exact Nat.le_of_not_lt fun hlong => hlines ⟨b, hb, l, hl, hlong⟩
  constructor
  · intro hrest
    exact ⟨fun _ => hrest.stop, fun b hb => (hbody b hb).mp (hrest.body b hb)⟩
  · rintro ⟨hallowed, heven⟩
    refine ⟨fun hnone => absurd hnone htype, fun s hs x hx => ?_, fun s hs hlast => ?_,
      fun b hb => (hbody b hb).mpr (heven b hb), Or.inl ?_⟩
    · rw [← Bool.not_eq_false]
      exact fun hadmits => hcase ⟨s, hs, x, hx, hadmits⟩
    · cases hforbidden : c.subjectFullStopForbidden with
      | false => exact hallowed hforbidden s hs hlast
      | true => exact hstop ⟨hforbidden, s, hs, hlast⟩
    · omega

end Message

/-- The header that the fields of a message are written as is no longer than its first line. -/
theorem length_header_ofMessage (raw : Text) :
    (Draft.ofMessage (Message.parse raw)).header.length ≤ (Message.parse raw).header.length := by
  rw [Draft.ofMessage_parse]
  exact Draft.length_header_readHeader _ _ _

/--
A message without an issue is left alone exactly if its subject does not end in a full stop,
which it may where full stops are not forbidden, and its body is evenly spaced.
-/
theorem suggestedFix_eq_none_iff_of_check_eq_nil (h : (Message.parse raw).check c = []) :
    suggestedFix c raw = none ↔
      (c.subjectFullStopForbidden = false →
        ∀ s ∈ (Message.parse raw).subject, s.getLast? ≠ some '.') ∧
      ∀ b ∈ (Message.parse raw).body, b.EvenlySpaced := by
  have htight := (Draft.sectionsRead_ofMessage raw).body_tight
  rw [Draft.ofMessage_body] at htight
  rw [suggestedFix_eq_none_iff]
  exact Message.atRest_ofMessage_iff h (Message.visibleSubject_parse raw) htight
    (length_header_ofMessage raw)

/-- Two paragraphs with one empty line between them are evenly spaced, so a compliant message with
such a body needs no fix. -/
theorem suggestedFix_eq_none_of_check_paragraphs :
    (Message.parse "feat: add x

one

two".toList).check .default = [] ∧ suggestedFix .default "feat: add x

one

two".toList = none := by
  have h : (Message.parse "feat: add x

one

two".toList).check .default = [] := by decide +kernel
  have hbody : (Message.parse "feat: add x

one

two".toList).body = some "one

two".toList := by decide +kernel
  have htight : Tight "one

two".toList := Tight.of_trimmed? (t := "one

two".toList) (by decide +kernel)
  have hfits : ∀ l ∈ lines "one

two".toList, l.length ≤ 100 := by decide +kernel
  refine ⟨h, (suggestedFix_eq_none_iff_of_check_eq_nil h).mpr ⟨nofun, fun b hb => ?_⟩⟩
  rw [hbody] at hb
  obtain rfl := Option.some.inj hb
  exact (htight.wrap_eq_iff_of_fits hfits).mp (by decide +kernel)

/-- Blank lines beyond one between paragraphs break no rule, but they are removed. -/
theorem suggestedFix_ne_none_of_check_gap :
    ¬ ∀ (c : Config) (raw : Text), (Message.parse raw).check c = [] →
      suggestedFix c raw = none := by
  intro hall
  have h : suggestedFix .default "feat: add x

one


two".toList = some "feat: add x

one

two".toList := by decide +kernel
  have hnone := hall .default "feat: add x

one


two".toList (by decide +kernel)
  rw [h] at hnone
  cases hnone

-- ---------------------------------------------------------------------------
-- The padding of a first line
-- ---------------------------------------------------------------------------

/-- The number of characters of a first line that its fields do not keep: the white space at
its ends, and in a header all of the gap but one space and the white space around the scope,
with the parentheses of a blank one. -/
def Header.padding (line : Text) : Nat :=
  match Header.read? line with
  | some h =>
    (h.gap.length - 1) +
      ((scopeText h.scope).length - (scopeText (h.scope.bind trimmed?)).length) +
      (h.subject.length - (trim h.subject).length)
  | none => line.length - (trim line).length

namespace Draft

theorem length_of_trimmed? (h : trimmed? t = some u) :
    u.length + (t.length - (trim t).length) = t.length := by
  have hlen := (Text.infix_of_trimmed? h).length_le
  rw [(Text.trimmed?_eq_some_iff.mp h).1]
  omega

/-- A scope loses what is trimmed from it, and its parentheses if that is all. -/
theorem length_scopeText_trimmed (scope : Option Text) :
    (Header.scopeText (scope.bind trimmed?)).length ≤ (Header.scopeText scope).length := by
  cases scope with
  | none => exact Nat.le_refl _
  | some s =>
    cases hs : trimmed? s with
    | none => rw [Option.bind_some, hs]; exact Nat.zero_le _
    | some u =>
      have hlen := (Text.infix_of_trimmed? hs).length_le
      rw [Option.bind_some, hs]
      simp only [Header.scopeText, List.length_cons, List.length_append]
      omega

/-- A first line is longer than the header that its fields are written as by its padding. -/
theorem length_header_add_padding {line : Text} {body footer : Option Text}
    (hs : (readHeader line body footer).subject ≠ none) :
    (readHeader line body footer).header.length + Header.padding line = line.length := by
  obtain ⟨s, hs⟩ := Option.ne_none_iff_exists'.mp hs
  rw [header_of_subject hs, List.length_append, Header.padding]
  cases hr : Header.read? line with
  | none =>
    rw [readHeader_untyped hr] at hs ⊢
    exact (congrArg (· + _) (Nat.zero_add _)).trans (length_of_trimmed? hs)
  | some p =>
    obtain ⟨wf, rfl⟩ := Header.read?_eq_some_iff.mp hr
    -- the gap counts but for one space, and so does the white space in the scope and after the
    -- subject
    have hgap := List.length_pos_of_ne_nil wf.gap_ne_nil
    have hscope := length_scopeText_trimmed p.scope
    rw [readHeader, hr] at hs ⊢
    have hsubject := length_of_trimmed? hs
    simp only [typePrefix, Header.text, List.length_append, List.length_cons, List.length_nil]
    omega

end Draft

-- ---------------------------------------------------------------------------
-- Headers that are too long
-- ---------------------------------------------------------------------------

/-- With room for a subject, a draft is changed exactly if its header is too long or another
edit has something to do. -/
theorem Draft.fixDraft_all_ne_self_iff (hd : d.HeaderRead)
    (hroom : leastSubject < c.maxHeaderLength.toNat - d.typePrefix.length) :
    fixDraft .all c d ≠ d ↔
      c.maxHeaderLength.toNat < d.header.length ∨ d.edited .all c ≠ d := by
  rw [← not_iff_not, not_not, not_or, not_not, Nat.not_lt]
  constructor
  · intro h
    have hrest := (fixDraft_all_eq_self_iff hd).mp h
    refine ⟨hrest.room.resolve_right (Nat.not_le.mpr hroom), ?_⟩
    exact edited_all_eq (inferredType_eq_self_iff.mpr hrest.verb)
      (fun s hs => ⟨hrest.case s hs, hrest.stop s hs⟩) (map_wrap_eq_self_iff.mpr hrest.body)
  · rintro ⟨hfits, hsame⟩
    rw [fixDraft_eq, hsame]
    exact withHeaderWithin_eq_self_iff.mpr (Or.inl hfits)

/--
A message whose header is too long, but leaves room for a subject, gets a fix exactly if the
header is too long without its padding as well or another edit has something to do. So it does
if there is no padding.
-/
theorem suggestedFix_isSome_iff_of_headerMaxLength
    (hlong : ∃ i ∈ (Message.parse raw).check c, i.rule = .headerMaxLength)
    (hsubject : (Message.parse raw).subject ≠ none)
    (hroom : Draft.leastSubject <
      c.maxHeaderLength.toNat - (Draft.ofMessage (Message.parse raw)).typePrefix.length) :
    ((suggestedFix c raw).isSome = true ↔
      c.maxHeaderLength.toNat + Header.padding (Message.parse raw).header <
          (Message.parse raw).header.length ∨
        (Draft.ofMessage (Message.parse raw)).edited .all c ≠
          Draft.ofMessage (Message.parse raw)) ∧
    (Header.padding (Message.parse raw).header = 0 → (suggestedFix c raw).isSome = true) := by
  have hread := Draft.ofMessage_parse raw
  -- the rule counts the padding after the colon, the cut does not
  have hlen : (Draft.ofMessage (Message.parse raw)).header.length +
      Header.padding (Message.parse raw).header = (Message.parse raw).header.length := by
    rw [hread]
    exact Draft.length_header_add_padding (by rwa [← hread])
  have hiff : (suggestedFix c raw).isSome = true ↔
      c.maxHeaderLength.toNat + Header.padding (Message.parse raw).header <
          (Message.parse raw).header.length ∨
        (Draft.ofMessage (Message.parse raw)).edited .all c ≠
          Draft.ofMessage (Message.parse raw) := by
    rw [Option.isSome_iff_ne_none, suggestedFix, ne_eq, fixMessage_eq_none_iff, ← ne_eq,
      Draft.fixDraft_all_ne_self_iff (Draft.headerRead_ofMessage raw) hroom, ← hlen,
      Nat.add_lt_add_iff_right]
  refine ⟨hiff, fun hnone => hiff.mpr (Or.inl ?_)⟩
  have hover : c.maxHeaderLength.toNat < (Message.parse raw).header.length :=
    Message.exists_mem_check_iff.mp hlong
  omega

/-- A header without padding is cut. -/
theorem suggestedFix_isSome_of_headerMaxLength_plain :
    let c := { Config.default with maxHeaderLength := 20 }
    (∃ i ∈ (Message.parse "feat: add the login page".toList).check c,
      i.rule = .headerMaxLength) ∧
      (suggestedFix c "feat: add the login page".toList).isSome = true := by
  intro c
  have hlong : ∃ i ∈ (Message.parse "feat: add the login page".toList).check c,
      i.rule = .headerMaxLength :=
    ⟨.headerTooLong 20 24, by decide +kernel, rfl⟩
  exact ⟨hlong, (suggestedFix_isSome_iff_of_headerMaxLength hlong (by decide +kernel)
    (by decide +kernel)).2 (by decide +kernel)⟩

/-- A header may be too long by its padding alone, which is no field to fix. -/
theorem suggestedFix_isSome_of_headerMaxLength_padded :
    ¬ ∀ (c : Config) (raw : Text),
      (∃ i ∈ (Message.parse raw).check c, i.rule = .headerMaxLength) →
      (Message.parse raw).subject ≠ none →
      Draft.leastSubject <
        c.maxHeaderLength.toNat - (Draft.ofMessage (Message.parse raw)).typePrefix.length →
      (suggestedFix c raw).isSome = true := by
  intro hall
  have hsome := hall { Config.default with maxHeaderLength := 20 }
    "feat:            add x".toList ⟨.headerTooLong 20 22, by decide +kernel, rfl⟩
    (by decide +kernel) (by decide +kernel)
  revert hsome
  decide +kernel

end ConventionalCommit
