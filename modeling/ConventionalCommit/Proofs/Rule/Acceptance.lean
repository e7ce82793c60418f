import ConventionalCommit.Proofs.Message.SectionTexts
import ConventionalCommit.Proofs.Rule.Failures

/-!
# ConventionalCommit — the messages that are valid

Every rule that can make a message invalid looks at the first line only: at its length and
at the pieces of the header that it is read as. So the valid messages are those whose first
line is a header that the configuration admits (`Config.Admits`), and two messages with the
same first line have the same errors.

* `Message.admits_of_not_fails`, `Message.not_fails_of_admits`: the rules on the pieces of a
  header, in both directions;
* `lint_valid_iff`: the language that linting accepts.
-/

namespace ConventionalCommit

open Text (trimmed? lines)

variable {c : Config} {p : Header} {raw raw' line s t : Text}

-- ---------------------------------------------------------------------------
-- Headers that are admitted
-- ---------------------------------------------------------------------------

/-- The pieces of a header are what the configuration asks for. -/
structure Config.Admits (c : Config) (p : Header) : Prop where
  type : p.type ∈ c.types
  scope : c.requireScope = true → ∃ s ∈ p.scope, s.trim ≠ []
  subject : c.subjectEmptyForbidden = true → p.subject.trim ≠ []
  case : ∀ x ∈ p.subject.trim.head?, c.subjectCase.admits x = true
  stop : c.subjectFullStopForbidden = true → p.subject.trim.getLast? ≠ some '.'
  words : p.subject.trim ≠ [] → ∀ w ∈ c.blockedWords, w ≠ [] →
    ¬ w.lowercase <:+: p.subject.trim.lowercase

/-- A line that is a header of the length that is allowed, with pieces that are admitted. -/
def Config.Accepts (c : Config) (line : Text) : Prop :=
  line.length ≤ c.maxHeaderLength.toNat ∧ ∃ p : Header, p.WellFormed ∧ p.text = line ∧ c.Admits p

-- ---------------------------------------------------------------------------
-- The fields of the first line
-- ---------------------------------------------------------------------------

namespace Message

theorem type_parse (raw : Text) :
    (parse raw).type = (Header.read? raw.firstLine).map (·.type) := by
  rw [← header_parse]
  rfl

/-- The scope is read from the first line, and a blank one counts as none. -/
theorem scope_parse (raw : Text) :
    (parse raw).scope = (Header.read? raw.firstLine).bind fun h => h.scope.bind trimmed? := by
  rw [← header_parse]
  rfl

/-- The subject is read from the first line, or is the line itself if that is no header. -/
theorem subject_parse (raw : Text) :
    (parse raw).subject = match Header.read? raw.firstLine with
      | some h => trimmed? h.subject
      | none => trimmed? raw.firstLine := by
  rw [← header_parse]
  rfl

/-- Whether a message fails a grave rule depends on its first line alone. The other rules are about
the sections, and they only warn. -/
theorem check_eq_of_firstLine (h : raw.firstLine = raw'.firstLine) {r : Rule}
    (hr : r.level = .error) : r.check c (parse raw) = r.check c (parse raw') := by
  have hheader : (parse raw).header = (parse raw').header := by
    rw [header_parse, header_parse, h]
  have htype : (parse raw).type = (parse raw').type := by rw [type_parse, type_parse, h]
  have hscope : (parse raw).scope = (parse raw').scope := by rw [scope_parse, scope_parse, h]
  have hsubject : (parse raw).visibleSubject = (parse raw').visibleSubject := by
    rw [visibleSubject, visibleSubject, subject_parse, subject_parse, h]
  -- each grave rule looks at one of these four, and the other rules are not grave
  cases r with
  | typeEmpty | typeEnum => rw [Rule.check, Rule.check, htype]
  | scopeEmpty => rw [Rule.check, Rule.check, hscope]
  | subjectEmpty | subjectCase | subjectFullStop | blockedWords =>
    rw [Rule.check, Rule.check, hsubject]
  | headerMaxLength => rw [Rule.check, Rule.check, hheader]
  | bodyLeadingBlank | bodyMaxLineLength | footerLeadingBlank => cases hr

end Message

-- ---------------------------------------------------------------------------
-- Errors
-- ---------------------------------------------------------------------------

/-- Of what a rule reports, the errors are all or nothing, as the rule is grave or not. -/
theorem Rule.filter_error_check {m : Message} (r : Rule) :
    (r.check c m).filter (·.level == .error) = if r.level = .error then r.check c m else [] := by
  split
  · next hr =>
    refine List.filter_eq_self.mpr fun i hi => ?_
    rw [Issue.level, Rule.rule_of_mem_check hi, hr]
    rfl
  · next hr =>
    refine List.filter_eq_nil_iff.mpr fun i hi => ?_
    rw [Issue.level, Rule.rule_of_mem_check hi]
    simpa using hr

/-- Two messages with the same first line have the same errors, because the rules that look at
anything else only warn. -/
theorem errors_eq_of_firstLine (h : raw.firstLine = raw'.firstLine) :
    (lint c raw).errors = (lint c raw').errors := by
  show (Message.check _ c).filter _ = (Message.check _ c).filter _
  rw [Message.check, Message.check, List.filter_flatMap, List.filter_flatMap]
  refine List.flatMap_congr fun r _ => ?_
  rw [Rule.filter_error_check, Rule.filter_error_check]
  split
  · next hr => exact Message.check_eq_of_firstLine h hr
  · rfl

/-- A message is valid if it fails none of the grave rules. Warnings are issues too, but they do not
count here. -/
theorem valid_iff_forall_not_fails : (lint c raw).valid = true ↔
    ∀ r : Rule, r.level = .error → ¬ (Message.parse raw).Fails c r := by
  rw [LintResult.valid, List.isEmpty_iff]
  constructor
  · intro hnil r hr hfails
    obtain ⟨i, hi, -⟩ := exists_mem_errors_iff.mpr ⟨hr, hfails⟩
    rw [hnil] at hi
    cases hi
  · intro h
    refine List.eq_nil_iff_forall_not_mem.mpr fun i hi => ?_
    obtain ⟨hr, hfails⟩ := exists_mem_errors_iff.mp ⟨i, hi, rfl⟩
    exact h _ hr hfails

-- ---------------------------------------------------------------------------
-- The valid messages
-- ---------------------------------------------------------------------------

/-- A word is blocked in a subject exactly if its lower case stands somewhere in that of the
subject. The empty word blocks nothing. -/
theorem blocks_eq_true_iff : blocks s t = true ↔ t ≠ [] ∧ t.lowercase <:+: s.lowercase := by
  rw [blocks, Bool.and_eq_true, Text.occursIn_iff]
  simp

namespace Message

/-- The pieces of a header that passes every grave rule are admitted. Each condition on the pieces
is what the rule on that field denies. -/
theorem admits_of_not_fails (hread : Header.read? raw.firstLine = some p)
    (h : ∀ r : Rule, r.level = .error → ¬ (parse raw).Fails c r) : c.Admits p := by
  have hvisible : (parse raw).visibleSubject = trimmed? p.subject := by
    rw [visibleSubject_parse, subject_parse, hread]
  have hsubject : p.subject.trim ≠ [] → (parse raw).visibleSubject = some p.subject.trim :=
    fun hne => hvisible.trans (Text.trimmed?_eq_some_iff.mpr ⟨rfl, hne⟩)
  exact
    { type := by
        -- a condition that did not hold would fail its own rule
        by_contra hnot
        exact h .typeEnum rfl ⟨p.type, by rw [type_parse, hread]; rfl, hnot⟩
      scope := fun hrequire => by
        by_contra hnot
        refine h .scopeEmpty rfl ⟨hrequire, ?_⟩
        rw [scope_parse, hread, Option.bind_some]
        refine Option.bind_eq_none_iff.mpr fun s hs => ?_
        exact Text.trimmed?_eq_none_iff.mpr (by by_contra hne; exact hnot ⟨s, hs, hne⟩)
      subject := fun hforbidden hnil => h .subjectEmpty rfl
        ⟨hforbidden, by rw [hvisible, Text.trimmed?_eq_none_iff, hnil]⟩
      case := fun x hx => by
        have hne : p.subject.trim ≠ [] := by rintro e; rw [e] at hx; cases hx
        by_contra hnot
        exact h .subjectCase rfl ⟨_, hsubject hne, x, hx, Bool.eq_false_iff.mpr hnot⟩
      stop := fun hforbidden hlast => by
        have hne : p.subject.trim ≠ [] := by rintro e; rw [e] at hlast; cases hlast
        exact h .subjectFullStop rfl ⟨hforbidden, _, hsubject hne, hlast⟩
      words := fun hne w hw hword hinfix => h .blockedWords rfl
        ⟨_, hsubject hne, w, hw, blocks_eq_true_iff.mpr ⟨hword, hinfix⟩⟩ }

/-- A header with admitted pieces passes every grave rule but the one on its length. -/
theorem not_fails_of_admits (hread : Header.read? raw.firstLine = some p) (h : c.Admits p)
    (hlength : raw.firstLine.length ≤ c.maxHeaderLength.toNat) {r : Rule}
    (hr : r.level = .error) : ¬ (parse raw).Fails c r := by
  -- the rules on the subject look at it without its white space
  have hvisible : (parse raw).visibleSubject = trimmed? p.subject := by
    rw [visibleSubject_parse, subject_parse, hread]
  have hsubject : ∀ s ∈ (parse raw).visibleSubject, p.subject.trim = s ∧ s ≠ [] := fun s hs =>
    Text.trimmed?_eq_some_iff.mp (hvisible ▸ hs)
  -- one case a rule: a failure says something of a piece that the admission denies
  cases r with
  | typeEmpty =>
    intro (hnone : (parse raw).type = none)
    rw [type_parse, hread] at hnone
    cases hnone
  | typeEnum =>
    rintro ⟨t, ht, hnot⟩
    rw [type_parse, hread] at ht
    obtain rfl := Option.some.inj ht
    exact hnot h.type
  | scopeEmpty =>
    rintro ⟨hrequire, hnone⟩
    obtain ⟨s, hs, hne⟩ := h.scope hrequire
    rw [scope_parse, hread, Option.bind_some] at hnone
    exact hne (Text.trimmed?_eq_none_iff.mp (Option.bind_eq_none_iff.mp hnone s hs))
  | subjectEmpty =>
    rintro ⟨hforbidden, hnone⟩
    rw [hvisible, Text.trimmed?_eq_none_iff] at hnone
    exact h.subject hforbidden hnone
  | subjectCase =>
    rintro ⟨s, hs, x, hx, hnot⟩
    obtain ⟨rfl, -⟩ := hsubject s hs
    rw [h.case x hx] at hnot
    cases hnot
  | subjectFullStop =>
    rintro ⟨hforbidden, s, hs, hlast⟩
    obtain ⟨rfl, -⟩ := hsubject s hs
    exact h.stop hforbidden hlast
  | blockedWords =>
    rintro ⟨s, hs, w, hw, hblocks⟩
    obtain ⟨rfl, hne⟩ := hsubject s hs
    obtain ⟨hword, hinfix⟩ := blocks_eq_true_iff.mp hblocks
    exact h.words hne w hw hword hinfix
  | headerMaxLength =>
    intro (hlong : _ < (parse raw).header.length)
    rw [header_parse] at hlong
    omega
  | bodyLeadingBlank | bodyMaxLineLength | footerLeadingBlank => cases hr

end Message

/-- The valid messages are those with a first line that the configuration accepts, and what
stands under that line plays no part in the errors either. -/
theorem lint_valid_iff (c : Config) (raw raw' : Text) :
    ((lint c raw).valid = true ↔ c.Accepts raw.firstLine) ∧
    (raw.firstLine = raw'.firstLine → (lint c raw).errors = (lint c raw').errors) := by
  refine ⟨?_, errors_eq_of_firstLine⟩
  rw [valid_iff_forall_not_fails]
  constructor
  · intro h
    have htype : (Message.parse raw).type ≠ none := h .typeEmpty rfl
    -- the rule on the type makes the first line a header
    obtain ⟨p, hread⟩ : ∃ p, Header.read? raw.firstLine = some p := by
      rw [Message.type_parse] at htype
      exact Option.ne_none_iff_exists'.mp fun e => htype (by rw [e]; rfl)
    obtain ⟨wf, htext⟩ := Header.read?_eq_some_iff.mp hread
    refine ⟨?_, p, wf, htext, Message.admits_of_not_fails hread h⟩
    have hlength : ¬ _ < (Message.parse raw).header.length := h .headerMaxLength rfl
    rw [Message.header_parse] at hlength
    omega
  · rintro ⟨hlength, p, wf, htext, hadmits⟩ r hr
    exact Message.not_fails_of_admits (Header.read?_eq_some_iff.mpr ⟨wf, htext⟩) hadmits
      hlength hr

/-- What stands under the first line may be warned about, but is no error. -/
theorem lint_valid_iff_crowded :
    Text.firstLine "feat: add x".toList = Text.firstLine "feat: add x\nno gap".toList ∧
    (lint .default "feat: add x".toList).errors =
      (lint .default "feat: add x\nno gap".toList).errors :=
  have h : Text.firstLine "feat: add x".toList = Text.firstLine "feat: add x\nno gap".toList := by
    decide +kernel
  ⟨h, (lint_valid_iff .default "feat: add x".toList "feat: add x\nno gap".toList).2 h⟩

end ConventionalCommit
