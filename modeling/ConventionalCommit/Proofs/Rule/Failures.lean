import ConventionalCommit.Proofs.Text.Tight
import ConventionalCommit.Rule.Check

/-!
# ConventionalCommit — when a message fails a rule

What each rule forbids, without the issues that it reports (`Message.Fails`).
A rule reports only issues of its own, so the rules that show among the issues of
a message are those that it fails.

* `check_ne_nil_iff`: a rule reports something exactly if the message fails it;
* `exists_mem_check_iff`, `exists_mem_errors_iff`: the same for the issues of all
  rules, and for those that make a message invalid.
-/

namespace ConventionalCommit

variable {c : Config} {m : Message} {r : Rule} {i : Issue} {raw s : Text} {n : Nat}

namespace Message

/-- The message does what a rule forbids. -/
def Fails (c : Config) (m : Message) : Rule → Prop
  | .typeEmpty => m.type = none
  | .typeEnum => ∃ t ∈ m.type, t ∉ c.types
  | .scopeEmpty => c.requireScope = true ∧ m.scope = none
  | .subjectEmpty => c.subjectEmptyForbidden = true ∧ m.visibleSubject = none
  | .subjectCase => ∃ s ∈ m.visibleSubject, ∃ x ∈ s.head?, c.subjectCase.admits x = false
  | .subjectFullStop =>
    c.subjectFullStopForbidden = true ∧ ∃ s ∈ m.visibleSubject, s.getLast? = some '.'
  | .blockedWords => ∃ s ∈ m.visibleSubject, ∃ w ∈ c.blockedWords, blocks s w = true
  | .headerMaxLength => c.maxHeaderLength.toNat < m.header.length
  | .bodyLeadingBlank =>
    c.bodyLeadingBlank = true ∧ m.body.isSome = true ∧ m.crowdsHeader = true
  | .bodyMaxLineLength => ∃ b ∈ m.body, ∃ l ∈ b.lines, c.maxLineLength.toNat < l.length
  | .footerLeadingBlank =>
    c.footerLeadingBlank = true ∧ m.footer.isSome = true ∧ m.crowdsFooter = true

end Message

/-- The issues about long lines are all of one rule. -/
theorem mem_longLines {limit : Nat} {ls : List Text} (h : i ∈ longLines limit n ls) :
    i.rule = .bodyMaxLineLength := by
  induction ls generalizing n with
  | nil => cases h
  | cons l rest ih =>
    rw [longLines] at h
    split at h
    · rcases List.mem_cons.mp h with rfl | h
      · rfl
      · exact ih h
    · exact ih h

/-- A long line is reported exactly if there is one, whatever the first line number is. -/
theorem longLines_ne_nil_iff {limit : Nat} {ls : List Text} :
    longLines limit n ls ≠ [] ↔ ∃ l ∈ ls, limit < l.length := by
  induction ls generalizing n with
  | nil => simp [longLines]
  | cons l rest ih =>
    rw [longLines]
    split
    · next h => simp [h]
    · next h => simp [ih, h]

namespace Rule

/-- A rule reports only issues of its own. So the issues of one rule can be picked from a report by
their rule. -/
theorem rule_of_mem_check (h : i ∈ r.check c m) : i.rule = r := by
  cases r with
  | blockedWords =>
    rw [check] at h
    split at h
    · obtain ⟨w, -, rfl⟩ := List.mem_map.mp h
      rfl
    · cases h
  | bodyMaxLineLength =>
    rw [check] at h
    split at h
    · exact mem_longLines h
    · cases h
  -- these two ask for a value first and then whether it is admitted
  | typeEnum | subjectCase =>
    rw [check] at h
    split at h
    · split at h
      · cases h
      · rw [List.mem_singleton.mp h]
        rfl
    · cases h
  | _ =>
    rw [check] at h
    split at h
    · rw [List.mem_singleton.mp h]
      rfl
    · cases h

/-- A rule reports something exactly if the message fails it. The check computes the issues, `Fails`
says when there is one without computing it. -/
theorem check_ne_nil_iff : r.check c m ≠ [] ↔ m.Fails c r := by
  cases r with
  | typeEnum => cases h : m.type <;> simp [check, Message.Fails, h]
  | subjectCase =>
    cases h : m.visibleSubject with
    | none => simp [check, Message.Fails, h]
    | some s => cases h' : s.head? <;> simp [check, Message.Fails, h, h']
  | subjectFullStop => cases h : m.visibleSubject <;> simp [check, Message.Fails, h]
  | blockedWords => cases h : m.visibleSubject <;> simp [check, Message.Fails, h]
  | bodyMaxLineLength =>
    cases h : m.body <;> simp [check, Message.Fails, h, longLines_ne_nil_iff]
  | typeEmpty | scopeEmpty | subjectEmpty | headerMaxLength =>
    simp [check, Message.Fails]
  | bodyLeadingBlank | footerLeadingBlank => simp [check, Message.Fails, and_assoc]

end Rule

namespace Message

/-- An issue of a message is one that its own rule reports, so each rule can be looked at by itself.
-/
theorem mem_check_iff : i ∈ m.check c ↔ i ∈ i.rule.check c m := by
  rw [check, List.mem_flatMap]
  constructor
  · rintro ⟨r, -, h⟩
    rwa [Rule.rule_of_mem_check h]
  · exact fun h => ⟨i.rule, Rule.mem_all _, h⟩

/-- The rules that show among the issues are those that the message fails. -/
theorem exists_mem_check_iff : (∃ i ∈ m.check c, i.rule = r) ↔ m.Fails c r := by
  rw [← Rule.check_ne_nil_iff]
  constructor
  · rintro ⟨i, hi, rfl⟩
    exact List.ne_nil_of_mem (mem_check_iff.mp hi)
  · intro hne
    obtain ⟨i, hi⟩ := List.exists_mem_of_ne_nil _ hne
    obtain rfl := Rule.rule_of_mem_check hi
    exact ⟨i, mem_check_iff.mpr hi, rfl⟩

end Message

/-- The rules that show among the errors are the grave ones that the message fails. -/
theorem exists_mem_errors_iff : (∃ i ∈ (lint c raw).errors, i.rule = r) ↔
    r.level = .error ∧ (Message.parse raw).Fails c r := by
  rw [← Message.exists_mem_check_iff]
  simp only [lint, List.mem_filter, beq_iff_eq, Issue.level]
  constructor
  · rintro ⟨i, ⟨hi, hlevel⟩, rfl⟩
    exact ⟨hlevel, i, hi, rfl⟩
  · rintro ⟨hlevel, i, hi, rfl⟩
    exact ⟨i, ⟨hi, hlevel⟩, rfl⟩

namespace Message

/-- The subject that is read is never blank, so the rules that skip a blank subject see every one
that was read. -/
theorem visibleSubject_parse (raw : Text) : (parse raw).visibleSubject = (parse raw).subject := by
  have hvisible : ∀ s ∈ (parse raw).subject, Text.isBlank s = false := by
    intro s hs
    simp only [parse] at hs
    split at hs <;> exact (Text.Tight.of_trimmed? hs).isBlank_eq_false
  rw [visibleSubject]
  cases hs : (parse raw).subject with
  | none => rfl
  | some s => rw [Option.filter_some, hvisible s hs]; rfl

end Message

end ConventionalCommit
