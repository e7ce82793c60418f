import ConventionalCommit.Proofs.Rule.Failures

/-!
# ConventionalCommit — the order of issues

Checking asks the rules one after the other, so the issues of a message are those of each rule
in turn. Every statement about the list of all issues is therefore one about the rules
(`Message.filter_check`) and one about what a single rule reports.

* `check_orderly`: in which order issues come, which of them come at most once and which never
  come together;
* `Message.filter_level_check`: the errors come before the warnings, so sorting the issues by
  level keeps their order.
-/

namespace ConventionalCommit

variable {c : Config} {m : Message} {r s : Rule} {raw : Text} {limit n : Nat}

namespace Issue

/-- The blocked word that an issue names. -/
def word? : Issue → Option Text
  | subjectContains word => some word
  | _ => none

/-- The number of the body line that an issue names. -/
def line? : Issue → Option Nat
  | bodyLineTooLong line _ _ => some line
  | _ => none

theorem rule_of_word? {i : Issue} {w : Text} (h : i.word? = some w) : i.rule = .blockedWords := by
  cases i with
  | subjectContains => rfl
  | _ => cases h

theorem rule_of_line? {i : Issue} (h : i.line? = some n) : i.rule = .bodyMaxLineLength := by
  cases i with
  | bodyLineTooLong => rfl
  | _ => cases h

/-- Issues as they come from checking a message: rule by rule, and in order within a rule. -/
structure Orderly (c : Config) (issues : List Issue) : Prop where
  /-- The rules come in the order of their declaration. -/
  rules : issues.Pairwise fun i j => i.rule.ctorIdx ≤ j.rule.ctorIdx
  once : ∀ r, r ≠ .blockedWords → r ≠ .bodyMaxLineLength →
    (issues.filter (·.rule == r)).length ≤ 1
  /-- A type that is missing is not unknown as well. -/
  type : (∃ i ∈ issues, i.rule = .typeEmpty) → ∀ i ∈ issues, i.rule ≠ .typeEnum
  /-- Nothing else is said about a subject that is missing. -/
  subject : (∃ i ∈ issues, i.rule = .subjectEmpty) →
    ∀ i ∈ issues, i.rule ∉ [.subjectCase, .subjectFullStop, .blockedWords]
  words : (issues.filterMap word?).Sublist c.blockedWords
  lines : (issues.filterMap line?).Pairwise (· < ·)

end Issue

-- ---------------------------------------------------------------------------
-- The issues of some of the rules
-- ---------------------------------------------------------------------------

namespace Message

/-- Choosing issues by their rules is choosing the rules that are asked, because a rule reports only
issues of its own. -/
theorem filter_check (p : Rule → Bool) :
    (m.check c).filter (fun i => p i.rule) = (Rule.all.filter p).flatMap (·.check c m) := by
  have hrule : ∀ r, (r.check c m).filter (fun i => p i.rule) =
      if p r then r.check c m else [] := by
    intro r
    split
    · next hr =>
      exact List.filter_eq_self.mpr fun i hi => by rw [Rule.rule_of_mem_check hi, hr]
    · next hr =>
      exact List.filter_eq_nil_iff.mpr fun i hi => by rwa [Rule.rule_of_mem_check hi]
  rw [check, List.filter_flatMap, List.flatMap_congr fun r _ => hrule r]
  -- the rules that are not chosen give nothing, so they may be left out
  induction Rule.all with
  | nil => rfl
  | cons r rest ih =>
    rw [List.flatMap_cons, List.filter_cons, ih]
    split
    · rw [List.flatMap_cons]
    · rw [List.nil_append]

theorem filter_rule_check : (m.check c).filter (·.rule == r) = r.check c m := by
  have hone : Rule.all.filter (· == r) = [r] := by cases r <;> decide
  rw [filter_check (· == r), hone, List.flatMap_singleton]

/-- The rules that can make a message invalid come first, so the issues are the errors
followed by the warnings. -/
theorem filter_level_check :
    (m.check c).filter (·.level == .error) ++ (m.check c).filter (·.level == .warning) =
      m.check c := by
  have hsplit : Rule.all.filter (·.level == .error) ++ Rule.all.filter (·.level == .warning) =
      Rule.all := by decide
  simp only [Issue.level]
  rw [filter_check (·.level == .error), filter_check (·.level == .warning),
    ← List.flatMap_append, hsplit, check]

/-- What can be read only off the issues of one rule is read off what that rule reports. -/
theorem filterMap_check {α : Type} {f : Issue → Option α}
    (h : ∀ i a, f i = some a → i.rule = r) :
    (m.check c).filterMap f = (r.check c m).filterMap f := by
  rw [← filter_rule_check (m := m), List.filterMap_filter]
  refine List.filterMap_congr fun i _ => ?_
  split
  · rfl
  · next hr =>
    cases hf : f i with
    | none => rfl
    | some a => exact absurd (beq_iff_eq.mpr (h i a hf)) hr

end Message

-- ---------------------------------------------------------------------------
-- The issues of one rule
-- ---------------------------------------------------------------------------

/-- Long lines are reported under numbers that ascend. The number goes up with each line, whether it
is reported or not. -/
theorem longLines_ascend (ls : List Text) :
    (∀ k ∈ (longLines limit n ls).filterMap Issue.line?, n ≤ k) ∧
      ((longLines limit n ls).filterMap Issue.line?).Pairwise (· < ·) := by
  induction ls generalizing n with
  | nil => exact ⟨nofun, List.Pairwise.nil⟩
  | cons l rest ih =>
    obtain ⟨hlow, hascend⟩ := ih (n := n + 1)
    -- the numbers of the lines below are greater by one at least
    have hhigh : ∀ k ∈ (longLines limit (n + 1) rest).filterMap Issue.line?, n < k := hlow
    rw [longLines]
    split
    · rw [List.filterMap_cons_some (f := Issue.line?) rfl]
      refine ⟨fun k hk => ?_, hascend.cons hhigh⟩
      rcases List.mem_cons.mp hk with rfl | hk
      · exact Nat.le_refl k
      · exact Nat.le_of_lt (hhigh k hk)
    · exact ⟨fun k hk => Nat.le_of_lt (hhigh k hk), hascend⟩

namespace Rule

/-- A rule reports one issue at most, unless it looks at the words of a list or at the lines of
the body. -/
theorem length_check_le_one (hwords : r ≠ .blockedWords) (hlines : r ≠ .bodyMaxLineLength) :
    (r.check c m).length ≤ 1 := by
  cases r with
  | blockedWords => exact absurd rfl hwords
  | bodyMaxLineLength => exact absurd rfl hlines
  | typeEnum | subjectCase =>
    rw [check]
    split
    · split <;> simp
    · simp
  | _ =>
    rw [check]
    split <;> simp

/-- The words are reported in the order of the list. -/
theorem words_check_sublist :
    ((blockedWords.check c m).filterMap Issue.word?).Sublist c.blockedWords := by
  rw [check]
  split
  · have hword : Issue.word? ∘ Issue.subjectContains = some := rfl
    rw [List.filterMap_map, hword, List.filterMap_some]
    exact List.filter_sublist
  · exact List.nil_sublist _

/-- The lines of a body are reported from top to bottom, each one once. -/
theorem lines_check_pairwise :
    ((bodyMaxLineLength.check c m).filterMap Issue.line?).Pairwise (· < ·) := by
  rw [check]
  split
  · exact (longLines_ascend _).2
  · exact List.Pairwise.nil

end Rule

-- ---------------------------------------------------------------------------
-- All issues
-- ---------------------------------------------------------------------------

namespace Message

/-- The rules are asked, and so report, in the order of their declaration. -/
theorem rules_check_pairwise :
    (m.check c).Pairwise fun i j => i.rule.ctorIdx ≤ j.rule.ctorIdx := by
  have hall : Rule.all.Pairwise fun r s => r.ctorIdx ≤ s.ctorIdx := by decide
  rw [check, List.pairwise_flatMap]
  refine ⟨fun r _ => ?_, hall.imp fun hle i hi j hj => ?_⟩
  · refine List.pairwise_of_forall_mem_list fun i hi j hj => ?_
    rw [Rule.rule_of_mem_check hi, Rule.rule_of_mem_check hj]
  · rwa [Rule.rule_of_mem_check hi, Rule.rule_of_mem_check hj]

/-- A message without a type has none that could be unknown, so the two rules on the type never
report together. -/
theorem not_fails_typeEnum (h : m.type = none) : ¬ m.Fails c .typeEnum := by
  rintro ⟨t, ht, -⟩
  rw [h] at ht
  cases ht

/-- A message without a subject passes the rules on what a subject says. Only the rule that asks for
a subject can fail then. -/
theorem not_fails_of_visibleSubject (h : m.visibleSubject = none)
    (hr : r ∈ [Rule.subjectCase, Rule.subjectFullStop, Rule.blockedWords]) : ¬ m.Fails c r := by
  have hnone : ∀ s, s ∉ m.visibleSubject := fun s hs => by
    rw [h] at hs
    cases hs
  simp only [List.mem_cons, List.not_mem_nil, or_false] at hr
  rcases hr with rfl | rfl | rfl
  · rintro ⟨s, hs, -⟩
    exact hnone s hs
  · rintro ⟨-, s, hs, -⟩
    exact hnone s hs
  · rintro ⟨s, hs, -⟩
    exact hnone s hs

end Message

/-- The issues of a message come in order. Linting keeps that order, and the message is valid
if no issue is an error. -/
theorem check_orderly (c : Config) (m : Message) (raw : Text) :
    Issue.Orderly c (m.check c) ∧
    (lint c raw).issues = (Message.parse raw).check c ∧
    ((lint c raw).valid = true ↔ ∀ i ∈ (Message.parse raw).check c, i.level ≠ .error) := by
  refine ⟨?_, Message.filter_level_check, ?_⟩
  · exact
      { rules := Message.rules_check_pairwise
        once := fun r hwords hlines => by
          rw [Message.filter_rule_check]
          exact Rule.length_check_le_one hwords hlines
        type := fun hmissing i hi hr => by
          have hnone : m.type = none := Message.exists_mem_check_iff.mp hmissing
          exact Message.not_fails_typeEnum hnone (Message.exists_mem_check_iff.mp ⟨i, hi, hr⟩)
        subject := fun hmissing i hi hr => by
          have hnone : m.visibleSubject = none := (Message.exists_mem_check_iff.mp hmissing).2
          exact Message.not_fails_of_visibleSubject hnone hr
            (Message.exists_mem_check_iff.mp ⟨i, hi, rfl⟩)
        -- the issues of one rule only are about words, in the order of the setting
        words := by
          rw [Message.filterMap_check fun _ _ => Issue.rule_of_word?]
          exact Rule.words_check_sublist
        -- and those of one rule only are about lines
        lines := by
          rw [Message.filterMap_check fun _ _ => Issue.rule_of_line?]
          exact Rule.lines_check_pairwise }
  · -- valid means that the part with the errors is empty
    rw [LintResult.valid, List.isEmpty_iff]
    show (Message.check _ c).filter _ = [] ↔ _
    simp [List.filter_eq_nil_iff]

end ConventionalCommit
