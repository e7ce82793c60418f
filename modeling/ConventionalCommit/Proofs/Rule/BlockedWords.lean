import ConventionalCommit.Proofs.Rule.Acceptance
import ConventionalCommit.Proofs.Text.Sigma

/-!
# ConventionalCommit — which blocked words are found

The rule about blocked words takes the subject and each word to lower case on their own, and then
searches for the one in the other. This finds a word wherever it stands if its lower case is that
of the same characters in the subject. The full mapping of Unicode keeps to this but for the
capital sigma, so a word that ends in one may be missed inside a longer word.

* `mem_check_subjectContains_iff`: when the rule reports a word;
* `blockedWord_found_iff`: the words that it reports wherever they occur.
-/

namespace ConventionalCommit

variable {c : Config} {m : Message} {w s : Text}

namespace Message

/-- An issue names a blocked word exactly if its lower case stands in that of the subject. So the
search is described without the loop over the words. -/
theorem mem_check_subjectContains_iff : .subjectContains w ∈ m.check c ↔
    w ∈ c.blockedWords ∧ w ≠ [] ∧ ∃ s ∈ m.visibleSubject, w.lowercase <:+: s.lowercase := by
  rw [mem_check_iff]
  show _ ∈ Rule.check .blockedWords c m ↔ _
  cases h : m.visibleSubject with
  | none => simp [Rule.check, h]
  | some s => simp [Rule.check, h, blocks_eq_true_iff]

theorem visibleSubject_eq_some (hs : m.subject = some s) (hvisible : s.isBlank = false) :
    m.visibleSubject = some s := by
  rw [visibleSubject, hs, Option.filter_some, hvisible]
  rfl

/-- A message with a given subject. -/
def ofSubject (s : Text) : Message := { parse [] with subject := some s }

/-- A blocked word is reported for one subject exactly if its lower case is found there. -/
theorem mem_check_ofSubject_iff (hvisible : s.isBlank = false) :
    .subjectContains w ∈ (ofSubject s).check { Config.default with blockedWords := [w] } ↔
      w ≠ [] ∧ w.lowercase <:+: s.lowercase := by
  rw [mem_check_subjectContains_iff, visibleSubject_eq_some rfl hvisible]
  simp

end Message

/--
The words that are reported wherever they occur in a subject are the nonempty ones in which no
capital sigma has a small form that depends on what stands around the word. In particular, any
word without a capital sigma is reported.
-/
theorem blockedWord_found_iff (w : Text) :
    ((∀ (c : Config) (m : Message) (s : Text), w ∈ c.blockedWords → m.subject = some s →
        s.isBlank = false → w <:+: s → .subjectContains w ∈ m.check c) ↔
      w ≠ [] ∧ w.settled = true) ∧
    ('Σ' ∉ w → w.settled = true) := by
  refine ⟨⟨fun h => ?_, ?_⟩, Text.settled_of_not_mem⟩
  · -- one word and one subject are enough
    have hfound : ∀ s : Text, s.isBlank = false → w <:+: s →
        w ≠ [] ∧ w.lowercase <:+: s.lowercase := by
      intro s hvisible hinfix
      rw [← Message.mem_check_ofSubject_iff hvisible]
      exact h _ _ s (List.mem_singleton_self w) rfl hvisible hinfix
    refine ⟨(hfound ('a' :: w) rfl (List.suffix_cons _ _).isInfix).1, ?_⟩
    rw [← Text.lowercase_isInfix_iff_settled]
    exact fun s hvisible hinfix => (hfound s hvisible hinfix).2
  · rintro ⟨hne, hsettled⟩ c m s hword hs hvisible hinfix
    rw [Message.mem_check_subjectContains_iff]
    exact ⟨hword, hne, s, Message.visibleSubject_eq_some hs hvisible,
      Text.lowercase_isInfix_of_settled hsettled hinfix⟩

/-- The last letter of `ΟΔΟΣ` becomes `ς`, and `σ` in the longer word `ΟΔΟΣΗΜΑΝΣΗ`. So the word is
in the subject, but its lower case is not in that of the subject. -/
theorem blockedWord_missed :
    ¬ ∀ (c : Config) (m : Message) (s w : Text), m.subject = some s → s.isBlank = false →
      w ∈ c.blockedWords → w ≠ [] → w <:+: s → .subjectContains w ∈ m.check c := by
  intro h
  have hsubject : (Message.parse "feat: add ΟΔΟΣΗΜΑΝΣΗ".toList).subject =
      some "add ΟΔΟΣΗΜΑΝΣΗ".toList := by
    decide +kernel
  have hinfix : "ΟΔΟΣ".toList <:+: "add ΟΔΟΣΗΜΑΝΣΗ".toList := by
    rw [← Text.occursIn_iff]
    decide
  have hfound := h { Config.default with blockedWords := ["ΟΔΟΣ".toList] } _ _ "ΟΔΟΣ".toList
    hsubject (by decide) (List.mem_singleton_self _) (by decide) hinfix
  exact absurd hfound (by decide +kernel)

/-- A sigma inside of a word has its form there. -/
example : Text.settled "ΟΔΟΣ".toList = false ∧ Text.settled "ΟΔΟΣΗ".toList = true := by
  decide

end ConventionalCommit
