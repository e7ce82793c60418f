import ConventionalCommit.Proofs.Config.Settings
import ConventionalCommit.Proofs.Rule.Order

/-!
# ConventionalCommit — rules and their settings

A rule looks at one setting at most (`Rule.key?`), and each setting is that of one rule. So the
issues of a rule are the same under all configurations that agree on its setting, whatever the
other settings are and whatever the other rules report.

* `Rule.check_congr`: a rule reports the same under configurations that agree on its setting;
* `Rule.key?_eq_some_iff`: which rule a setting belongs to;
* `filter_rule_check_congr`: the issues of a rule among those of all rules;
* `filter_check_congr`: a setting that is changed changes the issues of its own rule only.
-/

namespace ConventionalCommit

open Config (Key)

variable {c d : Config} {m : Message} {r : Rule} {key : Key}

namespace Rule

/-- The key of the setting that a rule looks at. Whether there is a type at all is no matter of
settings. -/
def key? : Rule → Option Key
  | typeEmpty => none
  | typeEnum => some .types
  | scopeEmpty => some .requireScope
  | subjectEmpty => some .subjectEmptyForbidden
  | subjectCase => some .subjectCase
  | subjectFullStop => some .subjectFullStopForbidden
  | blockedWords => some .blockedWords
  | headerMaxLength => some .maxHeaderLength
  | bodyLeadingBlank => some .bodyLeadingBlank
  | bodyMaxLineLength => some .maxLineLength
  | footerLeadingBlank => some .footerLeadingBlank

/-- The rule that looks at the setting under a key. -/
def ofKey : Key → Rule
  | .types => typeEnum
  | .requireScope => scopeEmpty
  | .maxHeaderLength => headerMaxLength
  | .maxLineLength => bodyMaxLineLength
  | .subjectCase => subjectCase
  | .subjectEmptyForbidden => subjectEmpty
  | .subjectFullStopForbidden => subjectFullStop
  | .bodyLeadingBlank => bodyLeadingBlank
  | .footerLeadingBlank => footerLeadingBlank
  | .blockedWords => blockedWords

/-- Each setting is that of one rule. -/
theorem key?_eq_some_iff : r.key? = some key ↔ r = ofKey key := by
  cases r <;> cases key <;> decide

end Rule

/-- Two configurations have the same setting for a rule, if it looks at one. -/
def Config.AgreeOn (r : Rule) (c d : Config) : Prop :=
  ∀ key ∈ r.key?, c.setting key = d.setting key

namespace Rule

/-- What a rule reports depends on the message and on its own setting. The rule on a missing type
has none, and every other one reads a single field. -/
theorem check_congr (h : c.AgreeOn r d) (m : Message) : r.check c m = r.check d m := by
  cases r with
  | typeEmpty => rfl
  | typeEnum =>
    have htypes : c.types = d.types := Config.Setting.texts.inj (h _ rfl)
    rw [check, check, htypes]
  | scopeEmpty =>
    have hflag : c.requireScope = d.requireScope := Config.Setting.flag.inj (h _ rfl)
    rw [check, check, hflag]
  | subjectEmpty =>
    have hflag : c.subjectEmptyForbidden = d.subjectEmptyForbidden :=
      Config.Setting.flag.inj (h _ rfl)
    rw [check, check, hflag]
  | subjectCase =>
    have hcase : c.subjectCase = d.subjectCase := Config.Setting.case.inj (h _ rfl)
    rw [check, check, hcase]
  | subjectFullStop =>
    have hflag : c.subjectFullStopForbidden = d.subjectFullStopForbidden :=
      Config.Setting.flag.inj (h _ rfl)
    rw [check, check, hflag]
  | blockedWords =>
    have hwords : c.blockedWords = d.blockedWords := Config.Setting.texts.inj (h _ rfl)
    rw [check, check, hwords]
  | headerMaxLength =>
    have hlimit : c.maxHeaderLength = d.maxHeaderLength := Config.Setting.limit.inj (h _ rfl)
    rw [check, check, hlimit]
  | bodyLeadingBlank =>
    have hflag : c.bodyLeadingBlank = d.bodyLeadingBlank := Config.Setting.flag.inj (h _ rfl)
    rw [check, check, hflag]
  | bodyMaxLineLength =>
    have hlimit : c.maxLineLength = d.maxLineLength := Config.Setting.limit.inj (h _ rfl)
    rw [check, check, hlimit]
  | footerLeadingBlank =>
    have hflag : c.footerLeadingBlank = d.footerLeadingBlank := Config.Setting.flag.inj (h _ rfl)
    rw [check, check, hflag]

end Rule

/-- A setting that is changed changes the issues of its own rule and no others. -/
theorem filter_check_congr (h : ∀ k, k ≠ key → c.setting k = d.setting k) (m : Message) :
    (m.check c).filter (fun i => i.rule != .ofKey key) =
      (m.check d).filter (fun i => i.rule != .ofKey key) := by
  rw [Message.filter_check (· != .ofKey key), Message.filter_check (· != .ofKey key)]
  refine List.flatMap_congr fun r hr => Rule.check_congr (fun k hk => h k ?_) m
  rintro rfl
  have hown : r = .ofKey k := Rule.key?_eq_some_iff.mp hk
  simp [hown] at hr

/-- Under two configurations that agree on the setting of a rule, the rule reports the same issues
with the same words about every message. -/
theorem filter_rule_check_congr (m : Message) (r : Rule) (c d : Config) (h : c.AgreeOn r d) :
    (m.check c).filter (·.rule == r) = (m.check d).filter (·.rule == r) := by
  rw [Message.filter_rule_check, Message.filter_rule_check, Rule.check_congr h]

/-- The same blocked word is reported, although nothing else about the message is found fault with
under the second configuration, and much under the first. -/
theorem filter_rule_check_congr_blocked :
    let m := Message.parse "Feat: Add WIP.\nbody".toList
    let c := { Config.default with
      requireScope := true, maxHeaderLength := 0, maxLineLength := 0,
      blockedWords := ["wip".toList] }
    let d := { Config.default with
      types := ["Feat".toList], subjectCase := .any, subjectFullStopForbidden := false,
      bodyLeadingBlank := false, blockedWords := ["wip".toList] }
    c.AgreeOn .blockedWords d ∧
      (m.check c).filter (·.rule == .blockedWords) =
        (m.check d).filter (·.rule == .blockedWords) ∧
      m.check d = [.subjectContains "wip".toList] ∧
      (m.check c).map (·.rule) = [.typeEnum, .scopeEmpty, .subjectCase, .subjectFullStop,
        .blockedWords, .headerMaxLength, .bodyLeadingBlank, .bodyMaxLineLength] := by
  intro m c d
  have hagree : c.AgreeOn .blockedWords d := fun key hkey => by
    rw [← Option.some.inj hkey]
    rfl
  exact ⟨hagree, filter_rule_check_congr m _ c d hagree, by decide +kernel, by decide +kernel⟩

end ConventionalCommit
