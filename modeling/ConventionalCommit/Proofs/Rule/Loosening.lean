import ConventionalCommit.Proofs.Rule.Failures

/-!
# ConventionalCommit — looser configurations

A configuration may be loosened setting by setting: more types, fewer blocked words, higher
limits, fewer demands (`Config.Loosens`). Each rule looks at one setting and is monotone in it,
so a message fails no rule that it passed before.

* `Config.Loosens.fails`: what a message fails under the looser configuration, it fails under
  the stricter one;
* `check_of_loosens`: the same for the rules that report.
-/

namespace ConventionalCommit

variable {c d : Config} {m : Message} {r : Rule}

/-- Each setting of `d` is at least as permissive as that of `c`. -/
structure Config.Loosens (c d : Config) : Prop where
  types : c.types ⊆ d.types
  requireScope : d.requireScope = true → c.requireScope = true
  maxHeaderLength : c.maxHeaderLength ≤ d.maxHeaderLength
  maxLineLength : c.maxLineLength ≤ d.maxLineLength
  subjectCase : d.subjectCase = c.subjectCase ∨ d.subjectCase = .any
  subjectEmptyForbidden : d.subjectEmptyForbidden = true → c.subjectEmptyForbidden = true
  subjectFullStopForbidden : d.subjectFullStopForbidden = true → c.subjectFullStopForbidden = true
  bodyLeadingBlank : d.bodyLeadingBlank = true → c.bodyLeadingBlank = true
  footerLeadingBlank : d.footerLeadingBlank = true → c.footerLeadingBlank = true
  blockedWords : d.blockedWords ⊆ c.blockedWords

namespace Config.Loosens

/-- A character that the looser configuration does not admit was not admitted before. -/
theorem admits_eq_false (h : c.Loosens d) {x : Char} (hx : d.subjectCase.admits x = false) :
    c.subjectCase.admits x = false := by
  rcases h.subjectCase with hcase | hcase
  · rwa [hcase] at hx
  · rw [hcase] at hx
    cases hx

/-- Every rule is monotone in the setting that it looks at. A looser setting asks for no more, so
what fails under it fails under the stricter one. -/
theorem fails (h : c.Loosens d) (hr : m.Fails d r) : m.Fails c r := by
  -- what the looser setting forbids, the stricter one forbids as well
  cases r with
  | typeEmpty => exact hr
  | typeEnum =>
    obtain ⟨t, ht, hnot⟩ := hr
    exact ⟨t, ht, fun hmem => hnot (h.types hmem)⟩
  | scopeEmpty => exact ⟨h.requireScope hr.1, hr.2⟩
  | subjectEmpty => exact ⟨h.subjectEmptyForbidden hr.1, hr.2⟩
  | subjectCase =>
    obtain ⟨s, hs, x, hx, hnot⟩ := hr
    exact ⟨s, hs, x, hx, h.admits_eq_false hnot⟩
  | subjectFullStop => exact ⟨h.subjectFullStopForbidden hr.1, hr.2⟩
  | blockedWords =>
    obtain ⟨s, hs, w, hw, hblocks⟩ := hr
    exact ⟨s, hs, w, h.blockedWords hw, hblocks⟩
  | headerMaxLength => exact Nat.lt_of_le_of_lt (UInt64.le_iff_toNat_le.mp h.maxHeaderLength) hr
  | bodyLeadingBlank => exact ⟨h.bodyLeadingBlank hr.1, hr.2⟩
  | bodyMaxLineLength =>
    obtain ⟨b, hb, l, hl, hlong⟩ := hr
    exact ⟨b, hb, l, hl, Nat.lt_of_le_of_lt (UInt64.le_iff_toNat_le.mp h.maxLineLength) hlong⟩
  | footerLeadingBlank => exact ⟨h.footerLeadingBlank hr.1, hr.2⟩

end Config.Loosens

/-- Every rule that reports under a looser configuration reports under the stricter one. -/
theorem check_of_loosens (h : c.Loosens d) (m : Message) (r : Rule)
    (hr : ∃ i ∈ m.check d, i.rule = r) : ∃ i ∈ m.check c, i.rule = r :=
  Message.exists_mem_check_iff.mpr (h.fails (Message.exists_mem_check_iff.mp hr))

/-- A word that stays blocked is reported before and after, although the case of the subject is
free by then and another word is blocked no more. -/
theorem check_of_loosens_blocked :
    (∃ i ∈ (Message.parse "feat: Add WIP".toList).check
      { Config.default with subjectCase := .any, blockedWords := ["wip".toList] },
      i.rule = .blockedWords) ∧
    ∃ i ∈ (Message.parse "feat: Add WIP".toList).check
      { Config.default with blockedWords := ["add".toList, "wip".toList] },
      i.rule = .blockedWords :=
  have hloosens : Config.Loosens
      { Config.default with blockedWords := ["add".toList, "wip".toList] }
      { Config.default with subjectCase := .any, blockedWords := ["wip".toList] } :=
    { types := fun _ h => h
      requireScope := id
      maxHeaderLength := UInt64.le_refl _
      maxLineLength := UInt64.le_refl _
      subjectCase := Or.inr rfl
      subjectEmptyForbidden := id
      subjectFullStopForbidden := id
      bodyLeadingBlank := id
      footerLeadingBlank := id
      blockedWords := List.subset_cons_self _ _ }
  have hlooser : ∃ i ∈ (Message.parse "feat: Add WIP".toList).check
      { Config.default with subjectCase := .any, blockedWords := ["wip".toList] },
      i.rule = .blockedWords := by decide +kernel
  ⟨hlooser, check_of_loosens hloosens _ _ hlooser⟩

end ConventionalCommit
