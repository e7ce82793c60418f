import ConventionalCommit.Config.Basic

/-!
# ConventionalCommit — keys of the configuration

The ten keys under which a JSON object holds the settings, in the order in
which they are checked and written.
-/

namespace ConventionalCommit.Config

/-- A key of the configuration. -/
inductive Key where
  | types
  | requireScope
  | maxHeaderLength
  | maxLineLength
  | subjectCase
  | subjectEmptyForbidden
  | subjectFullStopForbidden
  | bodyLeadingBlank
  | footerLeadingBlank
  | blockedWords
deriving DecidableEq, Repr

namespace Key

/-- All keys, in order. -/
def all : List Key :=
  [types, requireScope, maxHeaderLength, maxLineLength, subjectCase, subjectEmptyForbidden,
   subjectFullStopForbidden, bodyLeadingBlank, footerLeadingBlank, blockedWords]

/-- The key as it is spelled. -/
def name : Key → Text
  | types => "types".toList
  | requireScope => "requireScope".toList
  | maxHeaderLength => "maxHeaderLength".toList
  | maxLineLength => "maxLineLength".toList
  | subjectCase => "subjectCase".toList
  | subjectEmptyForbidden => "subjectEmptyForbidden".toList
  | subjectFullStopForbidden => "subjectFullStopForbidden".toList
  | bodyLeadingBlank => "bodyLeadingBlank".toList
  | footerLeadingBlank => "footerLeadingBlank".toList
  | blockedWords => "blockedWords".toList

/-- The list of keys is complete, so a fact about all keys can be checked along the list. -/
theorem mem_all (k : Key) : k ∈ all := by
  cases k <;> decide

theorem find?_name (k : Key) : all.find? (fun j => j.name == k.name) = some k := by
  cases k <;> decide

/-- No two keys are spelled alike. -/
theorem name_injective {j k : Key} (h : j.name = k.name) : j = k := by
  have hj := find?_name j
  rw [h, find?_name k] at hj
  exact (Option.some.inj hj).symm

end Key

end ConventionalCommit.Config
