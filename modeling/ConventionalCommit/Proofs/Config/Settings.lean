import ConventionalCommit.Proofs.Config.Limits

/-!
# ConventionalCommit — the settings that JSON values stand for

Which values stand for which settings (`Config.Stands`), without the checks that read them, and
the configuration that an object gives: under each key the setting that its value stands for,
or the default one if the key is absent (`Config.GivenBy`).

* `Config.reads_strings`, `Config.reads_bool`, `Config.reads_positive`, `Config.reads_case`:
  each check accepts exactly the values that stand for a setting of its form;
* `Config.checkMembers_eq_fine_iff`: checking an object finds nothing wrong exactly if the
  object gives a configuration.
-/

namespace ConventionalCommit

/-- A name is that of one form only. -/
theorem SubjectCase.ofName?_eq_some_iff {t : Text} {case : SubjectCase} :
    ofName? t = some case ↔ t = case.name := by
  constructor
  · intro h
    rw [ofName?] at h
    have hname := List.find?_some h
    exact (beq_iff_eq.mp hname).symm
  · rintro rfl
    exact ofName?_name case

namespace Config

variable {α : Type} {c : Config} {key : Key} {v : Json} {members : List (Text × Json)}

/-- A single setting. -/
inductive Setting where
  | texts (ts : List Text)
  | flag (b : Bool)
  | limit (n : UInt64)
  | case (c : SubjectCase)

/-- The setting of a configuration under a key. -/
def setting (c : Config) : Key → Setting
  | .types => .texts c.types
  | .requireScope => .flag c.requireScope
  | .maxHeaderLength => .limit c.maxHeaderLength
  | .maxLineLength => .limit c.maxLineLength
  | .subjectCase => .case c.subjectCase
  | .subjectEmptyForbidden => .flag c.subjectEmptyForbidden
  | .subjectFullStopForbidden => .flag c.subjectFullStopForbidden
  | .bodyLeadingBlank => .flag c.bodyLeadingBlank
  | .footerLeadingBlank => .flag c.footerLeadingBlank
  | .blockedWords => .texts c.blockedWords

/-- A value of JSON stands for a setting. -/
inductive Stands : Json → Setting → Prop
  | texts (ts : List Text) : Stands (.array (ts.map .string)) (.texts ts)
  | flag (b : Bool) : Stands (.bool b) (.flag b)
  | limit {n : Json.Number} {limit : UInt64} (h : n.Denotes limit) :
    Stands (.number n) (.limit limit)
  | case (c : SubjectCase) : Stands (.string c.name) (.case c)

theorem stands_texts_iff {ts : List Text} :
    Stands v (.texts ts) ↔ v = .array (ts.map .string) :=
  ⟨fun h => by cases h; rfl, fun h => h ▸ .texts ts⟩

/-- A flag is a literal, and neither a string nor a number stands for one. -/
theorem stands_flag_iff {b : Bool} : Stands v (.flag b) ↔ v = .bool b :=
  ⟨fun h => by cases h; rfl, fun h => h ▸ .flag b⟩

theorem stands_limit_iff {limit : UInt64} :
    Stands v (.limit limit) ↔ ∃ n, v = .number n ∧ n.Denotes limit := by
  constructor
  · rintro ⟨⟩
    exact ⟨_, rfl, ‹_›⟩
  · rintro ⟨n, rfl, h⟩
    exact .limit h

theorem stands_case_iff {case : SubjectCase} : Stands v (.case case) ↔ v = .string case.name :=
  ⟨fun h => by cases h; rfl, fun h => h ▸ .case case⟩

/-- A setting is the one that a value stands for, or the default one if there is no value. -/
def Given (fallback : Setting) : Option Json → Setting → Prop
  | none, s => s = fallback
  | some v, s => Stands v s

/-- The members of an object give a configuration. -/
def GivenBy (c : Config) (members : List (Text × Json)) : Prop :=
  ∀ key : Key, Given (default.setting key) (members.lookup key.name) (c.setting key)

-- ---------------------------------------------------------------------------
-- The checks
-- ---------------------------------------------------------------------------

/-- A check is fine with a value exactly if it reports nothing and yields the value. With errors it
yields a value as well, the default one. -/
theorem Checked.eq_fine_iff {x : Checked α} {a : α} : x = .fine a ↔ x.errors = [] ∧ x.value = a := by
  obtain ⟨value, errors⟩ := x
  rw [Checked.fine, Checked.mk.injEq, and_comm]

/-- A check accepts exactly the values that stand for a setting of its form. -/
structure Reads (read : Key → α → Json → Checked α) (form : α → Setting) : Prop where
  injective : form.Injective
  eq_fine_iff : ∀ key fallback v a, read key fallback v = .fine a ↔ Stands v (form a)

theorem wrong_ne_fine {fallback a : α} {expected : Expectation} {got : Text} :
    Checked.wrong fallback key expected got ≠ .fine a := by
  intro h
  exact absurd (Checked.eq_fine_iff.mp h).1 (List.cons_ne_nil _ _)

theorem fine_eq_fine_iff {a b : α} : Checked.fine a = .fine b ↔ a = b := by
  rw [Checked.eq_fine_iff]
  exact and_iff_right rfl

theorem reads_bool : Reads checkBool .flag := by
  refine ⟨fun _ _ => Setting.flag.inj, fun key fallback v a => ?_⟩
  cases v with
  | bool b =>
    rw [checkBool, fine_eq_fine_iff, stands_flag_iff, Json.bool.injEq]
  | _ => exact iff_of_false wrong_ne_fine nofun

/-- The check of a limit accepts the numbers that denote one. -/
theorem reads_positive : Reads checkPositive .limit := by
  refine ⟨fun _ _ => Setting.limit.inj, fun key fallback v a => ?_⟩
  cases v with
  | number n =>
    have hdenotes : Stands (.number n) (.limit a) ↔ positive? n = some a := by
      simp [stands_limit_iff, positive?_eq_some_iff]
    rw [hdenotes, checkPositive]
    split
    · next limit hlimit => rw [fine_eq_fine_iff, hlimit, Option.some.injEq]
    · next hnone => exact iff_of_false wrong_ne_fine (by rw [hnone]; nofun)
  | _ => exact iff_of_false wrong_ne_fine nofun

/-- The check of a case accepts the names of the cases. -/
theorem reads_case : Reads checkCase .case := by
  refine ⟨fun _ _ => Setting.case.inj, fun key fallback v a => ?_⟩
  cases v with
  | string s =>
    rw [stands_case_iff, Json.string.injEq, ← SubjectCase.ofName?_eq_some_iff, checkCase]
    split
    · next case hcase => rw [fine_eq_fine_iff, hcase, Option.some.injEq]
    · next hnone => exact iff_of_false wrong_ne_fine (by rw [hnone]; nofun)
  | _ => exact iff_of_false wrong_ne_fine nofun

/-- The items of an array are fine if they are strings. The strings among them are collected in any
case, so both have to be said. -/
theorem itemErrors_eq_nil_iff {i : Nat} {items : List Json} {ts : List Text} :
    itemErrors key i items = [] ∧ stringsIn items = ts ↔ items = ts.map .string := by
  induction items generalizing i ts with
  | nil => simp [itemErrors, stringsIn, eq_comm]
  | cons item rest ih =>
    cases item with
    | string s =>
      rw [itemErrors, stringsIn]
      cases ts with
      | nil => simp
      | cons t ts => simp [← ih (i := i + 1), and_left_comm]
    | _ => cases ts <;> simp [itemErrors]

/-- The check of a list accepts arrays of strings. One item of another kind is enough to reject the
whole array. -/
theorem reads_strings : Reads checkStrings .texts := by
  refine ⟨fun _ _ => Setting.texts.inj, fun key fallback v a => ?_⟩
  cases v with
  | array items =>
    rw [checkStrings, Checked.eq_fine_iff, itemErrors_eq_nil_iff, stands_texts_iff,
      Json.array.injEq]
  | _ => exact iff_of_false wrong_ne_fine nofun

-- ---------------------------------------------------------------------------
-- All settings
-- ---------------------------------------------------------------------------

section

variable {read : Key → α → Json → Checked α} {form : α → Setting} {fallback a : α}

/-- A key is fine with a setting exactly if the members give it that setting. -/
theorem Reads.checkKey_eq_fine_iff (hread : Reads read form) :
    checkKey members key read fallback = .fine a ↔
      Given (form fallback) (members.lookup key.name) (form a) := by
  rw [checkKey]
  split
  · next h => rw [h, Given, fine_eq_fine_iff, hread.injective.eq_iff, eq_comm]
  · next v h =>
    rw [h, Given]
    exact hread.eq_fine_iff key fallback v a

theorem Reads.given (hread : Reads read form)
    (h : (checkKey members key read fallback).errors = []) :
    Given (form fallback) (members.lookup key.name)
      (form (checkKey members key read fallback).value) :=
  hread.checkKey_eq_fine_iff.mp (Checked.eq_fine_iff.mpr ⟨h, rfl⟩)

end

/-- Checking an object finds nothing wrong exactly if the object gives a configuration, with the
default for each setting that is missing. Key by key this is what the checks do. -/
theorem checkMembers_eq_fine_iff : checkMembers members = .fine c ↔ c.GivenBy members := by
  constructor
  · intro h key
    obtain ⟨herrors, rfl⟩ := Checked.eq_fine_iff.mp h
    simp only [checkMembers, List.append_eq_nil_iff] at herrors
    obtain ⟨htypes, hscope, hheader, hline, hcase, hempty, hstop, hbody, hfooter, hwords⟩ := herrors
    -- no error at all means none for each key
    cases key with
    | types => exact reads_strings.given htypes
    | requireScope => exact reads_bool.given hscope
    | maxHeaderLength => exact reads_positive.given hheader
    | maxLineLength => exact reads_positive.given hline
    | subjectCase => exact reads_case.given hcase
    | subjectEmptyForbidden => exact reads_bool.given hempty
    | subjectFullStopForbidden => exact reads_bool.given hstop
    | bodyLeadingBlank => exact reads_bool.given hbody
    | footerLeadingBlank => exact reads_bool.given hfooter
    | blockedWords => exact reads_strings.given hwords
  · intro h
    have htypes := reads_strings.checkKey_eq_fine_iff.mpr (h .types)
    have hscope := reads_bool.checkKey_eq_fine_iff.mpr (h .requireScope)
    have hheader := reads_positive.checkKey_eq_fine_iff.mpr (h .maxHeaderLength)
    have hline := reads_positive.checkKey_eq_fine_iff.mpr (h .maxLineLength)
    have hcase := reads_case.checkKey_eq_fine_iff.mpr (h .subjectCase)
    have hempty := reads_bool.checkKey_eq_fine_iff.mpr (h .subjectEmptyForbidden)
    have hstop := reads_bool.checkKey_eq_fine_iff.mpr (h .subjectFullStopForbidden)
    have hbody := reads_bool.checkKey_eq_fine_iff.mpr (h .bodyLeadingBlank)
    have hfooter := reads_bool.checkKey_eq_fine_iff.mpr (h .footerLeadingBlank)
    have hwords := reads_strings.checkKey_eq_fine_iff.mpr (h .blockedWords)
    rw [checkMembers, htypes, hscope, hheader, hline, hcase, hempty, hstop, hbody, hfooter, hwords]
    rfl

/-- An object is read as the configuration that its members give, if there is any. -/
theorem ofJson_object_eq_ok_iff : ofJson (.object members) = .ok c ↔ c.GivenBy members := by
  rw [← checkMembers_eq_fine_iff, Checked.eq_fine_iff, ofJson]
  split
  · next h => rw [Except.ok.injEq, and_iff_right h]
  · next h => exact iff_of_false nofun (by rw [h]; nofun)

end Config

end ConventionalCommit
