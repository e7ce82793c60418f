import ConventionalCommit.Config.Record
import ConventionalCommit.Proofs.Config.Settings

/-!
# ConventionalCommit — records and settings

A configuration is written as a record, a record is read as it stands, and the settings that a
user writes are read with defaults and checks. The three agree where the checks let them: on
the configurations with positive limits, and on the records that name their subject case by a
string.

* `Config.ofRecord?_eq_some_iff`: what a record holds, key by key;
* `Config.GivenBy.positiveLimits`: no setting that is given has a limit of zero;
* `Config.views_agree`: the three together.
-/

namespace ConventionalCommit.Config

variable {c : Config} {key : Key} {v record : Json} {members : List (Text × Json)} {s : Setting}

/-- Both limits admit a character at least. -/
structure PositiveLimits (c : Config) : Prop where
  header : 1 ≤ c.maxHeaderLength.toNat
  line : 1 ≤ c.maxLineLength.toNat

namespace Setting

/-- The setting is no limit of zero. -/
def Positive : Setting → Prop
  | limit n => 1 ≤ n.toNat
  | _ => True

/-- The setting as the value of a record. -/
def toJson : Setting → Json
  | texts ts => .array (ts.map .string)
  | flag b => .bool b
  | limit n => .ofUInt64 n
  | case c => .string c.name

end Setting

/-- A value of a record holds a setting. -/
def Records (v : Json) : Setting → Prop
  | .texts ts => texts? v = some ts
  | .flag b => bool? v = some b
  | .limit n => limit? v = some n
  | .case case => case? v = some case

/-- A configuration has positive limits exactly if each of its settings is positive. Only two of
them are limits. -/
theorem positiveLimits_iff : c.PositiveLimits ↔ ∀ key : Key, (c.setting key).Positive := by
  constructor
  · intro h key
    cases key with
    | maxHeaderLength => exact h.header
    | maxLineLength => exact h.line
    | _ => trivial
  · exact fun h => ⟨h .maxHeaderLength, h .maxLineLength⟩

-- ---------------------------------------------------------------------------
-- Single settings
-- ---------------------------------------------------------------------------

theorem Stands.positive (h : Stands v s) : s.Positive := by
  cases h with
  | limit hdenotes => exact hdenotes.pos
  | _ => trivial

/-- A setting as it is written stands for itself, unless it is a limit of zero. -/
theorem stands_toJson_iff : Stands s.toJson s ↔ s.Positive := by
  cases s with
  | texts ts => exact iff_of_true (.texts ts) trivial
  | flag b => exact iff_of_true (.flag b) trivial
  | limit n =>
    simp [Setting.toJson, Setting.Positive, Json.ofUInt64, stands_limit_iff,
      Json.Number.denotes_natural_iff]
  | case case => exact iff_of_true (.case case) trivial

/-- The values of which each is a text are the texts as values. So what is read from a list is
written as the same list. -/
theorem mapM_text?_eq_some_iff {items : List Json} {ts : List Text} :
    items.mapM text? = some ts ↔ items = ts.map .string := by
  induction items generalizing ts with
  | nil => simp [eq_comm]
  | cons item rest ih =>
    cases item with
    | string t =>
      have hcons : (Json.string t :: rest).mapM text? = some ts ↔
          ∃ us, rest.mapM text? = some us ∧ t :: us = ts := by
        simp [text?, Option.bind_eq_some_iff]
      rw [hcons]
      constructor
      · rintro ⟨us, hus, rfl⟩
        rw [ih.mp hus, List.map_cons]
      · intro h
        cases ts with
        | nil => cases h
        | cons u us =>
          obtain ⟨ht, hrest⟩ := List.cons.inj h
          exact ⟨us, ih.mpr hrest, by rw [Json.string.inj ht]⟩
    -- a value that is no text stops the reading, and no text is written so
    | _ => exact iff_of_false (by simp [text?]) (by cases ts <;> nofun)

/-- A value that is written holds its setting, a limit of zero as well. -/
theorem records_toJson (s : Setting) : Records s.toJson s := by
  cases s with
  | texts ts => exact mapM_text?_eq_some_iff.mpr rfl
  | flag b => rfl
  | limit n => rfl
  | case case => exact SubjectCase.ofName?_name case

/-- A record holds a setting as it is written, or a subject case as the only key of an object. -/
theorem Records.cases (h : Records v s) :
    v = s.toJson ∨ ∃ case name, s = .case case ∧ v = .object [(name, .null)] := by
  cases s with
  | texts ts =>
    cases v with
    | array items => exact Or.inl (congrArg Json.array (mapM_text?_eq_some_iff.mp h))
    | _ => cases h
  | flag b =>
    cases v with
    | bool => exact Or.inl (congrArg Json.bool (Option.some.inj h))
    | _ => cases h
  | limit n =>
    have hlimit : limit? v = some n := h
    unfold limit? at hlimit
    split at hlimit
    · exact Or.inl (by rw [Option.some.inj hlimit]; rfl)
    · cases hlimit
  | case case =>
    have hcase : case? v = some case := h
    unfold case? at hcase
    split at hcase
    · -- a name
      exact Or.inl (congrArg Json.string (SubjectCase.ofName?_eq_some_iff.mp hcase))
    · -- an object whose only key is the name
      exact Or.inr ⟨case, _, rfl, rfl⟩
    · cases hcase

/-- The value of a record stands for the setting that it holds, unless that is a limit of zero
or a subject case that is not named by a string. -/
theorem Records.stands_iff (h : Records v s) : Stands v s ↔
    s.Positive ∧ ∀ case, s = .case case → ∃ t, v = .string t := by
  rcases h.cases with rfl | ⟨case, name, rfl, rfl⟩
  · rw [stands_toJson_iff, and_iff_left]
    rintro case rfl
    exact ⟨_, rfl⟩
  · refine iff_of_false nofun ?_
    rintro ⟨-, hstring⟩
    obtain ⟨t, ht⟩ := hstring case rfl
    cases ht

/-- A key of a record holds a setting, and the rest of the record gives the configuration. One such
step for each key takes the reading of a record apart. -/
theorem bind_bind_eq_some_iff {α β : Type} {f : Json → Option α} {g : α → Option β} {b : β} :
    ((recordValue? record key).bind fun v => (f v).bind g) = some b ↔
      ∃ a, (∃ v, recordValue? record key = some v ∧ f v = some a) ∧ g a = some b := by
  simp only [Option.bind_eq_some_iff]
  constructor
  · rintro ⟨v, hv, a, ha, hb⟩
    exact ⟨a, ⟨v, hv, ha⟩, hb⟩
  · rintro ⟨a, ⟨v, hv, ha⟩, hb⟩
    exact ⟨v, hv, a, ha, hb⟩

/-- A record holds a configuration exactly if it has a value under each key and this holds the
setting. A record has no defaults, unlike the settings of a user. -/
theorem ofRecord?_eq_some_iff : ofRecord? record = some c ↔
    ∀ key, ∃ v, recordValue? record key = some v ∧ Records v (c.setting key) := by
  constructor
  · intro h
    -- the keys are looked up in this order, and the first that fails ends the reading
    obtain ⟨types, htypes, h⟩ := bind_bind_eq_some_iff.mp h
    obtain ⟨requireScope, hscope, h⟩ := bind_bind_eq_some_iff.mp h
    obtain ⟨maxHeaderLength, hheader, h⟩ := bind_bind_eq_some_iff.mp h
    obtain ⟨maxLineLength, hline, h⟩ := bind_bind_eq_some_iff.mp h
    obtain ⟨subjectCase, hcase, h⟩ := bind_bind_eq_some_iff.mp h
    obtain ⟨subjectEmpty, hempty, h⟩ := bind_bind_eq_some_iff.mp h
    obtain ⟨subjectFullStop, hstop, h⟩ := bind_bind_eq_some_iff.mp h
    obtain ⟨bodyBlank, hbody, h⟩ := bind_bind_eq_some_iff.mp h
    obtain ⟨footerBlank, hfooter, h⟩ := bind_bind_eq_some_iff.mp h
    obtain ⟨blockedWords, hwords, h⟩ := bind_bind_eq_some_iff.mp h
    obtain rfl := Option.some.inj h
    intro key
    cases key with
    | types => exact htypes
    | requireScope => exact hscope
    | maxHeaderLength => exact hheader
    | maxLineLength => exact hline
    | subjectCase => exact hcase
    | subjectEmptyForbidden => exact hempty
    | subjectFullStopForbidden => exact hstop
    | bodyLeadingBlank => exact hbody
    | footerLeadingBlank => exact hfooter
    | blockedWords => exact hwords
  · intro h
    refine bind_bind_eq_some_iff.mpr ⟨_, h .types, ?_⟩
    refine bind_bind_eq_some_iff.mpr ⟨_, h .requireScope, ?_⟩
    refine bind_bind_eq_some_iff.mpr ⟨_, h .maxHeaderLength, ?_⟩
    refine bind_bind_eq_some_iff.mpr ⟨_, h .maxLineLength, ?_⟩
    refine bind_bind_eq_some_iff.mpr ⟨_, h .subjectCase, ?_⟩
    refine bind_bind_eq_some_iff.mpr ⟨_, h .subjectEmptyForbidden, ?_⟩
    refine bind_bind_eq_some_iff.mpr ⟨_, h .subjectFullStopForbidden, ?_⟩
    refine bind_bind_eq_some_iff.mpr ⟨_, h .bodyLeadingBlank, ?_⟩
    refine bind_bind_eq_some_iff.mpr ⟨_, h .footerLeadingBlank, ?_⟩
    refine bind_bind_eq_some_iff.mpr ⟨_, h .blockedWords, ?_⟩
    rfl

-- ---------------------------------------------------------------------------
-- Configurations
-- ---------------------------------------------------------------------------

theorem positiveLimits_default : default.PositiveLimits := ⟨by decide, by decide⟩

/-- A configuration that is given has positive limits, because the checks let no others pass and the
defaults are positive. -/
theorem GivenBy.positiveLimits (h : c.GivenBy members) : c.PositiveLimits := by
  refine positiveLimits_iff.mpr fun key => ?_
  have hgiven := h key
  cases hv : members.lookup key.name with
  | none =>
    rw [hv, Given] at hgiven
    rw [hgiven]
    exact positiveLimits_iff.mp positiveLimits_default key
  | some v =>
    rw [hv] at hgiven
    exact Stands.positive hgiven

/-- Whatever passes the checks has positive limits, since a limit that is not given is the default
one. -/
theorem positiveLimits_of_ofJson (h : ofJson v = .ok c) : c.PositiveLimits := by
  cases v with
  | null =>
    obtain rfl := Except.ok.inj h
    exact positiveLimits_default
  | object members => exact (ofJson_object_eq_ok_iff.mp h).positiveLimits
  | _ => cases h

theorem recordValue?_toJson (c : Config) (key : Key) :
    recordValue? c.toJson key = some (c.setting key).toJson := by
  cases key <;> rfl

/-- A configuration is read back from its record, whether it would pass the checks or not. -/
theorem ofRecord?_toJson (c : Config) : ofRecord? c.toJson = some c :=
  ofRecord?_eq_some_iff.mpr fun key => ⟨_, recordValue?_toJson c key, records_toJson _⟩

/-- An object that is read as a record gives the configuration that it holds exactly if no limit
is zero and the subject case is named by a string. -/
theorem givenBy_iff_of_ofRecord? (h : ofRecord? (.object members) = some c) :
    c.GivenBy members ↔
      c.PositiveLimits ∧ ∃ t, members.lookup Key.subjectCase.name = some (.string t) := by
  have hrecord := ofRecord?_eq_some_iff.mp h
  obtain ⟨w, hw, hcase⟩ := hrecord .subjectCase
  constructor
  · intro hgiven
    refine ⟨hgiven.positiveLimits, ?_⟩
    have hstands := hgiven .subjectCase
    rw [show members.lookup Key.subjectCase.name = some w from hw] at hstands ⊢
    -- a record may name the case by an object as well, and the checks accept a string only
    obtain ⟨t, rfl⟩ := (hcase.stands_iff.mp hstands).2 _ rfl
    exact ⟨t, rfl⟩
  · rintro ⟨hpositive, t, ht⟩ key
    obtain ⟨v, hv, hkey⟩ := hrecord key
    rw [show members.lookup key.name = some v from hv]
    refine hkey.stands_iff.mpr ⟨positiveLimits_iff.mp hpositive key, fun case hform => ?_⟩
    cases key with
    | subjectCase => exact ⟨t, Option.some.inj (hv.symm.trans ht)⟩
    | _ => cases hform

/-- The record that is written is read as the configuration with and without checks, unless a
limit is zero, and no limit that passes the checks is. The two readings of an object agree if
its subject case is a string as well. -/
theorem views_agree (c : Config) (v : Json) (members : List (Text × Json)) :
    (ofJson c.toJson = .ok c ↔ c.PositiveLimits) ∧
    ofRecord? c.toJson = some c ∧
    (ofJson v = .ok c → c.PositiveLimits ∧ ofJson c.toJson = .ok c) ∧
    (ofRecord? (.object members) = some c →
      (ofJson (.object members) = .ok c ↔
        c.PositiveLimits ∧ ∃ t, members.lookup Key.subjectCase.name = some (.string t))) := by
  have hobject : ∀ members, ofRecord? (.object members) = some c →
      (ofJson (.object members) = .ok c ↔
        c.PositiveLimits ∧ ∃ t, members.lookup Key.subjectCase.name = some (.string t)) :=
    fun members h => ofJson_object_eq_ok_iff.trans (givenBy_iff_of_ofRecord? h)
  have hwritten : ofJson c.toJson = .ok c ↔ c.PositiveLimits :=
    (hobject _ (ofRecord?_toJson c)).trans (and_iff_left ⟨_, rfl⟩)
  refine ⟨hwritten, ofRecord?_toJson c, fun h => ?_, hobject members⟩
  have hpositive := positiveLimits_of_ofJson h
  exact ⟨hpositive, hwritten.mpr hpositive⟩

/-- A configuration with the greatest limit that there is, and a record of it that begins at the
last key and has a further one. -/
theorem views_agree_rearranged :
    let c : Config := { default with maxHeaderLength := 18446744073709551615, subjectCase := .any }
    let members : List (Text × Json) :=
      [("blockedWords".toList, .array []), ("footerLeadingBlank".toList, .bool true),
        ("bodyLeadingBlank".toList, .bool true), ("subjectFullStopForbidden".toList, .bool true),
        ("subjectEmptyForbidden".toList, .bool true), ("subjectCase".toList, .string "any".toList),
        ("maxLineLength".toList, .number (.natural 100)),
        ("maxHeaderLength".toList, .number (.natural 18446744073709551615)),
        ("requireScope".toList, .bool false), ("extends".toList, .null),
        ("types".toList, .array (defaultTypes.map .string))]
    c.PositiveLimits ∧ ofRecord? (.object members) = some c ∧ ofJson (.object members) = .ok c ∧
      ofJson c.toJson = .ok c := by
  intro c members
  have hpositive : c.PositiveLimits := ⟨by decide, by decide⟩
  have hrecord : ofRecord? (.object members) = some c := rfl
  have hread : ofJson (.object members) = .ok c :=
    ((views_agree c .null members).2.2.2 hrecord).mpr ⟨hpositive, "any".toList, rfl⟩
  exact ⟨hpositive, hrecord, hread, ((views_agree c (.object members) []).2.2.1 hread).2⟩

end ConventionalCommit.Config
