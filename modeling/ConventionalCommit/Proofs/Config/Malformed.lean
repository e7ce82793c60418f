import ConventionalCommit.Proofs.Config.Settings
import Mathlib.Data.List.TakeWhile

/-!
# ConventionalCommit — malformed settings, exactly

What is reported on the value under a key follows from that value and from what the key expects
(`Config.Key.errorsOf`), and what is reported on an object are the reports on its keys, in
their order (`Config.errorsIn`). So no malformed setting hides another, and what an object
holds besides, or in which order, plays no part.

* `Config.errors_checkMembers`: the checks report exactly these errors;
* `Config.ofJson_eq_iff`: what is read from any value of JSON;
* `Config.Place.name_injective`: the name of a place in a report tells which place it is.
-/

namespace ConventionalCommit

/-- Whether a value is a string. -/
def Json.isString : Json → Bool
  | string _ => true
  | _ => false

namespace Config

variable {α : Type} {c : Config} {key : Key} {v : Json} {members members' : List (Text × Json)}

-- ---------------------------------------------------------------------------
-- What is expected
-- ---------------------------------------------------------------------------

/-- What the value under a key is expected to be. -/
def Key.expectation : Key → Expectation
  | types | blockedWords => .strings
  | maxHeaderLength | maxLineLength => .positiveInteger
  | subjectCase => .subjectCase
  | requireScope | subjectEmptyForbidden | subjectFullStopForbidden | bodyLeadingBlank
  | footerLeadingBlank => .boolean

namespace Expectation

/-- A value is what it is expected to be. -/
def Met : Expectation → Json → Prop
  | object, v => ∃ members, v = .object members
  | boolean, v => ∃ b, Stands v (.flag b)
  | positiveInteger, v => ∃ n, Stands v (.limit n)
  | strings, v => ∃ ts, Stands v (.texts ts)
  | string, v => ∃ s, v = .string s
  | subjectCase, v => ∃ case, Stands v (.case case)

/-- Whether a value is what it is expected to be. -/
def admits : Expectation → Json → Bool
  | object, .object _ => true
  | boolean, .bool _ => true
  | positiveInteger, .number n => (positive? n).isSome
  | strings, .array items => items.all Json.isString
  | string, v => v.isString
  | subjectCase, .string s => (SubjectCase.ofName? s).isSome
  | _, _ => false

/-- The words for a value that is not what it is expected to be. -/
def got : Expectation → Json → Text
  | positiveInteger, .number n => n.text
  | subjectCase, .string s => '"' :: (s ++ ['"'])
  | _, v => v.kind

/-- Items are all strings exactly if they are the strings of some texts, which is the form in which
a list of texts is written. -/
theorem all_isString_iff {items : List Json} :
    items.all Json.isString = true ↔ ∃ ts : List Text, items = ts.map .string := by
  induction items with
  | nil => exact iff_of_true rfl ⟨[], rfl⟩
  | cons item rest ih =>
    rw [List.all_cons, Bool.and_eq_true, ih]
    constructor
    · rintro ⟨hitem, ts, rfl⟩
      cases item with
      | string s => exact ⟨s :: ts, rfl⟩
      | _ => cases hitem
    · rintro ⟨_ | ⟨t, ts⟩, h⟩
      · cases h
      · obtain ⟨rfl, rfl⟩ := List.cons.inj h
        exact ⟨rfl, ts, rfl⟩

/-- The test of a value is exact for each kind of expectation. So the reports can be computed, and
proofs may use what it means to be met. -/
theorem admits_iff {e : Expectation} : e.admits v = true ↔ e.Met v := by
  cases e with
  | object => cases v <;> simp [admits, Met]
  | boolean => cases v <;> simp [admits, Met, stands_flag_iff]
  | positiveInteger =>
    cases v <;>
      simp [admits, Met, stands_limit_iff, ← positive?_eq_some_iff, Option.isSome_iff_exists]
  | strings =>
    cases v with
    | array items => simp [admits, Met, stands_texts_iff, all_isString_iff, -List.all_eq_true]
    | _ => simp [admits, Met, stands_texts_iff]
  | string => cases v <;> simp [admits, Met, Json.isString]
  | subjectCase =>
    cases v <;>
      simp [admits, Met, stands_case_iff, ← SubjectCase.ofName?_eq_some_iff,
        Option.isSome_iff_exists]

instance (e : Expectation) (v : Json) : Decidable (e.Met v) := decidable_of_iff _ admits_iff

end Expectation

/-- The errors of the items of an array in which strings are expected. -/
def Key.itemErrorsOf (key : Key) (items : List (Json × Nat)) : List FieldError :=
  (items.filter fun item => ¬ Expectation.string.Met item.1).map fun item =>
    ⟨.item key item.2, .string, item.1.kind⟩

/-- The errors of the value under a key. An array is looked at item by item if strings are
expected, and any other value as a whole. -/
def Key.errorsOf (key : Key) (v : Json) : List FieldError :=
  match key.expectation, v with
  | .strings, .array items => key.itemErrorsOf items.zipIdx
  | e, v => if e.Met v then [] else [⟨.setting key, e, e.got v⟩]

/-- The errors of a key of an object. A key that is absent has none. -/
def errorsAt (members : List (Text × Json)) (key : Key) : List FieldError :=
  (members.lookup key.name).elim [] key.errorsOf

/-- The errors of an object, key by key. -/
def errorsIn (members : List (Text × Json)) : List FieldError := Key.all.flatMap (errorsAt members)

-- ---------------------------------------------------------------------------
-- What the checks report
-- ---------------------------------------------------------------------------

/-- A value that is looked at as a whole has one error at most. -/
theorem Key.errorsOf_eq_ite {e : Expectation} (he : key.expectation = e)
    (h : e = .strings → ∀ items, v ≠ .array items) :
    key.errorsOf v = if e.Met v then [] else [⟨.setting key, e, e.got v⟩] := by
  subst he
  rw [errorsOf]
  exact fun items hstrings => h hstrings items

/-- A check reports nothing on a value that it accepts, so only its report on the others has to be
looked at. -/
theorem Reads.errors_eq {read : Key → α → Json → Checked α} {form : α → Setting} {fallback : α}
    {e : Expectation} (hread : Reads read form) (he : key.expectation = e)
    (hwhole : e = .strings → ∀ items, v ≠ .array items)
    (hmet : e.Met v ↔ ∃ a, Stands v (form a))
    (hwrong : ¬ e.Met v → (read key fallback v).errors = [⟨.setting key, e, e.got v⟩]) :
    (read key fallback v).errors = key.errorsOf v := by
  rw [Key.errorsOf_eq_ite he hwhole]
  split
  · next h =>
    obtain ⟨a, ha⟩ := hmet.mp h
    rw [(hread.eq_fine_iff key fallback v a).mpr ha]
    rfl
  · next h => exact hwrong h

/-- The check of a flag reports what is wrong with the value, and nothing if it is `true` or
`false`. -/
theorem errors_checkBool (he : key.expectation = .boolean) (fallback : Bool) (v : Json) :
    (checkBool key fallback v).errors = key.errorsOf v := by
  refine reads_bool.errors_eq he (by simp) Iff.rfl fun hwrong => ?_
  cases v with
  | bool b => exact absurd ⟨b, .flag b⟩ hwrong
  | _ => rfl

/-- The check of a limit reports what is wrong with the value, with the number as it is written. -/
theorem errors_checkPositive (he : key.expectation = .positiveInteger) (fallback : UInt64)
    (v : Json) : (checkPositive key fallback v).errors = key.errorsOf v := by
  refine reads_positive.errors_eq he (by simp) Iff.rfl fun hwrong => ?_
  cases v with
  | number n =>
    rw [checkPositive]
    split
    · next limit h => exact absurd ⟨limit, .limit (positive?_eq_some_iff.mp h)⟩ hwrong
    · rfl
  | _ => rfl

/-- The check of a case reports what is wrong with the value, and quotes a word that names none. -/
theorem errors_checkCase (he : key.expectation = .subjectCase) (fallback : SubjectCase)
    (v : Json) : (checkCase key fallback v).errors = key.errorsOf v := by
  refine reads_case.errors_eq he (by simp) Iff.rfl fun hwrong => ?_
  cases v with
  | string s =>
    rw [checkCase]
    split
    · next case h =>
      exact absurd ⟨case, stands_case_iff.mpr (by rw [SubjectCase.ofName?_eq_some_iff.mp h])⟩ hwrong
    · rfl
  | _ => rfl

/-- Each item that is not a string is reported, in order, under the key and its position in the
whole list. -/
theorem itemErrors_eq (key : Key) (i : Nat) (items : List Json) :
    itemErrors key i items = key.itemErrorsOf (items.zipIdx i) := by
  induction items generalizing i with
  | nil => rfl
  | cons item rest ih =>
    rw [List.zipIdx_cons, Key.itemErrorsOf, List.filter_cons]
    cases item with
    | string s =>
      rw [itemErrors, ih, if_neg (by simp [Expectation.Met])]
      rfl
    | _ =>
      rw [itemErrors, ih, if_pos (by simp [Expectation.Met])]
      · rfl
      · simp

/-- The check of a list reports each item that is no string under its position, and anything but a
list as a whole. -/
theorem errors_checkStrings (he : key.expectation = .strings) (fallback : List Text) (v : Json) :
    (checkStrings key fallback v).errors = key.errorsOf v := by
  cases v with
  | array items =>
    rw [Key.errorsOf]
    · exact itemErrors_eq key 0 items
    · exact he
  | _ => exact reads_strings.errors_eq he (by simp) Iff.rfl fun _ => rfl

/-- A key reports what its check reports on the value, if there is any. -/
theorem errors_checkKey {read : Key → α → Json → Checked α} {fallback : α}
    (h : ∀ v, (read key fallback v).errors = key.errorsOf v) :
    (checkKey members key read fallback).errors = errorsAt members key := by
  rw [checkKey, errorsAt]
  split
  · next hnone => rw [hnone]; rfl
  · next v hv => rw [hv, h]; rfl

/-- The checks report the errors of the keys, in their order. A key that fails does not keep the
ones after it from being checked. -/
theorem errors_checkMembers : (checkMembers members).errors = errorsIn members := by
  have hstrings : ∀ key fallback, key.expectation = .strings →
      (checkKey members key checkStrings fallback).errors = errorsAt members key :=
    fun key fallback he => errors_checkKey (errors_checkStrings he fallback)
  have hbool : ∀ key fallback, key.expectation = .boolean →
      (checkKey members key checkBool fallback).errors = errorsAt members key :=
    fun key fallback he => errors_checkKey (errors_checkBool he fallback)
  have hpositive : ∀ key fallback, key.expectation = .positiveInteger →
      (checkKey members key checkPositive fallback).errors = errorsAt members key :=
    fun key fallback he => errors_checkKey (errors_checkPositive he fallback)
  have hcase : ∀ key fallback, key.expectation = .subjectCase →
      (checkKey members key checkCase fallback).errors = errorsAt members key :=
    fun key fallback he => errors_checkKey (errors_checkCase he fallback)
  -- the checks stand in the order of the keys, so it is one step for each key
  simp only [checkMembers, errorsIn, Key.all, List.flatMap_cons, List.flatMap_nil,
    List.append_nil]
  rw [hstrings .types _ rfl, hbool .requireScope _ rfl, hpositive .maxHeaderLength _ rfl,
    hpositive .maxLineLength _ rfl, hcase .subjectCase _ rfl, hbool .subjectEmptyForbidden _ rfl,
    hbool .subjectFullStopForbidden _ rfl, hbool .bodyLeadingBlank _ rfl,
    hbool .footerLeadingBlank _ rfl, hstrings .blockedWords _ rfl]

-- ---------------------------------------------------------------------------
-- Other keys, and the order of keys
-- ---------------------------------------------------------------------------

/-- Among different keys a search finds what there is. So it does not matter in which order the
entries stand. -/
theorem lookup_eq_some_iff_mem {l : List (Text × Json)} (hkeys : (l.map Prod.fst).Nodup)
    {k : Text} : l.lookup k = some v ↔ (k, v) ∈ l := by
  induction l with
  | nil => exact iff_of_false nofun nofun
  | cons entry rest ih =>
    obtain ⟨j, w⟩ := entry
    rw [List.map_cons, List.nodup_cons] at hkeys
    rw [List.lookup_cons, List.mem_cons, Prod.mk.injEq]
    by_cases hj : k = j
    · have hrest : (k, v) ∉ rest := fun h =>
        hkeys.1 (List.mem_map.mpr ⟨(k, v), h, hj⟩)
      simp [hj, hj ▸ hrest, eq_comm]
    · have hbeq : (k == j) = false := beq_eq_false_iff_ne.mpr hj
      simp [hj, hbeq, ih hkeys.2]

theorem lookup_eq_of_perm {l l' : List (Text × Json)} (h : l.Perm l')
    (hkeys : (l.map Prod.fst).Nodup) (k : Text) : l.lookup k = l'.lookup k := by
  have hkeys' : (l'.map Prod.fst).Nodup := (h.map Prod.fst).nodup_iff.mp hkeys
  refine Option.ext fun v => ?_
  rw [lookup_eq_some_iff_mem hkeys, lookup_eq_some_iff_mem hkeys', h.mem_iff]

/-- The members of an object whose keys are those of settings. -/
def settingMembers (members : List (Text × Json)) : List (Text × Json) :=
  members.filter fun member => Key.all.any fun key => key.name == member.1

/-- Members under other keys are not found under the key of a setting. So they may be left out
before anything is looked up. -/
theorem lookup_settingMembers (members : List (Text × Json)) (key : Key) :
    (settingMembers members).lookup key.name = members.lookup key.name := by
  induction members with
  | nil => rfl
  | cons member rest ih =>
    rw [settingMembers] at ih ⊢
    rw [List.filter_cons]
    split
    · rw [List.lookup_cons, List.lookup_cons, ih]
    · next h =>
      have hne : key.name ≠ member.1 := fun e =>
        h (List.any_eq_true.mpr ⟨key, Key.mem_all key, beq_iff_eq.mpr e⟩)
      rw [ih, List.lookup_cons, beq_eq_false_iff_ne.mpr hne]

/-- What is read from an object depends on the values under the keys of settings alone. -/
theorem ofJson_object_congr
    (h : ∀ key : Key, members.lookup key.name = members'.lookup key.name) :
    ofJson (.object members) = ofJson (.object members') := by
  have hcheck : checkMembers members = checkMembers members' := by
    simp only [checkMembers, checkKey, h]
  rw [ofJson, ofJson, hcheck]

-- ---------------------------------------------------------------------------
-- Names of places
-- ---------------------------------------------------------------------------

/-- Different numbers have different digits. -/
theorem ofNat_injective : Function.Injective Text.ofNat := by
  intro m n h
  have hread : ∀ k, Nat.ofDigitChars 10 (Text.ofNat k) 0 = k := fun _ =>
    Nat.ofDigitChars_ten_toDigits
  rw [← hread m, h, hread n]

/-- A key is spelled in letters. -/
theorem Key.isAlpha_of_mem_name (key : Key) : ∀ x ∈ key.name, x.isAlpha = true := by
  have hall : key.name.all Char.isAlpha = true := by cases key <;> decide
  exact List.all_eq_true.mp hall

/-- No key is the empty word, so a key is told from the root by the letters that its name begins
with. -/
theorem Key.name_ne_nil (key : Key) : key.name ≠ [] := by
  cases key <;> decide

namespace Place

theorem name_setting (key : Key) : (setting key).name = key.name := rfl

/-- The place of an item is called by the key and the position in brackets. -/
theorem name_item (key : Key) (i : Nat) :
    (item key i).name = key.name ++ '[' :: (Text.ofNat i ++ [']']) := rfl

/-- The name of a place up to the first character that is no letter. -/
def front (p : Place) : Text := p.name.takeWhile Char.isAlpha

/-- A key has letters only, so the front of its name is all of it. -/
theorem front_setting (key : Key) : (setting key).front = key.name :=
  List.takeWhile_eq_self_iff.mpr key.isAlpha_of_mem_name

theorem front_item (key : Key) (i : Nat) : (item key i).front = key.name := by
  rw [front, name_item, List.takeWhile_append_of_pos key.isAlpha_of_mem_name,
    List.takeWhile_cons_of_neg (by decide), List.append_nil]

theorem front_root : root.front = [] := rfl

/-- Different places are reported under different names. An item has its position in brackets behind
the key, and no key has a bracket. -/
theorem name_injective : Function.Injective name := by
  intro p q h
  have hfront : p.front = q.front := congrArg (List.takeWhile Char.isAlpha) h
  -- the front of a name tells the key, and the rest whether it is an item and which
  cases p with
  | root =>
    rw [front_root] at hfront
    cases q with
    | root => rfl
    | setting key => exact absurd (hfront.trans (front_setting key)).symm key.name_ne_nil
    | item key i => exact absurd (hfront.trans (front_item key i)).symm key.name_ne_nil
  | setting key =>
    rw [front_setting] at hfront
    cases q with
    | root => exact absurd hfront key.name_ne_nil
    | setting j => rw [Key.name_injective (hfront.trans (front_setting j))]
    | item j i =>
      rw [name_setting, name_item, hfront.trans (front_item j i), List.self_eq_append_right] at h
      cases h
  | item key i =>
    rw [front_item] at hfront
    cases q with
    | root => exact absurd hfront key.name_ne_nil
    | setting j =>
      rw [name_setting, name_item, hfront.trans (front_setting j), eq_comm,
        List.self_eq_append_right] at h
      cases h
    | item j n =>
      obtain rfl := Key.name_injective (hfront.trans (front_item j n))
      rw [name_item, name_item, List.append_cancel_left_eq, List.cons.injEq] at h
      rw [ofNat_injective (List.append_cancel_right h.2)]

end Place

-- ---------------------------------------------------------------------------
-- What is read
-- ---------------------------------------------------------------------------

/-- What a value of JSON says about the settings: the configuration that it gives, or
everything that is wrong with it. -/
inductive Says : Json → Except (List FieldError) Config → Prop
  /-- `null` leaves every setting as it is without a configuration. -/
  | nothing : Says .null (.ok default)
  | settings {members : List (Text × Json)} {c : Config} (hfine : errorsIn members = [])
    (hgiven : c.GivenBy members) : Says (.object members) (.ok c)
  | malformed {members : List (Text × Json)} (hwrong : errorsIn members ≠ []) :
    Says (.object members) (.error (errorsIn members))
  | noObject {v : Json} (hnull : v ≠ .null) (hobject : ¬ Expectation.object.Met v) :
    Says v (.error [⟨.root, .object, v.kind⟩])

/-- What is read from a value is what it says, by cases on what the value can be: nothing, an
object, or something else that settings cannot be. -/
theorem says_ofJson (v : Json) : Says v (ofJson v) := by
  cases v with
  | null => exact .nothing
  | object members =>
    rw [ofJson]
    -- no error is reported exactly if all checks are fine
    split
    · next h =>
      have hfine : checkMembers members = .fine (checkMembers members).value :=
        Checked.eq_fine_iff.mpr ⟨h, rfl⟩
      exact .settings (errors_checkMembers ▸ h) (checkMembers_eq_fine_iff.mp hfine)
    · next e es h =>
      rw [← h, errors_checkMembers]
      exact .malformed fun hnil => by
        rw [← errors_checkMembers, h] at hnil
        cases hnil
  | _ => exact .noObject (by simp) (by simp [Expectation.Met])

/-- A value says one thing only. The cases of the description exclude each other, because the
settings are determined where all the checks pass. -/
theorem Says.eq_ofJson {r : Except (List FieldError) Config} (h : Says v r) : ofJson v = r := by
  cases h with
  | nothing => rfl
  | settings hfine hgiven => exact ofJson_object_eq_ok_iff.mpr hgiven
  | malformed hwrong =>
    rw [← errors_checkMembers] at hwrong ⊢
    rw [ofJson]
    split
    · next h => exact absurd h hwrong
    · next h => rw [h]
  | noObject hnull hobject =>
    cases v with
    | null => exact absurd rfl hnull
    | object members => exact absurd ⟨members, rfl⟩ hobject
    | _ => rfl

/-- Reading a value gives what the value says about the settings, and the names in a report tell
the places. Neither the order of the members of an object nor members under other keys change
anything. -/
theorem ofJson_eq_iff (v : Json) (r : Except (List FieldError) Config)
    (members members' : List (Text × Json)) :
    (ofJson v = r ↔ Says v r) ∧ Place.name.Injective ∧
    ((members.map Prod.fst).Nodup →
      (settingMembers members).Perm (settingMembers members') →
      ofJson (.object members) = ofJson (.object members')) := by
  refine ⟨⟨fun h => h ▸ says_ofJson v, Says.eq_ofJson⟩, Place.name_injective, fun hkeys hperm => ?_⟩
  have hkeys' : ((settingMembers members).map Prod.fst).Nodup :=
    hkeys.sublist (List.filter_sublist.map _)
  refine ofJson_object_congr fun key => ?_
  rw [← lookup_settingMembers, lookup_eq_of_perm hperm hkeys', lookup_settingMembers]

/-- The two errors come in the order of the keys that are checked, wherever the keys stand and
whatever else the object holds. -/
theorem ofJson_eq_iff_reordered :
    let types : Text × Json := ("types".toList, .array [.string "feat".toList, .null])
    let words : Text × Json := ("blockedWords".toList, .string "WIP".toList)
    let members := [words, types]
    let members' := [types, ("extends".toList, .bool true), words]
    (members.map Prod.fst).Nodup ∧ (settingMembers members).Perm (settingMembers members') ∧
      ofJson (.object members) = ofJson (.object members') ∧
      ofJson (.object members') = .error [⟨.item .types 1, .string, "null".toList⟩,
        ⟨.setting .blockedWords, .strings, "string".toList⟩] := by
  intro types words members members'
  have hkeys : (members.map Prod.fst).Nodup := by decide
  have hperm : (settingMembers members).Perm (settingMembers members') := List.Perm.swap _ _ []
  have hsame := (ofJson_eq_iff .null (.ok default) members members').2.2 hkeys hperm
  exact ⟨hkeys, hperm, hsame, rfl⟩

end Config

end ConventionalCommit
