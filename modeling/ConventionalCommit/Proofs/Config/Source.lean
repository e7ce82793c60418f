import ConventionalCommit.Config.Load
import ConventionalCommit.Files.Tree
import ConventionalCommit.Proofs.Files.Reading

/-!
# ConventionalCommit — one source of settings

Settings are read from one file: an explicit one, or else the first of the two candidates that
is a file (`Config.Selects`). What is loaded follows from what that file holds, or from there
being none (`Config.Gives`). A file that is selected stays so when it cannot be read, and a
candidate that is passed over is not read at all.

* `Config.load_eq_iff`: what is loaded, that nothing but the selected file has a part in it, and
  how the two candidates are read;
* `Config.load_eq_bind_uncheckedIn`: the same settings, if they are first looked for unchecked.
-/

namespace ConventionalCommit

namespace Config

variable {files : Files} {dir path : Text} {explicit source? : Option Text} {v s : Json}
  {r : Except LoadError Config}

/-- The path of the settings file in a directory has its name, also if the directory is written with
a slash at its end. -/
theorem fileName?_own (dir : Text) : fileName? (joinPath dir ownFileName) = some ownFileName :=
  fileName?_joinPath (by decide) (by decide) (by decide) dir

/-- The same for the package file. The names differ, so the path tells which of the two a file is
read as. -/
theorem fileName?_package (dir : Text) :
    fileName? (joinPath dir packageFileName) = some packageFileName :=
  fileName?_joinPath (by decide) (by decide) (by decide) dir

-- ---------------------------------------------------------------------------
-- Selecting a file
-- ---------------------------------------------------------------------------

/-- The file that settings are read from: an explicit one whatever there is at its path, and
without one the first candidate that is a file. -/
inductive Selects (files : Files) (dir : Text) : Option Text → Option Text → Prop
  | explicit (path : Text) : Selects files dir (some path) (some path)
  | own (hown : (files (joinPath dir ownFileName)).isFile = true) :
    Selects files dir none (some (joinPath dir ownFileName))
  | package (hown : (files (joinPath dir ownFileName)).isFile = false)
    (hpackage : (files (joinPath dir packageFileName)).isFile = true) :
    Selects files dir none (some (joinPath dir packageFileName))
  | nothing (hown : (files (joinPath dir ownFileName)).isFile = false)
    (hpackage : (files (joinPath dir packageFileName)).isFile = false) :
    Selects files dir none none

/-- The search for a file selects one source in each case, the first in order that there is. -/
theorem selects_iff : Selects files dir explicit source? ↔ source files dir explicit = source? := by
  constructor
  · intro h
    cases h with
    | explicit path => rfl
    | own hown => simp [source, sourceIn, candidates, hown]
    | package hown hpackage => simp [source, sourceIn, candidates, hown, hpackage]
    | nothing hown hpackage => simp [source, sourceIn, candidates, hown, hpackage]
  · rintro rfl
    cases explicit with
    | some path => exact .explicit path
    | none =>
      -- the candidates are asked in their order
      cases hown : (files (joinPath dir ownFileName)).isFile with
      | true => simpa [source, sourceIn, candidates, hown] using Selects.own hown
      | false =>
        cases hpackage : (files (joinPath dir packageFileName)).isFile with
        | true =>
          simpa [source, sourceIn, candidates, hown, hpackage] using Selects.package hown hpackage
        | false =>
          simpa [source, sourceIn, candidates, hown, hpackage] using Selects.nothing hown hpackage

-- ---------------------------------------------------------------------------
-- What a file gives
-- ---------------------------------------------------------------------------

/-- The part of the value in a file that holds the settings: all of it, unless the file has the
name of a package file, and then what is under the key, or `null` without the key. -/
inductive Holds (path : Text) (v : Json) : Json → Prop
  | whole (hname : fileName? path ≠ some packageFileName) : Holds path v v
  | member {s : Json} (hname : fileName? path = some packageFileName)
    (hkey : v.get? packageKey = some s) : Holds path v s
  | absent (hname : fileName? path = some packageFileName) (hkey : v.get? packageKey = none) :
    Holds path v .null

/-- The settings in a value are those under a key of it for a package file, and else the value
itself. -/
theorem holds_iff : Holds path v s ↔ settingsIn path v = s := by
  constructor
  · intro h
    cases h with
    | whole hname => rw [settingsIn, if_neg hname]
    | member hname hkey => rw [settingsIn, if_pos hname, hkey, Option.getD_some]
    | absent hname hkey => rw [settingsIn, if_pos hname, hkey, Option.getD_none]
  · rintro rfl
    rw [settingsIn]
    split
    · next hname =>
      cases hkey : v.get? packageKey with
      | none => exact .absent hname hkey
      | some s => exact .member hname hkey
    · next hname => exact .whole hname

/-- What comes of the file that is selected: the settings that it holds, or the first thing that is
wrong with it. Without a file the settings are the defaults. -/
inductive Gives (files : Files) : Option Text → Except LoadError Config → Prop
  | nothing : Gives files none (.ok default)
  | fault {path : Text} {f : ReadFault} (hread : (files path).read = .error f) :
    Gives files (some path) (.error (.file path (.fault f)))
  | notJson {path t : Text} {e : Json.SyntaxError} (hread : (files path).read = .ok t)
    (hjson : Json.read t = .error e) : Gives files (some path) (.error (.file path (.notJson e)))
  | malformed {path t : Text} {v s : Json} {errors : List FieldError}
    (hread : (files path).read = .ok t) (hjson : Json.read t = .ok v) (hholds : Holds path v s)
    (hwrong : ofJson s = .error errors) : Gives files (some path) (.error (.invalid errors))
  | settings {path t : Text} {v s : Json} {c : Config} (hread : (files path).read = .ok t)
    (hjson : Json.read t = .ok v) (hholds : Holds path v s) (hfine : ofJson s = .ok c) :
    Gives files (some path) (.ok c)

/-- What is loaded is what the selected file gives. The loading has a step for each premise of a
case and stops at the first that fails. -/
theorem gives_load : Gives files (source files dir explicit) (load files dir explicit) := by
  rw [load]
  cases source files dir explicit with
  | none => exact .nothing
  | some path =>
    simp only [readSource]
    -- each step of the loading has one case, up to the first that fails
    cases hread : (files path).read with
    | error f => exact .fault hread
    | ok t =>
      dsimp only
      cases hjson : Json.read t with
      | error e => exact .notJson hread hjson
      | ok v =>
        have hholds : Holds path v (settingsIn path v) := holds_iff.mpr rfl
        dsimp only
        cases hsettings : ofJson (settingsIn path v) with
        | error errors => exact .malformed hread hjson hholds hsettings
        | ok c => exact .settings hread hjson hholds hsettings

/-- A file gives one thing only. So the description determines what is loaded, and it can be read
from left to right as well. -/
theorem Gives.load_eq (h : Gives files source? r) (hs : source files dir explicit = source?) :
    load files dir explicit = r := by
  rw [load, hs]
  cases h with
  | nothing => rfl
  | fault hread => simp only [readSource, hread]
  | notJson hread hjson => simp only [readSource, hread, hjson]
  | malformed hread hjson hholds hwrong =>
    simp only [readSource, hread, hjson, holds_iff.mp hholds, hwrong]
    rfl
  | settings hread hjson hholds hfine =>
    simp only [readSource, hread, hjson, holds_iff.mp hholds, hfine]
    rfl

/-- Nothing of the files but the text of the one that is selected matters for what it gives. -/
theorem Gives.of_read {files' : Files} (h : Gives files source? r)
    (hsame : ∀ path ∈ source?, (files path).read = (files' path).read) :
    Gives files' source? r := by
  cases h with
  | nothing => exact .nothing
  | fault hread => exact .fault (hsame _ rfl ▸ hread)
  | notJson hread hjson => exact .notJson (hsame _ rfl ▸ hread) hjson
  | malformed hread hjson hholds hwrong =>
    exact .malformed (hsame _ rfl ▸ hread) hjson hholds hwrong
  | settings hread hjson hholds hfine =>
    exact .settings (hsame _ rfl ▸ hread) hjson hholds hfine

/-- Settings that are looked for unchecked are checked afterwards, and it makes no difference
whether there are none or `null`. -/
theorem load_eq_bind_uncheckedIn (files : Files) (dir : Text) :
    load files dir none =
      (uncheckedIn files dir).bind fun v => (ofJson (v.getD .null)).mapError .invalid := by
  rw [load, source, uncheckedIn]
  cases sourceIn files dir with
  | none => rfl
  | some path =>
    cases hv : readSource files path with
    | error e => simp [hv, Except.map, Except.bind]
    | ok v =>
      simp only [hv, Except.map, Except.bind]
      split
      · next hnull =>
        -- `null` is what missing settings are taken for
        cases v with
        | null => rfl
        | _ => simp [Json.isNull] at hnull
      · rfl

/-- What is loaded is what the selected file gives, errors included. Two systems of files where
the same file is selected and has the same text give the same, whatever else is in them. Of the
two candidates the package file is read under its key and the other one as a whole. -/
theorem load_eq_iff (files : Files) (dir : Text) (explicit : Option Text) :
    (∀ r, load files dir explicit = r ↔
      ∃ source?, Selects files dir explicit source? ∧ Gives files source? r) ∧
    (∀ (files' : Files) (dir' : Text) (explicit' source? : Option Text),
      Selects files dir explicit source? → Selects files' dir' explicit' source? →
      (∀ path ∈ source?, (files path).read = (files' path).read) →
      load files dir explicit = load files' dir' explicit') ∧
    fileName? (joinPath dir packageFileName) = some packageFileName ∧
    fileName? (joinPath dir ownFileName) ≠ some packageFileName := by
  refine ⟨fun r => ⟨?_, ?_⟩, ?_, fileName?_package dir, ?_⟩
  · rintro rfl
    exact ⟨_, selects_iff.mpr rfl, gives_load⟩
  · rintro ⟨source?, hselects, hgives⟩
    exact hgives.load_eq (selects_iff.mp hselects)
  · intro files' dir' explicit' source? hselects hselects' hsame
    -- only what is read at the selected path counts
    have hgives : Gives files source? (load files dir explicit) :=
      selects_iff.mp hselects ▸ gives_load
    exact ((hgives.of_read hsame).load_eq (selects_iff.mp hselects')).symm
  · rw [fileName?_own]
    decide

/-- A file of settings that is broken is reported, although the package file next to it is fine,
just as if there were no package file. -/
theorem load_eq_iff_broken :
    let own : Text := "./.commitlyrc.json".toList
    let alone := FileTree.empty.addFile ".commitlyrc.json".toList ['\x7b'].utf8Encode
    let beside := alone.addFile "package.json".toList "null".toList.utf8Encode
    Selects beside.entry ['.'] none (some own) ∧ Selects alone.entry ['.'] none (some own) ∧
      (beside.entry own).read = (alone.entry own).read ∧
      load beside.entry ['.'] none = load alone.entry ['.'] none ∧
      load alone.entry ['.'] none = .error (.file own (.notJson ⟨.endInObject, 1, 1⟩)) := by
  intro own alone beside
  have hbeside : Selects beside.entry ['.'] none (some own) := .own rfl
  have halone : Selects alone.entry ['.'] none (some own) := .own rfl
  have hread : (beside.entry own).read = (alone.entry own).read := congrArg Entry.read rfl
  have hsame : ∀ path ∈ some own, (beside.entry path).read = (alone.entry path).read := by
    rintro path ⟨⟩
    exact hread
  have htext : (alone.entry own).read = .ok ['\x7b'] := Entry.read_eq_ok_iff.mpr rfl
  exact ⟨hbeside, halone, hread,
    (load_eq_iff beside.entry ['.'] none).2.1 _ _ _ _ hbeside halone hsame,
    (Gives.notJson htext rfl).load_eq (selects_iff.mp halone)⟩

end Config

end ConventionalCommit
