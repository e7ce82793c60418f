import ConventionalCommit.Files.Basic

/-!
# ConventionalCommit — reading files

Which entries can be read as a text, and which file a path leads to.

* `Entry.read_eq_ok_iff`: a text is read from what holds it in UTF-8, and from nothing else;
* `fileName?_joinPath`: the file of a given name inside a directory has that name.
-/

namespace ConventionalCommit

variable {name t : Text} {bytes : ByteArray} {e : Entry}

-- ---------------------------------------------------------------------------
-- Texts
-- ---------------------------------------------------------------------------

/-- Bytes are read as a text exactly if they are its encoding. No text has two encodings, and other
bytes are an error. -/
theorem decodeText_eq_ok_iff : decodeText bytes = .ok t ↔ bytes = t.utf8Encode := by
  rw [decodeText, String.fromUTF8?]
  by_cases h : bytes.IsValidUTF8
  · rw [dif_pos h]
    dsimp only
    rw [Except.ok.injEq, ← String.toByteArray_ofList]
    constructor
    · rintro rfl
      rw [String.ofList_toList]
      rfl
    · rintro rfl
      show (String.ofList t).toList = t
      exact String.toList_ofList
  · rw [dif_neg h]
    -- the encoding of a text is valid
    refine iff_of_false nofun ?_
    rintro rfl
    exact h ⟨t, rfl⟩

/-- A text is read from what holds its bytes. It makes no difference for this whether that is
a regular file. -/
theorem Entry.read_eq_ok_iff : e.read = .ok t ↔ e.bytes? = some t.utf8Encode := by
  cases e with
  | file bytes => rw [read, decodeText_eq_ok_iff, bytes?, Option.some.injEq]
  | special bytes => rw [read, decodeText_eq_ok_iff, bytes?, Option.some.injEq]
  | _ => exact iff_of_false nofun nofun

-- ---------------------------------------------------------------------------
-- Names of files
-- ---------------------------------------------------------------------------

/-- Every path has a part, the empty path an empty one. -/
theorem pathParts_ne_nil (path : Text) : pathParts path ≠ [] := by
  cases path with
  | nil => exact List.cons_ne_nil _ _
  | cons c rest =>
    rw [pathParts]
    split
    · exact List.cons_ne_nil _ _
    · split <;> exact List.cons_ne_nil _ _

/-- A slash ends one part of a path and begins another. So a name that is joined to a directory is a
part of its own. -/
theorem pathParts_append_slash (dir name : Text) :
    pathParts (dir ++ '/' :: name) = pathParts dir ++ pathParts name := by
  induction dir with
  | nil => rfl
  | cons c rest ih =>
    rw [List.cons_append, pathParts, pathParts, ih]
    split
    · rfl
    · obtain ⟨part, others, hparts⟩ := List.exists_cons_of_ne_nil (pathParts_ne_nil rest)
      rw [hparts]
      rfl

/-- The path of a name inside a directory leads to that name, if it is a plain one. -/
theorem fileName?_joinPath (hparts : pathParts name = [name]) (hname : staysHere name = false)
    (hup : name ≠ ['.', '.']) (dir : Text) : fileName? (joinPath dir name) = some name := by
  have hlast : ∀ before, fileName? (before ++ '/' :: name) = some name := by
    intro before
    rw [fileName?, pathParts_append_slash, hparts, List.filter_append]
    simp [hname, hup]
  rw [joinPath]
  split
  · simp [fileName?, hparts, hname, hup]
  · split
    · next hslash =>
      obtain ⟨before, rfl⟩ := List.getLast?_eq_some_iff.mp hslash
      rw [List.append_assoc]
      exact hlast before
    · exact hlast dir

end ConventionalCommit
