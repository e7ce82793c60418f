import ConventionalCommit.Unicode.CaseMapping
import ConventionalCommit.Unicode.Cased
import ConventionalCommit.Text.Basic

/-!
# ConventionalCommit — lower case of a text

The full lower case mapping of Unicode for a whole text. Each character maps
by itself, with one exception that looks at its neighbours: a capital sigma
that ends a word becomes `ς` and any other becomes `σ`.
-/

namespace ConventionalCommit.Text

open Unicode (isCased isCaseIgnorable toLower)

/-- Whether the first character that a search does not pass over is cased. -/
def startsCased (t : Text) : Bool :=
  (t.dropWhile isCaseIgnorable).head?.any isCased

/-- The small form of a capital sigma between the characters `before`, nearest
first, and the characters `after`: final exactly when a letter comes before it
and none comes after. -/
def smallSigma (before after : Text) : Char :=
  if startsCased before && !startsCased after then 'ς' else 'σ'

/-- The lower case of a text that follows the characters `before`, nearest
first. -/
def lowercaseAfter (before : Text) : Text → Text
  | [] => []
  | c :: rest =>
    (if c = 'Σ' then [smallSigma before rest] else toLower c) ++
      lowercaseAfter (c :: before) rest

/-- The lower case of a text. -/
def lowercase (t : Text) : Text := lowercaseAfter [] t

end ConventionalCommit.Text
