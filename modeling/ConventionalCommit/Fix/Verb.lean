import ConventionalCommit.Text.Basic

/-!
# ConventionalCommit — leading verbs

The verbs that a subject often begins with, and the type of commit that each
of them announces.
-/

namespace ConventionalCommit

/-- Groups of verbs in their forms, each group with the type it announces. -/
def verbGroups : List (Text × List Text) :=
  [("feat".toList,
    ["add".toList, "adding".toList, "added".toList, "create".toList, "creating".toList,
     "created".toList, "implement".toList, "implementing".toList, "implemented".toList,
     "introduce".toList, "introducing".toList, "introduced".toList]),
   ("fix".toList,
    ["fix".toList, "fixing".toList, "fixed".toList, "resolve".toList, "resolving".toList,
     "resolved".toList, "correct".toList, "correcting".toList, "corrected".toList,
     "patch".toList, "patching".toList, "patched".toList]),
   ("refactor".toList,
    ["refactor".toList, "refactoring".toList, "refactored".toList, "restructure".toList,
     "restructuring".toList, "restructured".toList]),
   ("chore".toList,
    ["update".toList, "updating".toList, "updated".toList, "change".toList,
     "changing".toList, "changed".toList, "modify".toList, "modifying".toList,
     "modified".toList, "remove".toList, "removing".toList, "removed".toList,
     "delete".toList, "deleting".toList, "deleted".toList]),
   ("perf".toList,
    ["improve".toList, "improving".toList, "improved".toList, "optimize".toList,
     "optimizing".toList, "optimized".toList]),
   ("docs".toList, ["document".toList, "documenting".toList, "documented".toList])]

/-- The type that a verb in lower case announces. -/
def typeOfVerb? (word : Text) : Option Text :=
  (verbGroups.find? fun g => g.2.contains word).map (·.1)

end ConventionalCommit
