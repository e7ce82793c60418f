import ConventionalCommit.Report.Paint
import ConventionalCommit.Rule.Check

/-!
# ConventionalCommit — lines of a report

The lines of a report on a message: one for each issue, and a summary.
-/

namespace ConventionalCommit

/-- The paint of a level. -/
def Level.paint : Level → Paint
  | error => .error
  | warning => .warning

/-- The line that reports an issue. -/
def Issue.line (colours : Bool) (i : Issue) : Text :=
  i.level.paint.line colours i.rule.code ++ ": ".toList ++ i.message

/-- The line that sums a report up. -/
def LintResult.summary (colours : Bool) (r : LintResult) : Text :=
  let counts := Text.ofNat r.errors.length ++ " error(s), ".toList ++
    Text.ofNat r.warnings.length ++ " warning(s)".toList
  if !r.errors.isEmpty then Paint.error.line colours counts
  else if !r.warnings.isEmpty then Paint.warning.line colours counts
  else Paint.success.line colours "commit message is valid".toList

end ConventionalCommit
