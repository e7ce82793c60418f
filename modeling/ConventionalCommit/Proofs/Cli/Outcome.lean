import ConventionalCommit.Proofs.Cli.Comments
import ConventionalCommit.Proofs.Files.Reading
import ConventionalCommit.Proofs.Json.RoundTrip
import ConventionalCommit.Proofs.Rule.Order

/-!
# ConventionalCommit — the outcome of a run

A run fails without settings or without a message (`Fails`), and then it prints nothing to
standard output. Any other run has a text to work on (`Supplies`) and carries its command out on
the lines of it that are no comments (`keptLines`).

* `run_eq`: what a run does that does not fail;
* `Readable.lintResult`: a report is read back from what is printed of it;
* `run_outcome`: the exit status and the output of every run.
-/

namespace ConventionalCommit

open Text (lines)

-- ---------------------------------------------------------------------------
-- Reports are read back
-- ---------------------------------------------------------------------------

namespace Json.Readable

theorem ofText? (depth : Nat) (t? : Option Text) : Readable depth (.ofText? t?) := by
  cases t? with
  | none => exact .null depth
  | some t => exact .string depth t

theorem issue (depth : Nat) (i : Issue) : Readable (depth + 1) i.toJson := by
  refine .object ?_ ?_
  · show (["level".toList, "rule".toList, "message".toList] : List Text).Nodup
    decide
  · simp only [List.forall_mem_cons, List.not_mem_nil, false_imp_iff, implies_true, and_true]
    exact ⟨.string .., .string .., .string ..⟩

/-- A message is an object of its fields. -/
theorem message (depth : Nat) (m : Message) : Readable (depth + 1) m.toJson := by
  refine .object ?_ ?_
  · show (["header".toList, "type".toList, "scope".toList, "subject".toList, "body".toList,
      "footer".toList, "isBreaking".toList, "hasBreakingMarker".toList, "raw".toList] :
      List Text).Nodup
    decide
  · simp only [List.forall_mem_cons, List.not_mem_nil, false_imp_iff, implies_true, and_true]
    exact ⟨.string .., ofText? .., ofText? .., ofText? .., ofText? .., ofText? .., .bool ..,
      .bool .., .string ..⟩

/-- A report has an object in an array in an object. -/
theorem lintResult (depth : Nat) (r : LintResult) : Readable (depth + 3) r.toJson := by
  have hissues : ∀ is : List Issue, Readable (depth + 2) (.array (is.map Issue.toJson)) := by
    refine fun is => .array fun v hv => ?_
    obtain ⟨i, -, rfl⟩ := List.mem_map.mp hv
    exact issue depth i
  refine .object ?_ ?_
  · show (["valid".toList, "errors".toList, "warnings".toList, "parsed".toList,
      "suggestion".toList] : List Text).Nodup
    decide
  · simp only [List.forall_mem_cons, List.not_mem_nil, false_imp_iff, implies_true, and_true]
    exact ⟨.bool .., hissues _, hissues _, message .., ofText? ..⟩

end Json.Readable

/-- The suggestion stands under its own key, and is `null` if there is none. -/
theorem LintResult.get?_suggestion (r : LintResult) :
    r.toJson.get? "suggestion".toList = some (.ofText? r.suggestion) := rfl

namespace Cli

variable {w w' : World} {a a' : Args} {c : Config} {t t' m : Text} {file : Option Text}
  {command : Command}

-- ---------------------------------------------------------------------------
-- The text of a run
-- ---------------------------------------------------------------------------

/-- The lines of a text that are no comments. -/
def keptLines (t : Text) : List Text := (lines t).filter fun l => l.head? != some '#'

/-- The text that a message is read from, by the bytes of it in UTF-8. A message may come from
a pipe just as well as from a file. -/
inductive Supplies (w : World) : Option Text → Text → Prop
  | file {path t : Text} (hfile : (w.files path).bytes? = some t.utf8Encode) :
    Supplies w (some path) t
  | stdin {t : Text} (hstdin : w.stdin = t.utf8Encode) : Supplies w none t

/-- A message is read exactly where there is a text, in the file that is named or on standard input,
and what is read is that text without its comments. -/
theorem messageText_eq_ok_iff :
    messageText w file = .ok m ↔ ∃ t, Supplies w file t ∧ withoutComments t = m := by
  have hmap : ∀ r : Except ReadFault Text,
      r.map withoutComments = .ok m ↔ ∃ t, r = .ok t ∧ withoutComments t = m := by
    intro r
    cases r <;> simp [Except.map]
  cases file with
  -- a file has to be there, be one and be text
  | some path =>
    rw [messageText, hmap]
    refine exists_congr fun t => and_congr_left' ?_
    rw [Entry.read_eq_ok_iff]
    exact ⟨.file, fun | .file h => h⟩
  -- standard input only has to be text
  | none =>
    rw [messageText, hmap]
    refine exists_congr fun t => and_congr_left' ?_
    rw [decodeText_eq_ok_iff]
    exact ⟨.stdin, fun | .stdin h => h⟩

theorem Supplies.messageText (h : Supplies w file t) :
    messageText w file = .ok (withoutComments t) :=
  messageText_eq_ok_iff.mpr ⟨t, h, rfl⟩

theorem withoutComments_congr (h : keptLines t = keptLines t') :
    withoutComments t = withoutComments t' := congrArg Text.unlines h

-- ---------------------------------------------------------------------------
-- Failing runs and others
-- ---------------------------------------------------------------------------

/-- The command of a run. -/
def Args.task (a : Args) : Command := a.command.getD defaultCommand

/-- The settings of a run. -/
def settings (w : World) (a : Args) : Except Config.LoadError Config :=
  Config.load w.files a.dir a.config

/-- A run fails without settings, and without a text where there are settings. -/
inductive Fails (w : World) (a : Args) : Prop
  | settings {e : Config.LoadError} (hsettings : settings w a = .error e)
  | text {c : Config} (hsettings : Cli.settings w a = .ok c)
    (htext : ∀ t, ¬ Supplies w a.task.file t)

/-- A command that is carried out reports no failure. -/
theorem Command.exit_run_ne_two (display : Display) : (command.run display c m).exit ≠ 2 := by
  cases command with
  | lint _ json =>
    show (if _ then 0 else 1) ≠ 2
    split <;> decide
  | fix => exact Nat.zero_ne_add_one 1

/-- A run with settings and a text carries its command out. This is the only way for the settings
and the text to count. -/
theorem run_eq (hc : settings w a = .ok c) (ht : Supplies w a.task.file t) :
    run w a = a.task.run w.display c (withoutComments t) := by
  have hattempt : attempt w a = .ok (a.task.run w.display c (withoutComments t)) := by
    rw [settings] at hc
    have hm := ht.messageText
    rw [Args.task] at hm ⊢
    simp only [attempt, hc, hm]
  rw [run, hattempt]

/-- A failure is shown as one, whatever it is. So it has the exit status of failures, and nothing is
printed to standard output. -/
theorem Fails.exists_failure (h : Fails w a) : ∃ f : Failure, run w a = f.outcome w.display.colours := by
  suffices hattempt : ∃ f, attempt w a = .error f by
    obtain ⟨f, hf⟩ := hattempt
    exact ⟨f, by rw [run, hf]⟩
  cases h with
  | @settings e hsettings =>
    rw [Cli.settings] at hsettings
    exact ⟨.config e, by simp only [attempt, hsettings]⟩
  | @text c hsettings htext =>
    rw [Cli.settings] at hsettings
    -- a message that is read would have a text
    cases hm : messageText w a.task.file with
    | ok m =>
      obtain ⟨t, ht, -⟩ := messageText_eq_ok_iff.mp hm
      exact absurd ht (htext t)
    | error f =>
      rw [Args.task] at hm
      exact ⟨.message f, by simp only [attempt, hsettings, hm]⟩

/-- A run fails, or it has settings and a text. The settings are looked for first, so a broken file
of settings hides a missing message. -/
theorem fails_or_supplies (w : World) (a : Args) :
    Fails w a ∨ ∃ c t, settings w a = .ok c ∧ Supplies w a.task.file t := by
  cases hc : settings w a with
  | error e => exact Or.inl (.settings hc)
  | ok c =>
    by_cases ht : ∃ t, Supplies w a.task.file t
    · obtain ⟨t, ht⟩ := ht
      exact Or.inr ⟨c, t, rfl, ht⟩
    · exact Or.inl (.text hc (not_exists.mp ht))

/-- The exit status of a failure is that of no other run, so a script can tell a message that is not
valid from one that could not be read. -/
theorem exit_run_eq_two_iff : (run w a).exit = 2 ↔ Fails w a := by
  constructor
  · intro hexit
    rcases fails_or_supplies w a with h | ⟨c, t, hc, ht⟩
    · exact h
    · rw [run_eq hc ht] at hexit
      exact absurd hexit (Command.exit_run_ne_two w.display)
  · intro h
    obtain ⟨f, hf⟩ := h.exists_failure
    rw [hf]
    rfl

-- ---------------------------------------------------------------------------
-- What a run shows
-- ---------------------------------------------------------------------------

/-- The same command with a message from elsewhere. -/
def Command.on (file : Option Text) : Command → Command
  | lint _ json => lint file json
  | fix _ noInferType noFixCase noFixPeriod noWrap =>
    fix file noInferType noFixCase noFixPeriod noWrap

theorem Command.run_on (file : Option Text) (display : Display) :
    (command.on file).run display c m = command.run display c m := by
  cases command <;> rfl

/-- What a run shows that has settings and a message. -/
structure CarriedOut (w : World) (a : Args) (c : Config) (m : Text) : Prop where
  /-- Fixing succeeds and prints the fixed message, or the message if there is nothing to fix. -/
  fix : ∀ {file noInferType noFixCase noFixPeriod noWrap},
    a.task = .fix file noInferType noFixCase noFixPeriod noWrap →
    (run w a).exit = 0 ∧ (run w a).stdout =
      (fixMessage ⟨!noInferType, !noFixCase, !noFixPeriod, !noWrap⟩ c m).getD m ++ ['\n']
  /-- Linting succeeds unless there is an error, however the issues are printed. -/
  lint : ∀ {file json}, a.task = .lint file json →
    (run w a).exit = if ∃ i ∈ (Message.parse m).check c, i.level = .error then 1 else 0
  /-- A record of the issues has a suggestion if there is an issue and a fix, and then it is what
  fixing the message prints. -/
  suggestion : ∀ {file}, a.task = .lint file true →
    ∃ record s?, Json.read (run w a).stdout = .ok record ∧
      record.get? "suggestion".toList = some (.ofText? s?) ∧
      (s? = none ↔ (Message.parse m).check c = [] ∨ fixMessage .all c m = none) ∧
      ∀ s ∈ s?, (run w { a with command := some (.fix file false false false false) }).stdout =
        s ++ ['\n']

/-- A report is valid exactly if there is no error among the issues. -/
theorem valid_lintWithSuggestion_iff :
    (lintWithSuggestion c m).valid = true ↔
      ¬ ∃ i ∈ (Message.parse m).check c, i.level = .error := by
  show ((Message.parse m).check c |>.filter (·.level == .error)).isEmpty = true ↔ _
  simp [List.filter_eq_nil_iff]

/-- A suggestion is looked for only if there is an issue, even where a fix would have something to
do. -/
theorem suggestion_lintWithSuggestion : (lintWithSuggestion c m).suggestion =
    if (Message.parse m).check c = [] then none else fixMessage .all c m := by
  have hissues : (Cli.lintWithSuggestion c m).issues = (Message.parse m).check c :=
    Message.filter_level_check
  show (if (Cli.lintWithSuggestion c m).issues.isEmpty then none else suggestedFix c m) = _
  rw [hissues]
  simp only [List.isEmpty_iff]
  rfl

/-- A run with settings and a text shows what its command is for. Each field looks at one command,
and that of the suggestion compares two runs on the same file. -/
theorem carriedOut (hc : settings w a = .ok c) (ht : Supplies w a.task.file t) :
    CarriedOut w a c (withoutComments t) where
  fix htask := by
    rw [run_eq hc ht, htask]
    exact ⟨rfl, rfl⟩
  lint {file json} htask := by
    rw [run_eq hc ht, htask]
    show (if (lintWithSuggestion c _).valid = true then 0 else 1) = _
    simp only [valid_lintWithSuggestion_iff, ite_not]
  suggestion {file} htask := by
    have hfile : a.task.file = file := by rw [htask, Command.file]
    -- what is printed is read back, and the entry is looked up in it
    refine ⟨_, _, ?_, LintResult.get?_suggestion (lintWithSuggestion c (withoutComments t)), ?_, ?_⟩
    · rw [run_eq hc ht, htask]
      exact Json.read_pretty (.lintResult 124 _)
    · rw [suggestion_lintWithSuggestion]
      split <;> simp [*]
    · intro s hs
      have hs : fixMessage .all c (withoutComments t) = some s := by
        rw [suggestion_lintWithSuggestion] at hs
        split at hs
        · cases hs
        · exact hs
      -- the suggestion is compared with a run of the other command on the same file
      have hfix := run_eq (a := { a with command := some (.fix file false false false false) }) hc
        (hfile ▸ ht)
      rw [hfix]
      show (fixMessage .all c _).getD _ ++ _ = _
      rw [hs, Option.getD_some]

/-- The outcome of every run: when it fails, that it then prints nothing to standard output, what
it shows otherwise, and that nothing of the text of a message counts but its lines without the
comments. For the last, the two runs have the same settings and the same display, because a
report is painted in its colours and framed in its width. -/
theorem run_outcome (w : World) (a : Args) :
    ((run w a).exit = 2 ↔ Fails w a) ∧
    (Fails w a → (run w a).stdout = []) ∧
    (∀ c t, settings w a = .ok c → Supplies w a.task.file t →
      CarriedOut w a c (withoutComments t)) ∧
    (∀ (w' : World) (a' : Args) (t t' : Text),
      settings w a = settings w' a' → w.display = w'.display → a.task.on none = a'.task.on none →
      Supplies w a.task.file t → Supplies w' a'.task.file t' → keptLines t = keptLines t' →
      run w a = run w' a') := by
  refine ⟨exit_run_eq_two_iff, ?_, fun c t => carriedOut, ?_⟩
  · intro h
    obtain ⟨f, hf⟩ := h.exists_failure
    rw [hf]
    rfl
  · intro w' a' t t' hsettings hdisplay htask ht ht' hlines
    cases hc : settings w a with
    | error e =>
      have hc' := hsettings ▸ hc
      -- without settings the text is not looked at
      rw [settings] at hc hc'
      have hattempt : attempt w a = .error (.config e) := by simp only [attempt, hc]
      have hattempt' : attempt w' a' = .error (.config e) := by simp only [attempt, hc']
      rw [run, run, hattempt, hattempt', hdisplay]
    | ok c =>
      -- with settings, a run depends on the kept lines, the display and the task
      rw [run_eq hc ht, run_eq (hsettings ▸ hc) ht', withoutComments_congr hlines, hdisplay,
        ← Command.run_on none, htask, Command.run_on]

/-- Two texts with the same lines but for a comment: there is an error in either, and the text
that is suggested is what fixing prints. -/
theorem run_outcome_commented :
    let w : World := ⟨fun _ => .missing, "# hint\nAdd x.\n".toList.utf8Encode, ⟨true, some 120⟩⟩
    let w' : World := ⟨fun _ => .missing, "Add x.".toList.utf8Encode, ⟨true, some 120⟩⟩
    let linting : Args := ⟨none, ['.'], some (.lint none true)⟩
    let fixing : Args := ⟨none, ['.'], some (.fix none false false false false)⟩
    Supplies w none "# hint\nAdd x.\n".toList ∧ Supplies w' none "Add x.".toList ∧
      (run w linting).exit = 1 ∧ (run w fixing).exit = 0 ∧
      (run w fixing).stdout = "feat: add x\n".toList ∧
      (∃ record, Json.read (run w linting).stdout = .ok record ∧
        record.get? "suggestion".toList = some (.string "feat: add x".toList)) ∧
      run w linting = run w' linting := by
  intro w w' linting fixing
  have hw : Supplies w none "# hint\nAdd x.\n".toList := .stdin rfl
  have hw' : Supplies w' none "Add x.".toList := .stdin rfl
  have hkept : withoutComments "# hint\nAdd x.\n".toList = "Add x.".toList := by decide +kernel
  have hfixed : fixMessage .all .default "Add x.".toList = some "feat: add x".toList := by
    decide +kernel
  have hlint : CarriedOut w linting .default "Add x.".toList :=
    hkept ▸ (run_outcome w linting).2.2.1 .default _ rfl hw
  have hfix : CarriedOut w fixing .default "Add x.".toList :=
    hkept ▸ (run_outcome w fixing).2.2.1 .default _ rfl hw
  have hprints : (run w fixing).stdout = "feat: add x\n".toList := by
    rw [(hfix.fix rfl).2]
    show (fixMessage .all .default _).getD _ ++ _ = _
    rw [hfixed]
    decide
  refine ⟨hw, hw', ?_, (hfix.fix rfl).1, hprints, ?_, ?_⟩
  · rw [hlint.lint rfl]
    decide +kernel
  · obtain ⟨record, s?, hread, hkey, hnone, hsame⟩ := hlint.suggestion rfl
    refine ⟨record, hread, ?_⟩
    cases s? with
    | none =>
      rcases hnone.mp rfl with hfine | hunfixed
      · exact absurd hfine (by decide +kernel)
      · rw [hfixed] at hunfixed
        cases hunfixed
    | some s =>
      have hs : s ++ ['\n'] = "feat: add x".toList ++ ['\n'] := (hsame s rfl).symm.trans hprints
      rw [hkey, List.append_cancel_right hs]
      rfl
  · exact (run_outcome w linting).2.2.2 w' linting _ _ rfl rfl rfl hw hw' (by decide +kernel)

end Cli

end ConventionalCommit
