import ConventionalCommit.Text.Basic

/-!
# ConventionalCommit — runs between separators

The maximal runs of a list between the elements that separate them: the
words of a text, which white space separates, and the paragraphs of a list of
lines, which blank lines separate.

* `flatten_runs`: the runs hold every element that separates nothing, in
  order, and none other;
* `ne_nil_of_mem_runs`: no run is empty.
-/

namespace ConventionalCommit

variable {α : Type}

/-- Puts an element in front of the first list, or into a first list of its
own. -/
def consHead (a : α) : List (List α) → List (List α)
  | [] => [[a]]
  | l :: ls => (a :: l) :: ls

@[simp] theorem flatten_consHead (a : α) (ls : List (List α)) :
    (consHead a ls).flatten = a :: ls.flatten := by
  cases ls <;> rfl

/-- The maximal runs of elements that are not separators, in order. -/
def runs (separates : α → Bool) : List α → List (List α)
  | [] => []
  | a :: rest =>
    if separates a then runs separates rest
    else if rest.head?.all separates then [a] :: runs separates rest
    else consHead a (runs separates rest)

/-- The runs hold the elements that are not separators, in order. So nothing but separators is lost,
and nothing is repeated. -/
theorem flatten_runs (separates : α → Bool) (l : List α) :
    (runs separates l).flatten = l.filter (fun a => !separates a) := by
  induction l with
  | nil => rfl
  | cons a rest ih =>
    simp only [runs]
    split
    · next h => simp [h, ih]
    · next h =>
      split <;> simp [h, ih]

/-- No run is empty, since each begins with the element that it was made for. -/
theorem ne_nil_of_mem_runs {separates : α → Bool} {l run : List α}
    (h : run ∈ runs separates l) : run ≠ [] := by
  induction l generalizing run with
  | nil => simp [runs] at h
  | cons a rest ih =>
    simp only [runs] at h
    split at h
    · exact ih h
    · -- the element begins a run of its own, or it is put before the first of the rest
      split at h
      · rcases List.mem_cons.mp h with rfl | h
        · exact List.cons_ne_nil _ _
        · exact ih h
      · revert h
        cases hr : runs separates rest with
        | nil =>
          intro h
          rw [consHead, List.mem_singleton] at h
          exact h ▸ List.cons_ne_nil _ _
        | cons first others =>
          intro h
          rcases List.mem_cons.mp h with rfl | h
          · exact List.cons_ne_nil _ _
          · exact ih (hr ▸ List.mem_cons_of_mem _ h)

/-- The words of a text: its runs between white space. -/
def Text.words (t : Text) : List Text := runs Unicode.isWhite t

end ConventionalCommit
