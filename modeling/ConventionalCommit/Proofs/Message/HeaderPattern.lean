import ConventionalCommit.Message.Header
import ConventionalCommit.Proofs.Text.Tight

/-!
# ConventionalCommit — the lines that the header pattern fits

What makes a line a header stands at its start: a word, a scope, a mark, a colon and
some white space (`Header.opening`). So the pattern fits a line as soon as it fits a part
from the start (`Fits.of_isPrefix`), and which word the line begins with does not matter
(`Fits.of_word`).

* `fits_iff_opening`: the pattern fits exactly the lines with an opening;
* `Fits.of_append`: an end without white space is not needed for a fit.
-/

namespace ConventionalCommit.Header

open Unicode (isWhite isWordChar)

variable {p : Header} {line line' front front' back rest : Text}

/-- A header pattern fits a line if some pieces of a header are written as it. -/
def Fits (line : Text) : Prop := ∃ p : Header, p.WellFormed ∧ p.text = line

/-- Reading fails only where the pattern does not fit. A line that fits is never taken for a plain
subject. -/
theorem read?_eq_none_iff : read? line = none ↔ ¬ Fits line := by
  constructor
  · rintro h ⟨p, hp⟩
    rw [read?_eq_some_iff.mpr hp] at h
    cases h
  · intro h
    cases hr : read? line with
    | none => rfl
    | some p => exact absurd ⟨p, read?_eq_some_iff.mp hr⟩ h

-- ---------------------------------------------------------------------------
-- The opening of a header
-- ---------------------------------------------------------------------------

/-- The part of the line that comes before the subject. -/
def opening (p : Header) : Text :=
  p.type ++ scopeText p.scope ++ markText p.marked ++ ':' :: p.gap

theorem opening_append_subject (p : Header) : p.opening ++ p.subject = p.text := by
  simp [opening, text]

theorem WellFormed.getLast?_opening (wf : p.WellFormed) :
    ∃ g, p.opening.getLast? = some g ∧ isWhite g = true := by
  have hg := List.getLast?_eq_some_getLast wf.gap_ne_nil
  refine ⟨_, ?_, wf.gap_white _ (List.mem_of_getLast? hg)⟩
  rw [opening, List.getLast?_append_of_ne_nil _ (List.cons_ne_nil _ _), ← List.singleton_append,
    List.getLast?_append_of_ne_nil _ wf.gap_ne_nil, hg]

/-- A header that does not end in white space has a subject, because otherwise it would end in the
gap. -/
theorem WellFormed.subject_ne_nil (wf : p.WellFormed)
    (hend : ∀ c ∈ p.text.getLast?, isWhite c = false) : p.subject ≠ [] := by
  intro hnil
  obtain ⟨g, hg, hwhite⟩ := wf.getLast?_opening
  have := hend g (by rw [← opening_append_subject, hnil, List.append_nil, hg]; rfl)
  rw [hwhite] at this
  cases this

theorem WellFormed.tight_subject (wf : p.WellFormed)
    (hend : ∀ c ∈ p.text.getLast?, isWhite c = false) : Text.Tight p.subject := by
  have hne := wf.subject_ne_nil hend
  refine ⟨hne, wf.subject_head, fun c hc => hend c ?_⟩
  rwa [← p.opening_append_subject, List.getLast?_append_of_ne_nil _ hne]

/-- Whatever follows an opening, the line is a header. More white space goes to the gap and the rest
is the subject. -/
theorem WellFormed.fits_opening_append (wf : p.WellFormed) (rest : Text) :
    Fits (p.opening ++ rest) := by
  refine ⟨{ p with gap := p.gap ++ rest.takeWhile isWhite, subject := rest.dropWhile isWhite },
    ?_, ?_⟩
  · exact
      { wf with
        gap_ne_nil := List.append_ne_nil_of_left_ne_nil wf.gap_ne_nil _
        gap_white := fun c hc =>
          (List.mem_append.mp hc).elim (wf.gap_white c) fun h => Text.of_mem_takeWhile h
        subject_head := fun c hc => by
          have := List.head?_dropWhile_not isWhite rest
          rw [Option.mem_def.mp hc] at this
          simpa using this }
  · simp [text, opening]

/-- The pattern fits a line exactly if the line begins with an opening. The subject may be anything,
also nothing. -/
theorem fits_iff_opening : Fits line ↔ ∃ p : Header, p.WellFormed ∧ p.opening <+: line := by
  constructor
  · rintro ⟨p, wf, rfl⟩
    exact ⟨p, wf, p.subject, p.opening_append_subject⟩
  · rintro ⟨p, wf, rest, rfl⟩
    exact wf.fits_opening_append rest

theorem Fits.of_isPrefix (h : Fits line) (hpre : line <+: line') : Fits line' := by
  obtain ⟨p, wf, hp⟩ := fits_iff_opening.mp h
  exact fits_iff_opening.mpr ⟨p, wf, hp.trans hpre⟩

/-- So a line that is no header has no header at its start, and cutting it makes none. -/
theorem read?_eq_none_of_isPrefix (hpre : line <+: line') (h : read? line' = none) :
    read? line = none :=
  read?_eq_none_iff.mpr fun hfits => read?_eq_none_iff.mp h (hfits.of_isPrefix hpre)

/-- What has no white space can be no end of an opening, since an opening ends in the gap. So it may
be taken from the end of a line that fits. -/
theorem Fits.of_append (h : Fits (front ++ back)) (hback : ∀ c ∈ back, isWhite c = false) :
    Fits front := by
  obtain ⟨p, wf, hp⟩ := fits_iff_opening.mp h
  refine fits_iff_opening.mpr ⟨p, wf, ?_⟩
  -- the opening lies within the front, or reaches into the back
  rcases List.prefix_or_prefix_of_prefix hp (List.prefix_append front back) with hpre | ⟨x, hx⟩
  · exact hpre
  · obtain ⟨g, hg, hwhite⟩ := wf.getLast?_opening
    rw [← hx] at hp hg ⊢
    have hxback : x <+: back := (List.prefix_append_right_inj front).mp hp
    cases x with
    | nil => exact (List.append_nil front).symm ▸ List.prefix_rfl
    | cons y ys =>
      rw [List.getLast?_append_of_ne_nil _ (List.cons_ne_nil y ys)] at hg
      have := hback g (hxback.subset (List.mem_of_getLast? hg))
      rw [hwhite] at this
      cases this

-- ---------------------------------------------------------------------------
-- The word at the start
-- ---------------------------------------------------------------------------

theorem Fits.head (h : Fits line) : ∃ c ∈ line.head?, isWordChar c = true := by
  obtain ⟨p, wf, rfl⟩ := h
  obtain ⟨c, tail, htype⟩ := List.exists_cons_of_ne_nil wf.type_ne_nil
  exact ⟨c, by simp [text, htype], wf.type_word c (htype ▸ List.mem_cons_self ..)⟩

/-- The type is the whole word at the start of the line, because what comes next is no word
character. -/
theorem WellFormed.type_eq (wf : p.WellFormed) : p.type = p.text.takeWhile isWordChar := by
  have hread := read?_text wf
  generalize p.text = line at *
  unfold read? at hread
  dsimp only at hread
  split at hread
  · next c cs rest htype hmark =>
    split at hread
    · cases hread
    · rw [← Option.some.inj hread, htype]
  · cases hread

/-- Another word at the start makes no difference, as long as there is one: the type is any word,
and the pattern asks nothing else of it. -/
theorem Fits.of_word (hfront : ∀ c ∈ front, isWordChar c = true) (hne : front' ≠ [])
    (hfront' : ∀ c ∈ front', isWordChar c = true) (h : Fits (front ++ rest)) :
    Fits (front' ++ rest) := by
  obtain ⟨p, wf, htext⟩ := h
  have htype := wf.type_eq
  rw [htext, List.takeWhile_append_of_pos hfront] at htype
  -- the rest begins with what is left of the type
  have hrest : rest.takeWhile isWordChar ++
      (scopeText p.scope ++ markText p.marked ++ ':' :: (p.gap ++ p.subject)) = rest := by
    rw [text, htype] at htext
    simpa using htext
  refine ⟨{ p with type := front' ++ rest.takeWhile isWordChar }, ?_, ?_⟩
  · exact
      { wf with
        type_ne_nil := List.append_ne_nil_of_left_ne_nil hne _
        type_word := fun c hc =>
          (List.mem_append.mp hc).elim (hfront' c) fun h => Text.of_mem_takeWhile h }
  · rw [text]
    conv_rhs => rw [← hrest]
    simp

end ConventionalCommit.Header
