import ConventionalCommit.Text.Basic
import Mathlib.Data.List.Basic
import Mathlib.Data.List.Infix
import Mathlib.Data.List.TakeWhile

/-!
# ConventionalCommit — tight texts

A text is tight if it is nonempty and has no white space at its two ends.
Trimming yields tight texts and nothing else, and keeps those that are tight.

* `trimmed?_eq_none_iff_isBlank`: nothing is left of the blank texts only;
* `Tight.of_trimmed?`, `Tight.trimmed?_eq`: what trimming leaves is tight, and
  what is tight it leaves;
* `Tight.trimmed?_surround`: white space around a tight text goes.
-/

namespace ConventionalCommit.Text

open Unicode (isWhite)

/-- Nonempty and without white space at either end. -/
structure Tight (t : Text) : Prop where
  ne_nil : t ≠ []
  head : ∀ c ∈ t.head?, isWhite c = false
  last : ∀ c ∈ t.getLast?, isWhite c = false

variable {t u v : Text}

-- ---------------------------------------------------------------------------
-- Blank texts
-- ---------------------------------------------------------------------------

theorem isBlank_iff : isBlank t = true ↔ ∀ c ∈ t, isWhite c = true := List.all_eq_true

@[simp] theorem isBlank_append : isBlank (t ++ u) = (isBlank t && isBlank u) := List.all_append

/-- Being blank is a check of all characters, so a single one that shows decides against it. -/
theorem isBlank_eq_false_iff : isBlank t = false ↔ ∃ c ∈ t, isWhite c = false := by
  rw [← Bool.not_eq_true, isBlank_iff]
  simp

theorem isBlank_eq_false_of_mem {c : Char} (hc : c ∈ t) (hw : isWhite c = false) :
    isBlank t = false :=
  isBlank_eq_false_iff.mpr ⟨c, hc, hw⟩

/-- A text that begins with a character other than white space is not blank. -/
theorem isBlank_eq_false_of_head (hne : t ≠ []) (h : ∀ c ∈ t.head?, isWhite c = false) :
    isBlank t = false := by
  obtain ⟨c, rest, rfl⟩ := List.exists_cons_of_ne_nil hne
  exact isBlank_eq_false_of_mem (List.mem_cons_self ..) (h c rfl)

/-- The same for the last character. Both forms are needed, because some texts are known only at one
of their ends. -/
theorem isBlank_eq_false_of_last (hne : t ≠ []) (h : ∀ c ∈ t.getLast?, isWhite c = false) :
    isBlank t = false := by
  obtain ⟨front, c, rfl⟩ := List.eq_nil_or_concat' t |>.resolve_left hne
  exact isBlank_eq_false_of_mem (by simp) (h c List.getLast?_concat)

theorem Tight.isBlank_eq_false (h : Tight t) : isBlank t = false :=
  isBlank_eq_false_of_head h.ne_nil h.head

-- ---------------------------------------------------------------------------
-- One end at a time
-- ---------------------------------------------------------------------------

/-- Trimming at the start stops at the first character that shows, here at once. The empty text
satisfies the condition as well and is kept like any other. -/
theorem trimStart_eq_self (h : ∀ c ∈ t.head?, isWhite c = false) : trimStart t = t := by
  cases t with
  | nil => rfl
  | cons c rest => exact List.dropWhile_cons_of_neg (by simp [h c rfl])

/-- What is left after trimming at the start does not begin with white space, however much of it
there was. -/
theorem isWhite_head_trimStart : ∀ c ∈ (trimStart t).head?, isWhite c = false := by
  intro c hc
  have := List.head?_dropWhile_not isWhite t
  rw [trimStart, Option.mem_def] at hc
  rw [hc] at this
  simpa using this

/-- The end is trimmed by reversing the text twice, so this is the fact about the start, read
backwards. -/
theorem isWhite_last_trimEnd : ∀ c ∈ (trimEnd t).getLast?, isWhite c = false := by
  intro c hc
  rw [trimEnd, List.getLast?_reverse] at hc
  exact isWhite_head_trimStart (t := t.reverse) c hc

theorem trimEnd_isPrefix (t : Text) : trimEnd t <+: t := ⟨_, trimEnd_append_spaces t⟩

theorem trimStart_isSuffix (t : Text) : trimStart t <:+ t := ⟨_, trimStart_append_spaces t⟩

/-- White space at the end goes, whatever stands in front of it. -/
theorem trimEnd_append (h : ∀ c ∈ t.getLast?, isWhite c = false) (hu : isBlank u = true) :
    trimEnd (t ++ u) = t := by
  have hback : ∀ c ∈ u.reverse, isWhite c = true := fun c hc =>
    isBlank_iff.mp hu c (List.mem_reverse.mp hc)
  have hfront : ∀ c ∈ t.reverse.head?, isWhite c = false := fun c hc =>
    h c (by rwa [List.head?_reverse] at hc)
  rw [trimEnd, List.reverse_append, dropWhile_append_of_head hback hfront, List.reverse_reverse]

-- ---------------------------------------------------------------------------
-- Both ends
-- ---------------------------------------------------------------------------

theorem trim_isInfix (t : Text) : trim t <:+: t :=
  (trimEnd_isPrefix _).isInfix.trans (trimStart_isSuffix t).isInfix

/-- Trimming leaves nothing of a blank text, and only of one. From left to right, a character that
shows would survive the trimming of the start, and whatever then comes first cannot be trimmed at
the end. -/
theorem trim_eq_nil_iff : trim t = [] ↔ isBlank t = true := by
  rw [isBlank_iff]
  constructor
  · intro h c hc
    by_contra hw
    have hstart : trimStart t ≠ [] := fun hnil => by
      rw [trimStart, List.dropWhile_eq_nil_iff] at hnil
      exact hw (hnil c hc)
    -- `d` is the first character that is left, so it shows
    obtain ⟨d, rest, hd⟩ := List.exists_cons_of_ne_nil hstart
    have hwd : isWhite d = false := isWhite_head_trimStart (t := t) d (by rw [hd]; rfl)
    have hsplit := trimEnd_append_spaces (trimStart t)
    rw [← trim, h, List.nil_append] at hsplit
    -- yet it is among the white space that the end loses, since all of the text goes
    have hmem : d ∈ ((trimStart t).reverse.takeWhile isWhite).reverse := by
      rw [hsplit, hd]
      exact List.mem_cons_self ..
    rw [of_mem_takeWhile (List.mem_reverse.mp hmem)] at hwd
    cases hwd
  · intro h
    have hstart : trimStart t = [] := List.dropWhile_eq_nil_iff.mpr h
    rw [trim, hstart]
    rfl

theorem trimmed?_eq_none_iff_isBlank : trimmed? t = none ↔ isBlank t = true :=
  trimmed?_eq_none_iff.trans trim_eq_nil_iff

/-- What trimming leaves is tight. -/
theorem Tight.of_trimmed? (h : trimmed? t = some u) : Tight u := by
  obtain ⟨rfl, hne⟩ := trimmed?_eq_some_iff.mp h
  refine ⟨hne, fun c hc => ?_, isWhite_last_trimEnd⟩
  -- the first character that is left is the first one of `trimStart t`
  obtain ⟨rest, hrest⟩ := trimEnd_isPrefix (trimStart t)
  apply isWhite_head_trimStart (t := t) c
  rw [← hrest, ← trim, List.head?_append_of_ne_nil _ hne]
  exact hc

theorem infix_of_trimmed? (h : trimmed? t = some u) : u <:+: t := by
  obtain ⟨rfl, _⟩ := trimmed?_eq_some_iff.mp h
  exact trim_isInfix t

/-- White space around a tight text goes. -/
theorem Tight.trimmed?_surround (h : Tight t) (hv : isBlank v = true) (hu : isBlank u = true) :
    trimmed? (v ++ t ++ u) = some t := by
  have hhead : ∀ c ∈ (t ++ u).head?, isWhite c = false := fun c hc =>
    h.head c (by rwa [List.head?_append_of_ne_nil _ h.ne_nil] at hc)
  -- the start first: the white space goes up to the tight part, which stops it
  have hstart : trimStart (v ++ (t ++ u)) = t ++ u :=
    dropWhile_append_of_head (isBlank_iff.mp hv) hhead
  rw [trimmed?_eq_some_iff, trim, List.append_assoc, hstart, trimEnd_append h.last hu]
  exact ⟨rfl, h.ne_nil⟩

/-- What trimming takes away is white space at the two ends, and with it the text can be put
together again. -/
theorem exists_of_trimmed? (h : trimmed? t = some u) :
    ∃ front back, t = front ++ u ++ back ∧ isBlank front = true ∧ isBlank back = true := by
  refine ⟨t.takeWhile isWhite, ((trimStart t).reverse.takeWhile isWhite).reverse, ?_,
    isBlank_iff.mpr fun c hc => of_mem_takeWhile hc,
    isBlank_iff.mpr fun c hc => of_mem_takeWhile (List.mem_reverse.mp hc)⟩
  -- each side is put back in turn, the end first because it was trimmed last
  rw [← (trimmed?_eq_some_iff.mp h).1, trim, List.append_assoc, trimEnd_append_spaces,
    trimStart_append_spaces]

/-- White space at the end makes no difference to what is left of a text. -/
theorem trimmed?_append_of_isBlank (t : Text) (hu : isBlank u = true) :
    trimmed? (t ++ u) = trimmed? t := by
  cases h : trimmed? t with
  | none =>
    rw [trimmed?_eq_none_iff_isBlank] at h ⊢
    rw [isBlank_append, h, hu]
    rfl
  | some v =>
    obtain ⟨front, back, rfl, hfront, hback⟩ := exists_of_trimmed? h
    rw [List.append_assoc]
    -- the new white space joins what was trimmed at the end anyway
    exact (Tight.of_trimmed? h).trimmed?_surround hfront (by rw [isBlank_append, hback, hu]; rfl)

theorem Tight.trimmed?_eq (h : Tight t) : trimmed? t = some t := by
  have hsurround := h.trimmed?_surround (v := []) (u := []) rfl rfl
  rwa [List.nil_append, List.append_nil] at hsurround

/-- The end of a text that begins without white space is all that is trimmed. -/
theorem trimmed?_eq_trimEnd (h : ∀ c ∈ t.head?, isWhite c = false) (hu : trimmed? t = some u) :
    trimEnd t = u := by
  rw [← (trimmed?_eq_some_iff.mp hu).1, trim, trimStart_eq_self h]

/-- A text that begins without white space is what trimming leaves and white space after it. -/
theorem exists_append_of_trimmed? (h : ∀ c ∈ t.head?, isWhite c = false)
    (hu : trimmed? t = some u) : ∃ back, t = u ++ back ∧ isBlank back = true := by
  have hsplit := trimEnd_append_spaces t
  rw [trimmed?_eq_trimEnd h hu] at hsplit
  exact ⟨_, hsplit.symm, isBlank_iff.mpr fun c hc => of_mem_takeWhile (List.mem_reverse.mp hc)⟩

theorem Tight.append (ht : Tight t) (hu : Tight u) (v : Text) : Tight (t ++ v ++ u) where
  ne_nil := by simp [ht.ne_nil]
  head := fun c hc => ht.head c (by
    rwa [List.append_assoc, List.head?_append_of_ne_nil _ ht.ne_nil] at hc)
  last := fun c hc => hu.last c (by rwa [List.getLast?_append_of_ne_nil _ hu.ne_nil] at hc)

/-- After a tight text, only the end of a text that begins without white space is trimmed. -/
theorem Tight.trimmed?_append (ht : Tight t) (h : ∀ c ∈ u.head?, isWhite c = false)
    {x : Text} (hx : trimmed? u = some x) (v : Text) :
    trimmed? (t ++ v ++ u) = some (t ++ v ++ x) := by
  obtain ⟨back, rfl, hback⟩ := exists_append_of_trimmed? h hx
  rw [← List.append_assoc, trimmed?_append_of_isBlank _ hback,
    (ht.append (Tight.of_trimmed? hx) v).trimmed?_eq]

end ConventionalCommit.Text
