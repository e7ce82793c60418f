import ConventionalCommit.Message.Basic
import ConventionalCommit.Proofs.Checked.Ranges
import ConventionalCommit.Proofs.Message.SectionPositions
import Mathlib.Data.List.Basic

/-!
# ConventionalCommit — finding the sections by their positions

The sections of a message as three positions in its lines (`Layout`), found by two loops and a
scan: forward over the blank lines under the header, backward over those at the end, and backward
over the last paragraph for its first trailer. The loops keep each other in range: the backward one
never passes the position where the forward one has stopped.

* `layout_eq_some`: the positions are found, and they are those of the sections;
* `layout_eq_some_iff`: so they are where the lines around them say;
* `parse_eq_some`: a message is read by way of them.
-/

namespace ConventionalCommit

open Trailer (isTrailerLine)

namespace Checked

variable {ls front mid back gap rest : List Text} {l : Text} {i n start stop found : Nat}

-- ---------------------------------------------------------------------------
-- The loops over blank lines
-- ---------------------------------------------------------------------------

/-- The first position from `i` on at which a line is not blank. -/
def skipBlank (ls : List Text) (i : Nat) : Option Nat :=
  if i < ls.length then
    match ls[i]? with
    | none => none
    | some l =>
      if l.isBlank then
        match _hnext : add i 1 with
        | none => none
        | some next => skipBlank ls next
      else some i
  else some i
termination_by ls.length - i
decreasing_by
  rw [eq_of_add _hnext]
  omega

/-- The position after the last line before `stop` that is not blank, or else `start`. -/
def skipBlankBack (ls : List Text) (start stop : Nat) : Option Nat :=
  if start < stop then
    match _hlast : sub stop 1 with
    | none => none
    | some last =>
      match ls[last]? with
      | none => none
      | some l => if l.isBlank then skipBlankBack ls start last else some stop
  else some stop
termination_by stop
decreasing_by
  have := eq_of_sub _hlast
  omega

/-- The forward loop passes a blank line. The next position must be a number, which is why the
number of lines is bounded. -/
theorem skipBlank_of_blank (hl : ls[i]? = some l) (hblank : l.isBlank = true)
    (hi : i + 1 < wordSize) : skipBlank ls i = skipBlank ls (i + 1) := by
  obtain ⟨hlt, -⟩ := List.getElem?_eq_some_iff.mp hl
  rw [skipBlank, if_pos hlt, hl]
  dsimp only
  rw [if_pos hblank]
  split
  · next hnext =>
    rw [add_eq_some hi] at hnext
    cases hnext
  · next hnext => rw [eq_of_add hnext]

/-- The forward loop stops at a line that is not blank, or behind all lines. -/
theorem skipBlank_of_not_blank (hl : ∀ l ∈ ls[i]?, l.isBlank = false) :
    skipBlank ls i = some i := by
  rw [skipBlank]
  split
  · next hlt =>
    rw [List.getElem?_eq_getElem hlt] at hl ⊢
    dsimp only
    rw [if_neg (by rw [hl _ rfl]; decide)]
  · rfl

/-- The forward loop stops behind the blank lines, at the first line with text or at the end. Each
index it looks at is in range, and the counter stays below the size of a word. -/
theorem skipBlank_append (hgap : ∀ l ∈ gap, l.isBlank = true)
    (hrest : ∀ l ∈ rest.head?, l.isBlank = false)
    (hsize : (front ++ (gap ++ rest)).length < wordSize) :
    skipBlank (front ++ (gap ++ rest)) front.length = some (front.length + gap.length) := by
  induction gap generalizing front with
  | nil =>
    refine skipBlank_of_not_blank fun l hl => hrest l ?_
    rwa [List.nil_append, List.getElem?_append_right (Nat.le_refl _), Nat.sub_self,
      ← List.head?_eq_getElem?] at hl
  | cons g gap ih =>
    have hg : (front ++ (g :: gap ++ rest))[front.length]? = some g :=
      getElem?_append_cons front g (gap ++ rest)
    have hnext : front.length + 1 < wordSize := by
      simp only [List.length_append, List.length_cons] at hsize
      omega
    rw [skipBlank_of_blank hg (hgap g (List.mem_cons_self ..)) hnext]
    -- the loop has passed one line more, and one blank line fewer is ahead
    have hrest : skipBlank (front ++ [g] ++ (gap ++ rest)) (front ++ [g]).length = some _ :=
      ih (fun l hl => hgap l (List.mem_cons_of_mem _ hl)) (by simpa using hsize)
    rw [List.append_assoc, List.length_append, List.length_singleton] at hrest
    rw [List.length_cons, Nat.add_comm gap.length, ← Nat.add_assoc]
    exact hrest

/-- The backward loop passes a blank line that does not stand before the start. -/
theorem skipBlankBack_of_blank (hstart : start ≤ n) (hl : ls[n]? = some l)
    (hblank : l.isBlank = true) : skipBlankBack ls start (n + 1) = skipBlankBack ls start n := by
  rw [skipBlankBack, if_pos (Nat.lt_succ_of_le hstart)]
  split
  · next hlast => cases hlast
  · next hlast =>
    rw [(eq_of_sub hlast).2, Nat.add_one_sub_one, hl]
    dsimp only
    rw [if_pos hblank]

/-- The backward loop stops behind a line that is not blank. It looks at the line below its
position, so the position is not zero there. -/
theorem skipBlankBack_of_not_blank (hl : ls[n]? = some l) (hblank : l.isBlank = false) :
    skipBlankBack ls start (n + 1) = some (n + 1) := by
  rw [skipBlankBack]
  split
  · split
    · next hlast => cases hlast
    · next hlast =>
      rw [(eq_of_sub hlast).2, Nat.add_one_sub_one, hl]
      dsimp only
      rw [if_neg (by rw [hblank]; decide)]
  · rfl

/-- The backward loop stops behind the last line that is not blank, and not before `start`. -/
theorem skipBlankBack_append (hmid : ∀ l ∈ mid.getLast?, l.isBlank = false)
    (hback : ∀ l ∈ back, l.isBlank = true) :
    skipBlankBack (front ++ (mid ++ (back ++ rest))) front.length
      (front.length + mid.length + back.length) = some (front.length + mid.length) := by
  induction back using List.reverseRecOn generalizing rest with
  | nil =>
    rw [List.length_nil, Nat.add_zero, List.nil_append]
    -- with no lines in between, the loop ends because it has reached the start
    rcases List.eq_nil_or_concat mid with rfl | ⟨init, l, rfl⟩
    · rw [List.length_nil, Nat.add_zero, skipBlankBack, if_neg (Nat.lt_irrefl _)]
    · rw [List.concat_eq_append, List.length_append, List.length_singleton, ← Nat.add_assoc]
      refine skipBlankBack_of_not_blank (l := l) ?_ (hmid l (by simp))
      rw [List.append_assoc, ← List.append_assoc front, ← List.length_append]
      exact getElem?_append_cons ..
  | append_singleton back l ih =>
    have hl : (front ++ (mid ++ (back ++ [l] ++ rest)))[front.length + mid.length + back.length]? =
        some l := by
      rw [List.append_assoc back, ← List.append_assoc mid, ← List.append_assoc front,
        Nat.add_assoc, ← List.length_append, ← List.length_append]
      exact getElem?_append_cons ..
    rw [List.length_append, List.length_singleton, ← Nat.add_assoc,
      skipBlankBack_of_blank (by omega) hl (hback l (by simp)), List.append_assoc back]
    exact ih fun l hl => hback l (List.mem_append_left _ hl)

-- ---------------------------------------------------------------------------
-- The scan for the first trailer
-- ---------------------------------------------------------------------------

/-- The position of the last trailer that is met before a blank line, or else the one found so
far. -/
def lastTrailer (found : Nat) : List (Text × Nat) → Nat
  | [] => found
  | (l, i) :: rest =>
    if l.isBlank then found else lastTrailer (if isTrailerLine l then i else found) rest

/-- The scan goes on behind lines that are not blank with what it has found there. -/
theorem lastTrailer_append {xs : List (Text × Nat)} (h : ∀ p ∈ xs, p.1.isBlank = false)
    (ys : List (Text × Nat)) :
    lastTrailer found (xs ++ ys) = lastTrailer (lastTrailer found xs) ys := by
  induction xs generalizing found with
  | nil => rfl
  | cons p xs ih =>
    obtain ⟨l, i⟩ := p
    have hl : l.isBlank = false := h _ (List.mem_cons_self ..)
    rw [List.cons_append, lastTrailer, lastTrailer, hl, if_neg Bool.false_ne_true,
      if_neg Bool.false_ne_true, ih fun p hp => h p (List.mem_cons_of_mem _ hp)]

/-- Lines that are neither blank nor trailers change nothing that has been found. -/
theorem lastTrailer_of_no_trailer {xs : List (Text × Nat)}
    (h : ∀ p ∈ xs, p.1.isBlank = false ∧ isTrailerLine p.1 = false) :
    lastTrailer found xs = found := by
  induction xs with
  | nil => rfl
  | cons p xs ih =>
    obtain ⟨l, i⟩ := p
    obtain ⟨hl, htrailer⟩ := h _ (List.mem_cons_self ..)
    rw [lastTrailer, hl, htrailer, if_neg Bool.false_ne_true, if_neg Bool.false_ne_true,
      ih fun p hp => h p (List.mem_cons_of_mem _ hp)]

/-- A blank line ends the scan, and so does the end of the lines. -/
theorem lastTrailer_of_blank {xs : List (Text × Nat)}
    (h : ∀ p ∈ xs.head?, p.1.isBlank = true) : lastTrailer found xs = found := by
  cases xs with
  | nil => rfl
  | cons p xs =>
    obtain ⟨l, i⟩ := p
    rw [lastTrailer, if_pos (h _ rfl)]

theorem fst_mem_of_mem_reverse_zipIdx {p : Text × Nat} (h : p ∈ (ls.zipIdx n).reverse) :
    p.1 ∈ ls := List.fst_mem_of_mem_zipIdx (List.mem_reverse.mp h)

/-- From the end of the last paragraph, the scan finds where the footer begins. It goes upwards and
keeps the last trailer it has seen, which is the first one of the paragraph. -/
theorem lastTrailer_reverse_zipIdx (h : Sections.footerOf ls ≠ []) :
    lastTrailer found (ls.zipIdx n).reverse = n + (Sections.beforeFooter ls).length := by
  obtain ⟨front, part, hbefore, hfront, hpart⟩ := Sections.exists_beforeFooter h
  have hblank : ∀ l ∈ Sections.footerOf ls, l.isBlank = false :=
    fun l => Sections.isBlank_of_mem_footerOf
  have hends := (Sections.footerOf_ends h).1
  have hls := Sections.beforeFooter_append_footerOf ls
  generalize Sections.footerOf ls = footer at *
  generalize Sections.beforeFooter ls = before at *
  obtain ⟨first, others, rfl⟩ := List.exists_cons_of_ne_nil h
  have hfirst : isTrailerLine first = true := hends
  subst hbefore hls
  rw [List.zipIdx_append, List.zipIdx_append, List.zipIdx_cons, List.reverse_append,
    List.reverse_append, List.reverse_cons]
  -- the lines after the first of the footer are passed with whatever trailers they have
  rw [List.append_assoc, lastTrailer_append fun p hp =>
    hblank _ (List.mem_cons_of_mem _ (fst_mem_of_mem_reverse_zipIdx hp))]
  rw [List.singleton_append, lastTrailer, hblank first (List.mem_cons_self ..),
    if_neg Bool.false_ne_true, if_pos hfirst]
  -- above the footer there is no trailer up to the blank line that ends the scan
  rw [lastTrailer_append fun p hp => (hpart _ (fst_mem_of_mem_reverse_zipIdx hp)).1,
    lastTrailer_of_no_trailer fun p hp => hpart _ (fst_mem_of_mem_reverse_zipIdx hp),
    lastTrailer_of_blank]
  intro p hp
  rw [List.head?_reverse] at hp
  refine hfront p.1 ?_
  rw [← List.zipIdx_map_fst n front, List.getLast?_map, Option.mem_def.mp hp]
  rfl

-- ---------------------------------------------------------------------------
-- The positions of the sections
-- ---------------------------------------------------------------------------

/-- The positions of the sections in the lines of a message. -/
structure Layout where
  /-- The first line under the header that is not blank. -/
  bodyStart : Nat
  /-- The first line of the footer, or the end of the body without a footer. -/
  footerStart : Nat
  /-- The position after the last line that is not blank. -/
  stop : Nat
deriving DecidableEq, Repr

/-- Finds the first line of the footer in the lines from `start` up to `stop`, which is at `stop` if
the last of them is no trailer. -/
def footerStart (ls : List Text) (start stop : Nat) : Option Nat :=
  if start < stop then do
    let last ← ls[← sub stop 1]?
    if isTrailerLine last then
      some (lastTrailer stop ((ls.zipIdx.take stop).drop start).reverse)
    else some stop
  else some stop

/-- Finds the sections in the lines of a message. -/
def layout (ls : List Text) : Option Layout := do
  let bodyStart ← skipBlank ls (min 1 ls.length)
  let stop ← skipBlankBack ls bodyStart ls.length
  let footerStart ← footerStart ls bodyStart stop
  return ⟨bodyStart, footerStart, stop⟩

/-- The positions of sections. -/
def Layout.ofSections (s : Sections) : Layout := ⟨s.bodyStart, s.footerStart, s.stop⟩

/-- The footer starts where the lines before it end, counted in the whole list. Without a footer
that is the end of the part that is searched. -/
theorem footerStart_append (front mid back : List Text) :
    footerStart (front ++ (mid ++ back)) front.length (front.length + mid.length) =
      some (front.length + (Sections.beforeFooter mid).length) := by
  have hnone : Sections.footerOf mid = [] → Sections.beforeFooter mid = mid := fun h => by
    have hmid := Sections.beforeFooter_append_footerOf mid
    rwa [h, List.append_nil] at hmid
  rcases List.eq_nil_or_concat mid with rfl | ⟨init, l, hmid⟩
  · rw [footerStart, List.length_nil, Nat.add_zero, if_neg (Nat.lt_irrefl _)]
    rfl
  · rw [List.concat_eq_append] at hmid
    have hlength : front.length + mid.length = front.length + init.length + 1 := by
      rw [hmid, List.length_append, List.length_singleton, Nat.add_assoc]
    -- the index the search looks at first is that of the last line of `mid`
    have hlast : (front ++ (mid ++ back))[front.length + init.length]? = some l := by
      rw [hmid, List.append_assoc, ← List.append_assoc front, ← List.length_append]
      exact getElem?_append_cons ..
    have hany : mid.getLast?.any isTrailerLine = isTrailerLine l := by
      rw [hmid, List.getLast?_concat]
      rfl
    rw [footerStart, if_pos (by omega), hlength, sub_eq_some (Nat.le_add_left _ _),
      Nat.add_one_sub_one]
    simp only [Option.bind_eq_bind, Option.bind_some, hlast]
    split
    · next htrailer =>
      have hfooter : Sections.footerOf mid ≠ [] := fun h => by
        rw [Sections.footerOf_eq_nil_iff, hany, htrailer] at h
        cases h
      -- the slice of numbered lines that is searched is `mid`, numbered from its place
      have hzip := drop_take_append (front.zipIdx 0) (mid.zipIdx front.length)
        (back.zipIdx (front.length + mid.length))
      rw [List.length_zipIdx, List.length_zipIdx] at hzip
      rw [← hlength, List.zipIdx_append, List.zipIdx_append, Nat.zero_add, hzip,
        lastTrailer_reverse_zipIdx hfooter]
    · next htrailer =>
      rw [hnone (Sections.footerOf_eq_nil (by rw [hany]; simpa using htrailer)), hlength]

/-- The positions in lines that are put together from their parts: under the header and the gap the
body begins, and the scans from the end see only what is blank or part of the middle. -/
theorem layout_of_append {header gap mid back : List Text}
    (hlines : header ++ (gap ++ (mid ++ back)) = ls) (hheader : header.length = min 1 ls.length)
    (hgap : ∀ l ∈ gap, l.isBlank = true) (hhead : ∀ l ∈ (mid ++ back).head?, l.isBlank = false)
    (hlast : ∀ l ∈ mid.getLast?, l.isBlank = false) (hback : ∀ l ∈ back, l.isBlank = true)
    (hsize : ls.length < wordSize) :
    layout ls = some ⟨header.length + gap.length,
      header.length + gap.length + (Sections.beforeFooter mid).length,
      header.length + gap.length + mid.length⟩ := by
  subst hlines
  have hlength : (header ++ (gap ++ (mid ++ back))).length =
      (header ++ gap).length + mid.length + back.length := by
    simp only [List.length_append]
    omega
  -- from the end back over the blank lines
  have hstop : skipBlankBack (header ++ gap ++ (mid ++ (back ++ []))) (header ++ gap).length
      ((header ++ gap).length + mid.length + back.length) = some _ :=
    skipBlankBack_append hlast hback
  -- and up from there to the footer's first line
  have hfooter := footerStart_append (header ++ gap) mid back
  rw [layout, ← hheader, skipBlank_append hgap hhead hsize, hlength]
  rw [List.append_nil] at hstop
  rw [List.append_assoc, List.length_append] at hstop hfooter
  simp only [Option.bind_eq_bind, Option.bind_some, List.length_append, hstop, hfooter]
  rfl

/-- The positions are found in any lines, and they are those of the sections. -/
theorem layout_eq_some (hsize : ls.length < wordSize) :
    layout ls = some (.ofSections (.ofLines ls)) := by
  rw [layout_of_append (Sections.append_core ls) List.length_take
    (fun _ => Sections.isBlank_of_mem_gap) (fun _ => Sections.isBlank_head_content)
    (Sections.isBlank_getLast_core _) (fun _ => Sections.isBlank_of_mem_trailing) hsize,
    Layout.ofSections, Sections.stop_eq]
  rfl

/-- The loops find the positions that are described by the lines around them. -/
theorem layout_eq_some_iff {place : Layout} (hsize : ls.length < wordSize) :
    layout ls = some place ↔
      Sections.Placed ls place.bodyStart place.footerStart place.stop := by
  have hplaced := Sections.placed_ofLines ls
  rw [layout_eq_some hsize, Option.some.injEq]
  constructor
  · rintro rfl
    exact hplaced
  · intro h
    obtain ⟨hbody, hfooter, hstop⟩ := hplaced.unique h
    rw [Layout.ofSections, hbody, hfooter, hstop]

-- ---------------------------------------------------------------------------
-- Reading a message
-- ---------------------------------------------------------------------------

/-- The text of the lines from one position up to another, unless it is blank. -/
def sectionText (ls : List Text) (start stop : Nat) : Option (Option Text) :=
  if stop ≤ start then some none
  else (slice ls start stop).map fun part => Text.trimmed? (Text.unlines part)

/-- Reads a message by the positions of its sections. -/
def parse (raw : Text) : Option Message := do
  let ls := raw.lines
  let header := ls.head?.getD []
  let place ← layout ls
  let body ← sectionText ls place.bodyStart place.footerStart
  let footer ← sectionText ls place.footerStart place.stop
  let fields := Header.read? header
  let marked := fields.any (·.marked)
  return {
    header
    type := fields.map (·.type)
    scope := fields.bind fun h => h.scope.bind Text.trimmed?
    subject := match fields with
      | some h => Text.trimmed? h.subject
      | none => Text.trimmed? header
    body
    footer
    isBreaking := marked || footer.any Trailer.footerBreaks
    marked
    raw }

/-- The text of a part is read from its two positions. An empty part has no text, and no slice is
taken for it. -/
theorem sectionText_append (front part back : List Text) :
    sectionText (front ++ (part ++ back)) front.length (front.length + part.length) =
      some (Text.trimmed? (Text.unlines part)) := by
  rw [sectionText]
  split
  · next hle =>
    obtain rfl : part = [] := List.eq_nil_of_length_eq_zero (by omega)
    rfl
  · rw [slice_append, Option.map_some]

/-- Every message is read, as it is read without positions. The slices at the positions that were
found are the sections, so no slice is out of range. -/
theorem parse_eq_some {raw : Text} (hsize : raw.lines.length < wordSize) :
    parse raw = some (Message.parse raw) := by
  have hlines := Sections.append_eq raw.lines
  have hheader : (Sections.ofLines raw.lines).header.flatten = raw.lines.head?.getD [] := by
    show (raw.lines.take 1).flatten = _
    cases raw.lines with
    | nil => rfl
    | cons l rest => simp
  generalize hs : Sections.ofLines raw.lines = s at hlines hheader
  -- each section is a part of the lines, with the parts around it known
  have hbody : sectionText raw.lines s.bodyStart s.footerStart =
      some (Text.trimmed? (Text.unlines s.body)) := by
    have hpart := sectionText_append (s.header ++ s.gap) s.body (s.footer ++ s.trailing)
    rwa [List.append_assoc, hlines, List.length_append] at hpart
  have hfooter : sectionText raw.lines s.footerStart s.stop =
      some (Text.trimmed? (Text.unlines s.footer)) := by
    have hpart := sectionText_append (s.header ++ (s.gap ++ s.body)) s.footer s.trailing
    rw [List.append_assoc, List.append_assoc, hlines, List.length_append, List.length_append,
      ← Nat.add_assoc] at hpart
    exact hpart
  rw [parse, layout_eq_some hsize, hs]
  simp only [Option.bind_eq_bind, Option.bind_some, Layout.ofSections, hbody, hfooter]
  rw [Message.parse, hs, hheader]
  rfl

end Checked

end ConventionalCommit
