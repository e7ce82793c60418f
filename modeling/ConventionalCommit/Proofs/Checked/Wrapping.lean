import ConventionalCommit.Proofs.Checked.Ranges
import ConventionalCommit.Proofs.Text.Wrapping

/-!
# ConventionalCommit — wrapping by positions

Wrapping as loops over the characters of a word and over the words of a line. A word is cut where
the number of its characters so far is a multiple of the room, which must not be zero: the
indentation is dropped if it leaves no room, and the width is one at least. The length of the
current row is counted, and the count stays in range since the tokens of a line, with a space for
each, are no longer than twice the line.

* `cutWord_eq_some`: a word is cut between its characters;
* `wrap_eq_some`: a text is wrapped, at any width.
-/

namespace ConventionalCommit.Checked

open Json (byteLength)
open Text (chunks chunksAfter chunks_eq chunksAfter_eq fill fillAfter indent spaced tokens)
open Unicode (isWhite)

variable {n room width count : Nat} {line margin word cut done rest start t : Text}
  {ts : List Text}

-- ---------------------------------------------------------------------------
-- Cutting a word
-- ---------------------------------------------------------------------------

/-- Whether a piece of a word ends after so many characters of it. -/
def endsPiece (n count : Nat) : Option Bool :=
  if 0 < count then (rem count n).map (· == 0) else some false

/-- Cuts what is left of a word into pieces of `n` characters, where the current piece starts at a
byte position and so many characters and bytes of the word are passed. -/
def cutRest (n : Nat) (word : Text) (start count bytes : Nat) : Text → Option (List Text)
  | [] => do return [← textFrom word start]
  | c :: rest => do
    if ← endsPiece n count then
      let piece ← textSlice word start bytes
      let pieces ← cutRest n word bytes (count + 1) (bytes + c.utf8Size) rest
      return piece :: pieces
    else cutRest n word start (count + 1) (bytes + c.utf8Size) rest

/-- Cuts a word into pieces of `n` characters. -/
def cutWord (n : Nat) (word : Text) : Option (List Text) := cutRest n word 0 0 0 word

/-- The remainder is taken by a room that is not zero. At the start of a word no piece ends,
although zero is a multiple. -/
theorem endsPiece_eq_some (hn : n ≠ 0) :
    endsPiece n count = some (decide (0 < count ∧ count % n = 0)) := by
  rw [endsPiece, rem_eq_some hn]
  split
  · next hpos =>
    simp only [hpos, true_and]
    rfl
  · next hpos => simp [hpos]

/-- The pieces before the current one are full, and the current one is not empty unless the word
begins with it. -/
theorem cutRest_eq_some (hn : n ≠ 0) (hdone : done.length % n = 0) (hcut : cut.length ≤ n)
    (hstart : cut = [] → done = []) :
    cutRest n (done ++ (cut ++ rest)) (byteLength done) (done.length + cut.length)
      (byteLength done + byteLength cut) rest = some (chunksAfter n n (cut ++ rest)) := by
  induction rest generalizing done cut with
  | nil =>
    rw [cutRest, textFrom_append, List.append_nil, chunksAfter_eq hn, if_pos hcut]
    rfl
  | cons c rest ih =>
    rw [cutRest, endsPiece_eq_some hn]
    simp only [Option.bind_eq_bind, Option.bind_some]
    by_cases hfull : cut.length = n
    · have hends : 0 < done.length + cut.length ∧ (done.length + cut.length) % n = 0 := by
        rw [hfull, Nat.add_mod_right]
        exact ⟨by omega, hdone⟩
      have hpieces : cutRest n (done ++ cut ++ ([c] ++ rest)) (byteLength (done ++ cut))
          ((done ++ cut).length + 1) (byteLength (done ++ cut) + c.utf8Size) rest =
          some (chunksAfter n n ([c] ++ rest)) :=
        ih (by rwa [List.length_append, hfull, Nat.add_mod_right])
          (by rw [List.length_singleton]; omega) nofun
      rw [List.append_assoc, byteLength_append, List.length_append] at hpieces
      -- the piece is full and a character more is left
      have hlong : ¬ (cut ++ c :: rest).length ≤ n := by
        rw [List.length_append, List.length_cons]
        omega
      rw [if_pos (decide_eq_true hends), textSlice_append, chunksAfter_eq hn, if_neg hlong,
        List.take_left' hfull, List.drop_left' hfull]
      rw [List.singleton_append] at hpieces
      simp only [Option.bind_some, hpieces]
      rfl
    · have hends : ¬ (0 < done.length + cut.length ∧ (done.length + cut.length) % n = 0) := by
        rintro ⟨hpos, hmod⟩
        rw [Nat.add_mod, hdone, Nat.zero_add, Nat.mod_mod, Nat.mod_eq_of_lt (by omega),
          List.length_eq_zero_iff] at hmod
        rw [hmod, hstart hmod] at hpos
        exact Nat.lt_irrefl 0 hpos
      have hpieces : cutRest n (done ++ (cut ++ [c] ++ rest)) (byteLength done)
          (done.length + (cut ++ [c]).length) (byteLength done + byteLength (cut ++ [c])) rest =
          some (chunksAfter n n (cut ++ [c] ++ rest)) :=
        ih hdone (by rw [List.length_append, List.length_singleton]; omega) (by simp)
      rw [List.append_assoc, List.length_append, byteLength_append, ← Nat.add_assoc,
        ← Nat.add_assoc] at hpieces
      rw [if_neg (by simpa using hends)]
      exact hpieces

theorem cutWord_eq_some (hn : n ≠ 0) (word : Text) : cutWord n word = some (chunks n word) := by
  have hcut : cutRest n ([] ++ ([] ++ word)) (byteLength []) (([] : Text).length + 0)
      (byteLength [] + byteLength []) word = some (chunksAfter n n ([] ++ word)) :=
    cutRest_eq_some hn (Nat.zero_mod n) (Nat.zero_le n) fun _ => rfl
  rw [chunks, if_neg hn]
  exact hcut

-- ---------------------------------------------------------------------------
-- Filling rows
-- ---------------------------------------------------------------------------

/-- Rows that are filled one after the other. -/
structure Filling where
  /-- The rows that are closed. -/
  rows : List Text
  /-- What stands on the open row, behind the margin. -/
  current : Text
  /-- The length of that, which is zero as long as there is no open row. -/
  used : Nat

/-- Puts a piece of a word on the open row, or on a new one if it does not fit. -/
def addPiece (margin : Text) (room : Nat) (f : Filling) (piece : Text) : Option Filling :=
  if f.used = 0 then some ⟨f.rows, f.current ++ piece, piece.length⟩
  else do
    let wanted ← add (← add f.used 1) piece.length
    if wanted ≤ room then
      let used ← add f.used (← add 1 piece.length)
      return ⟨f.rows, f.current ++ ' ' :: piece, used⟩
    else return ⟨f.rows ++ [margin ++ f.current], piece, piece.length⟩

/-- Puts the pieces of a word on rows. -/
def addWord (margin : Text) (room : Nat) (f : Filling) (word : Text) : Option Filling := do
  (← cutWord room word).foldlM (addPiece margin room) f

/-- The rows in the end. -/
def Filling.close (margin : Text) (f : Filling) : List Text :=
  if 0 < f.used then f.rows ++ [margin ++ f.current] else f.rows

/-- The white space in front of a line, unless it takes the whole width. -/
def marginOf (width : Nat) (line : Text) : Option Text := do
  let spaces ← textTo line (← sub (byteLength line) (byteLength line.trimStart))
  return if width ≤ spaces.length then [] else spaces

/-- A long line as rows that begin with its margin. -/
def fillLine (width : Nat) (line : Text) : Option (List Text) := do
  let margin ← marginOf width line
  let room ← sub width margin.length
  let filled ← line.trimStart.words.foldlM (addWord margin room) ⟨[], [], 0⟩
  return filled.close margin

/-- Word by word is piece by piece, so what is proved of pieces holds however the words are cut. -/
theorem foldlM_addWord (hroom : room ≠ 0) (words : List Text) (f : Filling) :
    words.foldlM (addWord margin room) f =
      (words.flatMap (chunks room)).foldlM (addPiece margin room) f := by
  induction words generalizing f with
  | nil => rfl
  | cons word words ih =>
    rw [List.foldlM_cons, List.flatMap_cons, List.foldlM_append, addWord, cutWord_eq_some hroom]
    exact congrArg _ (funext ih)

/-- The length of a list of tokens with a space for each. -/
def spacedLength : List Text → Nat
  | [] => 0
  | t :: ts => t.length + 1 + spacedLength ts

/-- Each token has a character, so the spaces are no more than the characters. That keeps the count
in range. -/
theorem spacedLength_le (hts : ∀ t ∈ ts, t ≠ []) : spacedLength ts ≤ 2 * ts.flatten.length := by
  induction ts with
  | nil => exact Nat.le_refl 0
  | cons t ts ih =>
    have ht := List.length_pos_iff.mpr (hts t (List.mem_cons_self ..))
    have hrest := ih fun u hu => hts u (List.mem_cons_of_mem _ hu)
    rw [spacedLength, List.flatten_cons, List.length_append]
    omega

section

variable (rows : List Text) (hstart : start ≠ [])
  (hsize : start.length + 1 + t.length < wordSize)

include hstart hsize

/-- A piece that fits goes on the open row, behind a space. Three sums are taken, and none is larger
than the length of the row. -/
theorem addPiece_of_fits (hfits : start.length + 1 + t.length ≤ room) :
    addPiece margin room ⟨rows, start, start.length⟩ t =
      some ⟨rows, start ++ ' ' :: t, (start ++ ' ' :: t).length⟩ := by
  have hpos := List.length_pos_iff.mpr hstart
  have hlength : start.length + (1 + t.length) = (start ++ ' ' :: t).length := by
    rw [Text.length_append_space, Nat.add_assoc]
  rw [addPiece, if_neg (Nat.pos_iff_ne_zero.mp hpos)]
  dsimp only
  rw [add_eq_some (by omega), add_eq_some (by omega), ← hlength]
  simp only [Option.bind_eq_bind, Option.bind_some]
  rw [add_eq_some hsize, Option.bind_some, if_pos hfits, add_eq_some (by omega)]
  rfl

/-- Another piece closes the row and opens the next one, where it fits, because no piece is longer
than the room. -/
theorem addPiece_of_full (hfull : ¬ start.length + 1 + t.length ≤ room) :
    addPiece margin room ⟨rows, start, start.length⟩ t =
      some ⟨rows ++ [margin ++ start], t, t.length⟩ := by
  have hpos := List.length_pos_iff.mpr hstart
  rw [addPiece, if_neg (Nat.pos_iff_ne_zero.mp hpos)]
  dsimp only
  rw [add_eq_some (by omega)]
  simp only [Option.bind_eq_bind, Option.bind_some]
  rw [add_eq_some hsize, Option.bind_some, if_neg hfull]
  rfl

end

/-- Every piece finds its place, where the greedy distribution puts it. The width of the open row is
counted along, and it is bounded by the text that is filled, so that no sum overflows. -/
theorem foldlM_addPiece (hts : ∀ t ∈ ts, t ≠ []) (rows : List Text) (start : Text)
    (hstart : start ≠ []) (hsize : start.length + spacedLength ts < wordSize) :
    ∃ f first others, fillAfter room start.length ts = first :: others ∧
      ts.foldlM (addPiece margin room) ⟨rows, start, start.length⟩ = some f ∧
      f.close margin =
        rows ++ (margin ++ spaced (start :: first)) :: others.map fun l => margin ++ spaced l := by
  induction ts generalizing rows start with
  | nil =>
    refine ⟨⟨rows, start, start.length⟩, [], [], rfl, rfl, ?_⟩
    rw [Filling.close, if_pos (List.length_pos_iff.mpr hstart), Text.spaced_singleton]
    rfl
  | cons t ts ih =>
    have ht := hts t (List.mem_cons_self ..)
    have hrest := fun u hu => hts u (List.mem_cons_of_mem t hu)
    rw [spacedLength] at hsize
    rw [List.foldlM_cons]
    -- both ways go on with a row that is not empty and with fewer tokens to count
    by_cases hfits : start.length + 1 + t.length ≤ room
    · have hlength := Text.length_append_space start t
      obtain ⟨f, first, others, hfill, hfold, hclose⟩ :=
        ih hrest rows (start ++ ' ' :: t) (by simp) (by omega)
      refine ⟨f, t :: first, others, Text.fillAfter_of_fits hfits hfill, ?_, ?_⟩
      · rw [addPiece_of_fits rows hstart (by omega) hfits]
        exact hfold
      · rw [hclose, Text.spaced_append_cons]
    · obtain ⟨f, first, others, hfill, hfold, hclose⟩ :=
        ih hrest (rows ++ [margin ++ start]) t ht (by omega)
      refine ⟨f, [], (t :: first) :: others, Text.fillAfter_of_full hfits hfill, ?_, ?_⟩
      · rw [addPiece_of_full rows hstart (by omega) hfits]
        exact hfold
      · rw [hclose, List.append_assoc, Text.spaced_singleton]
        rfl

/-- The first piece opens the first row. It is the only one that is added without a space in front
of it, whatever its length is. -/
theorem foldlM_tokens (margin : Text) (room : Nat) (hts : ∀ t ∈ ts, t ≠ [])
    (hsize : spacedLength ts < wordSize) :
    ∃ f, ts.foldlM (addPiece margin room) ⟨[], [], 0⟩ = some f ∧
      f.close margin = (fill room ts).map fun l => margin ++ spaced l := by
  cases ts with
  | nil => exact ⟨_, rfl, rfl⟩
  | cons t ts =>
    rw [spacedLength] at hsize
    obtain ⟨f, first, others, hfill, hfold, hclose⟩ :=
      foldlM_addPiece (fun u hu => hts u (List.mem_cons_of_mem t hu)) [] t
        (hts t (List.mem_cons_self ..)) (by omega)
    refine ⟨f, ?_, ?_⟩
    · rw [List.foldlM_cons]
      exact hfold
    · rw [fill, hfill, consHead]
      exact hclose

-- ---------------------------------------------------------------------------
-- Lines and texts
-- ---------------------------------------------------------------------------

theorem words_trimStart (line : Text) : line.trimStart.words = line.words :=
  runs_dropWhile isWhite line

/-- What is cut off a line up to its first word is the white space in front. -/
theorem marginOf_eq_some (width : Nat) (line : Text) :
    marginOf width line = some (indent width line) := by
  have hline := Text.trimStart_append_spaces line
  rw [marginOf, indent]
  generalize line.takeWhile isWhite = spaces at hline ⊢
  generalize line.trimStart = content at hline ⊢
  subst hline
  rw [byteLength_append, sub_eq_some (Nat.le_add_left _ _), Nat.add_sub_cancel]
  simp only [Option.bind_eq_bind, Option.bind_some, textTo_append]
  split
  · next hle =>
    rw [if_neg (Nat.not_lt.mpr hle)]
    rfl
  · next hlt =>
    rw [if_pos (Nat.not_le.mp hlt)]
    rfl

/-- A long line is wrapped. There is room on a row, since the margin is shorter than the width. -/
theorem fillLine_eq_some (hw : 0 < width) (hsize : 2 * line.length < wordSize) :
    fillLine width line = some (Text.fillLine width line) := by
  have hindent := Text.length_indent hw line
  rw [fillLine, Text.fillLine, marginOf_eq_some]
  simp only [Option.bind_eq_bind, Option.bind_some, sub_eq_some (Nat.le_of_lt hindent)]
  have hroom : 0 < width - (indent width line).length := Nat.sub_pos_of_lt hindent
  generalize width - (indent width line).length = room at hroom ⊢
  have hts : ∀ t ∈ tokens room line, t ≠ [] := fun t ht =>
    (Text.token_of_mem_tokens hroom ht).ne_nil
  -- the tokens are the line without its white space
  have hlength : spacedLength (tokens room line) ≤ 2 * line.length := by
    have hflat := spacedLength_le hts
    have hfilter := List.length_filter_le (fun c => !isWhite c) line
    rw [Text.flatten_tokens] at hflat
    omega
  obtain ⟨f, hfold, hclose⟩ :=
    foldlM_tokens (indent width line) room hts (Nat.lt_of_le_of_lt hlength hsize)
  rw [words_trimStart, foldlM_addWord (Nat.pos_iff_ne_zero.mp hroom), ← tokens, hfold,
    Option.bind_some, hclose]
  rfl

/-- The lines of a paragraph, with the long ones wrapped. -/
def wrapParagraph (width : Nat) (ls : List Text) : Option (List Text) := do
  return (← ls.mapM fun l => if l.length ≤ width then some [l] else fillLine width l).flatten

/-- A text with its long lines wrapped. -/
def wrap (width : Nat) (t : Text) : Option Text := do
  let paragraphs ← t.paragraphs.mapM (wrapParagraph (max width 1))
  return List.intercalate ['\n', '\n'] (paragraphs.map Text.unlines)

/-- A paragraph is wrapped line by line, and a line that fits needs no computation. -/
theorem wrapParagraph_eq_some {ls : List Text} (hw : 0 < width)
    (hsize : ∀ l ∈ ls, 2 * l.length < wordSize) :
    wrapParagraph width ls = some (Text.wrapParagraph width ls) := by
  have hlines : ∀ l ∈ ls, (if l.length ≤ width then some [l] else fillLine width l) =
      some (if l.length ≤ width then [l] else Text.fillLine width l) := by
    intro l hl
    split
    · rfl
    · exact fillLine_eq_some hw (hsize l hl)
  rw [wrapParagraph, mapM_eq_some hlines, Text.wrapParagraph, List.flatMap_def]
  rfl

/-- A text is wrapped at any width, if twice the length of a line is a number of 64 bits. -/
theorem wrap_eq_some (width : Nat) (hsize : ∀ l ∈ t.lines, 2 * l.length < wordSize) :
    wrap width t = some (Text.wrap width t) := by
  have hparagraphs : ∀ p ∈ t.paragraphs, wrapParagraph (max width 1) p =
      some (Text.wrapParagraph (max width 1) p) := fun p hp =>
    wrapParagraph_eq_some (by omega) fun l hl => hsize l (Text.of_mem_runs hp hl).1
  rw [wrap, mapM_eq_some hparagraphs, Text.wrap]
  simp only [Option.bind_eq_bind, Option.bind_some, List.map_map]
  rfl

end ConventionalCommit.Checked
