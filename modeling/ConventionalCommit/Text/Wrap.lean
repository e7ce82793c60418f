import ConventionalCommit.Text.Lines
import ConventionalCommit.Text.Runs

/-!
# ConventionalCommit — wrapping text to a width

`Text.wrap` rewraps the lines of a text that are too long and leaves the
others as they are. A long line is filled greedily: its words, cut where a
word alone is too long, go on a line as long as they fit (`fill`). Each new
line begins with the white space that the long line began with, unless that
alone takes the whole width. Paragraphs stay apart, with one blank line
between them.

* `flatten_chunks`, `flatten_fill`: cutting and filling lose nothing;
* `chunks_eq`: all pieces of a word are full, except that the last may be shorter.
-/

namespace ConventionalCommit.Text

open Unicode (isWhite)

-- ---------------------------------------------------------------------------
-- Cutting long words
-- ---------------------------------------------------------------------------

/-- Consecutive pieces of `n` characters, where the first piece has room for
`room` characters. -/
def chunksAfter (n room : Nat) : Text → List Text
  | [] => [[]]
  | c :: rest =>
    if room = 0 then [] :: consHead c (chunksAfter n (n - 1) rest)
    else consHead c (chunksAfter n (room - 1) rest)

/-- Consecutive pieces of `n` characters, the last one of `n` at most. There is
one piece if `n` is zero. -/
def chunks (n : Nat) (t : Text) : List Text := if n = 0 then [t] else chunksAfter n n t

/-- Whatever the room of the first piece is, the pieces make up the text. -/
theorem flatten_chunksAfter (n room : Nat) (t : Text) : (chunksAfter n room t).flatten = t := by
  induction t generalizing room with
  | nil => rfl
  | cons c rest ih =>
    simp only [chunksAfter]
    split <;> simp [ih]

theorem flatten_chunks (n : Nat) (t : Text) : (chunks n t).flatten = t := by
  unfold chunks
  split
  · simp
  · exact flatten_chunksAfter n n t

/-- The loop over single characters takes as many as there is room for, and goes on with full room.
-/
theorem chunksAfter_eq {n : Nat} (hn : n ≠ 0) (room : Nat) (t : Text) :
    chunksAfter n room t =
      if t.length ≤ room then [t] else t.take room :: chunksAfter n n (t.drop room) := by
  induction t generalizing room with
  | nil => simp [chunksAfter]
  | cons c rest ih =>
    cases room with
    | zero => simp [chunksAfter, hn]
    | succ room =>
      simp only [chunksAfter, Nat.add_one_ne_zero, if_false, Nat.add_one_sub_one, ih,
        List.length_cons, Nat.add_le_add_iff_right, List.take_succ_cons, List.drop_succ_cons]
      split <;> rfl

/-- A text that fits is one piece, and a longer one begins with a full piece. -/
theorem chunks_eq (n : Nat) (t : Text) :
    chunks n t =
      if n = 0 ∨ t.length ≤ n then [t] else t.take n :: chunks n (t.drop n) := by
  unfold chunks
  by_cases hn : n = 0
  · simp [hn]
  · simp only [hn, if_false, false_or]
    exact chunksAfter_eq hn n t

-- ---------------------------------------------------------------------------
-- Greedy filling
-- ---------------------------------------------------------------------------

/-- Distributes tokens over lines of `room` characters, where `used` characters
stand on the first line already. Tokens on a line have a space between them. -/
def fillAfter (room used : Nat) : List Text → List (List Text)
  | [] => [[]]
  | t :: rest =>
    if used + 1 + t.length ≤ room then
      consHead t (fillAfter room (used + 1 + t.length) rest)
    else
      [] :: consHead t (fillAfter room t.length rest)

/-- Distributes tokens over lines of `room` characters, as many as fit on each. -/
def fill (room : Nat) : List Text → List (List Text)
  | [] => []
  | t :: rest => consHead t (fillAfter room t.length rest)

/-- Rows hold the tokens in order, whatever stands on the first row already. -/
theorem flatten_fillAfter (room used : Nat) (tokens : List Text) :
    (fillAfter room used tokens).flatten = tokens := by
  induction tokens generalizing used with
  | nil => rfl
  | cons t rest ih =>
    simp only [fillAfter]
    split <;> simp [ih]

theorem flatten_fill (room : Nat) (tokens : List Text) : (fill room tokens).flatten = tokens := by
  cases tokens with
  | nil => rfl
  | cons t rest => rw [fill, flatten_consHead, flatten_fillAfter]

-- ---------------------------------------------------------------------------
-- Lines and paragraphs
-- ---------------------------------------------------------------------------

/-- The white space that the lines of a wrapped line begin with. -/
def indent (width : Nat) (line : Text) : Text :=
  let margin := line.takeWhile isWhite
  if margin.length < width then margin else []

/-- The tokens of a line for lines of `room` characters: its words, each cut
into pieces that fit. -/
def tokens (room : Nat) (line : Text) : List Text := line.words.flatMap (chunks room)

/-- A long line as lines of `width` characters at most. -/
def fillLine (width : Nat) (line : Text) : List Text :=
  let margin := indent width line
  let room := width - margin.length
  (fill room (tokens room line)).map fun ts => margin ++ List.intercalate [' '] ts

/-- The lines of a paragraph, with the long ones wrapped. -/
def wrapParagraph (width : Nat) (ls : List Text) : List Text :=
  ls.flatMap fun l => if l.length ≤ width then [l] else fillLine width l

/-- The paragraphs of a text: the runs of its lines between blank ones. -/
def paragraphs (t : Text) : List (List Text) := runs isBlank t.lines

/-- A text with its long lines wrapped to a width of one character at least. -/
def wrap (width : Nat) (t : Text) : Text :=
  List.intercalate ['\n', '\n']
    (t.paragraphs.map fun p => unlines (wrapParagraph (max width 1) p))

end ConventionalCommit.Text
