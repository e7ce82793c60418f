import ConventionalCommit.Report.Paint
import ConventionalCommit.Text.Wrap

/-!
# ConventionalCommit — framed text

A text in a frame of line-drawing characters, with a title in the upper edge.
The text is wrapped to the width inside the frame, and each of its blank lines
makes one blank row.
-/

namespace ConventionalCommit.Frame

/-- The width inside a frame, which is one at least: the sides and a space next to
each of them take four characters. -/
def innerWidth (width : Nat) : Nat := max (width - 4) 1

/-- The width of the edges between their corners. -/
def edgeWidth (width : Nat) : Nat := width - 2

/-- A part of an edge. -/
def edge (n : Nat) : Text := List.replicate n '\u2500'

/-- The upper edge, with the title in its middle. -/
def top (colours : Bool) (title : Text) (width : Nat) : Text :=
  let free := edgeWidth width - (title.length + 2)
  '\u256d' :: (edge (free / 2) ++ ' ' :: (Paint.bold.apply colours title ++
    ' ' :: (edge (free - free / 2) ++ ['\u256e'])))

/-- The lower edge. -/
def bottom (width : Nat) : Text := '\u2570' :: (edge (edgeWidth width) ++ ['\u256f'])

/-- A row of text between the sides. -/
def row (width : Nat) (t : Text) : Text :=
  '\u2502' :: ' ' :: (t ++ List.replicate (innerWidth width - t.length) ' ' ++ [' ', '\u2502'])

/-- The rows that show a line: one blank row for a blank line. -/
def rowTexts (width : Nat) (line : Text) : List Text :=
  if line.isBlank then [[]] else (Text.wrap (innerWidth width) line).rows

/-- The rows that show a text. -/
def contentRows (width : Nat) (content : Text) : List Text :=
  content.lines.flatMap (rowTexts width)

/-- A text in a frame with a title. -/
def render (colours : Bool) (title content : Text) (width : Nat) : Text :=
  Text.unlines
    (top colours title width :: ((contentRows width content).map (row width) ++ [bottom width]))

end ConventionalCommit.Frame
