import ConventionalCommit.Text.Basic

/-!
# ConventionalCommit — colours

The colours of a report on a terminal. Whether there are any is decided once,
from two variables of the environment (`coloured`); without colours painting
leaves a text as it is.
-/

namespace ConventionalCommit

/-- Whether a text is a numeral for zero: a plus sign, if any, and zeros. -/
def isZeroNumeral (t : Text) : Bool :=
  let digits := match t with
    | '+' :: rest => rest
    | t => t
  !digits.isEmpty && digits.all (· == '0')

/-- Whether output is coloured. The variable `NO_COLOR` switches colours off,
whatever its value; `FORCE_COLOR` switches them on unless its value is `false`
or a numeral for zero. -/
def coloured (noColor forceColor : Option Text) : Bool :=
  noColor.isNone && forceColor.any fun t => !(t == "false".toList || isZeroNumeral t)

/-- What a colour stands for. -/
inductive Paint where
  | success
  | warning
  | error
  | info
  | bold
deriving DecidableEq, Repr

namespace Paint

/-- An escape sequence that sets a property of the terminal. -/
def escape (code : Text) : Text := '\x1b' :: '[' :: (code ++ ['m'])

/-- What switches a paint on. -/
def on : Paint → Text
  | success => escape ['1'] ++ escape ['3', '2']
  | warning => escape ['3', '3']
  | error => escape ['1'] ++ escape ['3', '1']
  | info => escape ['3', '6']
  | bold => escape ['1']

/-- What switches a paint off. -/
def off : Paint → Text
  | success => escape ['3', '9'] ++ escape ['0']
  | warning => escape ['3', '9']
  | error => escape ['3', '9'] ++ escape ['0']
  | info => escape ['3', '9']
  | bold => escape ['0']

/-- A text in a paint, if there are colours. -/
def apply (p : Paint) (colours : Bool) (t : Text) : Text :=
  if colours then p.on ++ t ++ p.off else t

/-- The mark that a line in a paint begins with. -/
def icon : Paint → Text
  | success => ['\u2713']
  | warning => ['\u26a0']
  | error => ['\u2717']
  | info => ['\u2139']
  | bold => []

/-- A line of its own: the mark and the text, each in the paint. -/
def line (p : Paint) (colours : Bool) (t : Text) : Text :=
  p.apply colours p.icon ++ ' ' :: p.apply colours t

end Paint

end ConventionalCommit
