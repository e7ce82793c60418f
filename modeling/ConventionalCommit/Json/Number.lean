import ConventionalCommit.Json.Shortest
import ConventionalCommit.Text.Basic

/-!
# ConventionalCommit — numbers of JSON

A number is held as exactly as its literal allows (`Json.Number`): an integer
of 64 bits as itself, any other number as a double. `Number.text` writes it.
-/

namespace ConventionalCommit

/-- A natural number in decimal digits. -/
def Text.ofNat (n : Nat) : Text := Nat.toDigits 10 n

namespace Json

/-- A number of JSON. -/
inductive Number where
  /-- An integer literal from zero to `2 ^ 64 - 1`. -/
  | natural (n : UInt64)
  /-- An integer literal from `-2 ^ 63` to `-1`, by its distance from zero. -/
  | negative (distance : Nat) (pos : 0 < distance) (le : distance ≤ Nat.pow 2 63)
  /-- Any other literal: the nearest double, by sign and magnitude. -/
  | double (isNegative : Bool) (magnitude : Binary64)
deriving DecidableEq, Repr

namespace Number

/-- An exponent with its sign. -/
def exponentText (e : Int) : Text :=
  (if e < 0 then '-' else '+') :: Text.ofNat e.natAbs

/-- A decimal in positional or in scientific form. Positional form is for those
whose first digit counts a power of ten from `-5` to `15`, and shows one digit
after the point at least. -/
def decimalText (d : Decimal) : Text :=
  let digits := Text.ofNat d.digits
  let leading : Int := digits.length - 1 + d.exponent
  if leading < -5 ∨ 15 < leading then
    match digits with
    | first :: second :: others => first :: '.' :: second :: (others ++ 'e' :: exponentText leading)
    | single => single ++ 'e' :: exponentText leading
  else if 0 ≤ d.exponent then
    digits ++ List.replicate d.exponent.toNat '0' ++ ['.', '0']
  else if 0 ≤ leading then
    digits.take (leading.toNat + 1) ++ '.' :: digits.drop (leading.toNat + 1)
  else
    '0' :: '.' :: (List.replicate (-leading - 1).toNat '0' ++ digits)

/-- The text of a number: an integer in plain digits, a double in the fewest
digits that are read back as it. -/
def text : Number → Text
  | natural n => Text.ofNat n.toNat
  | negative distance _ _ => '-' :: Text.ofNat distance
  | double isNegative magnitude =>
    (if isNegative then ['-'] else []) ++
      (if magnitude.isZero then ['0', '.', '0'] else decimalText magnitude.shortest)

end Number

end Json

end ConventionalCommit
