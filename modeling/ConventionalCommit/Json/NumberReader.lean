import ConventionalCommit.Json.SyntaxError

/-!
# ConventionalCommit — reading numbers

A number literal is first cut into its parts (`Literal`), then valued. The
significand takes digits while it stays below `2 ^ 64`; the digits after that
count for the exponent only. A double is the significand rounded and then
multiplied or divided by a rounded power of ten, each step rounded again.
-/

namespace ConventionalCommit.Json

/-- Whether a character is a decimal digit. -/
def isDigit (c : Char) : Bool := '0' ≤ c && c ≤ '9'

/-- The value of a decimal digit. -/
def digitValue (c : Char) : Nat := c.toNat - '0'.toNat

/-- The exponent part of a literal. -/
structure ExponentPart where
  isNegative : Bool
  digits : Text
deriving Repr

/-- The parts of a number literal. -/
structure Literal where
  isNegative : Bool
  whole : Text
  fraction : Option Text
  exponent : Option ExponentPart
deriving Repr

-- ---------------------------------------------------------------------------
-- Cutting
-- ---------------------------------------------------------------------------

/-- Takes a minus sign. -/
def takeMinus : Text → Bool × Text
  | '-' :: rest => (true, rest)
  | t => (false, t)

/-- Takes the sign of an exponent. -/
def takeSign : Text → Bool × Text
  | '-' :: rest => (true, rest)
  | '+' :: rest => (false, rest)
  | t => (false, t)

/-- Takes one or more digits. -/
def takeDigits (t : Text) : Except Stop (Text × Text) :=
  match t with
  | [] => .error (.at .endInValue t)
  | c :: _ =>
    if isDigit c then .ok (t.takeWhile isDigit, t.dropWhile isDigit)
    else .error (.at .invalidNumber t)

/-- Takes the digits before the point, which begin with a zero only if it is the
only one. -/
def takeWhole (t : Text) : Except Stop (Text × Text) :=
  match t with
  | '0' :: rest =>
    if rest.head?.any isDigit then .error (.at .invalidNumber rest) else .ok (['0'], rest)
  | _ => takeDigits t

/-- Takes a point with its digits. -/
def takeFraction (t : Text) : Except Stop (Option Text × Text) :=
  match t with
  | '.' :: rest => (takeDigits rest).map fun (ds, after) => (some ds, after)
  | _ => .ok (none, t)

/-- Takes an exponent. -/
def takeExponent (t : Text) : Except Stop (Option ExponentPart × Text) :=
  match t with
  | [] => .ok (none, t)
  | c :: rest =>
    if c = 'e' ∨ c = 'E' then
      let (isNegative, digits) := takeSign rest
      (takeDigits digits).map fun (ds, after) => (some ⟨isNegative, ds⟩, after)
    else .ok (none, t)

/-- Takes a number literal. -/
def takeLiteral (t : Text) : Except Stop (Literal × Text) := do
  let (isNegative, t) := takeMinus t
  let (whole, t) ← takeWhole t
  let (fraction, t) ← takeFraction t
  let (exponent, t) ← takeExponent t
  return (⟨isNegative, whole, fraction, exponent⟩, t)

-- ---------------------------------------------------------------------------
-- Valuing
-- ---------------------------------------------------------------------------

/-- Appends digits to a number while it stays below a bound, and returns it with
the digits that are left. -/
def accumulate (bound : Nat) (n : Nat) : Text → Nat × Text
  | [] => (n, [])
  | c :: rest =>
    if n * 10 + digitValue c < bound then accumulate bound (n * 10 + digitValue c) rest
    else (n, c :: rest)

/-- The power of ten nearest to `10 ^ k`, for an exponent within the format. -/
def powerOfTen? (k : Nat) : Option Binary64 :=
  if k ≤ Binary64.greatestPower then Binary64.ofNat? (Nat.pow 10 k) else none

/-- Divides by `10 ^ k`, in steps no greater than the greatest power. -/
def dividePower (x : Binary64) (k : Nat) : Option Binary64 :=
  if x.isZero then some x
  else if _h : k ≤ Binary64.greatestPower then (powerOfTen? k).bind x.div?
  else
    ((powerOfTen? Binary64.greatestPower).bind x.div?).bind fun y =>
      dividePower y (k - Binary64.greatestPower)
termination_by k
decreasing_by unfold Binary64.greatestPower at *; omega

/-- The double of a significand and a power of ten; `none` if it is beyond the
format. -/
def scaled? (significand : Nat) (exponent : Int) : Option Binary64 :=
  (Binary64.ofNat? significand).bind fun x =>
    if x.isZero then some x
    else if exponent < 0 then dividePower x exponent.natAbs
    else (powerOfTen? exponent.natAbs).bind x.mul?

/-- The significand of a literal and the power of ten that it counts. -/
def Literal.significand (l : Literal) : Nat × Int :=
  let (n, wholeLeft) := accumulate (Nat.pow 2 64) 0 l.whole
  let fraction := l.fraction.getD []
  let (n, fractionLeft) := accumulate (Nat.pow 2 64) n fraction
  (n, (wholeLeft.length : Int) - ((fraction.length : Int) - fractionLeft.length))

/-- The integer that a literal is, if it has neither point nor exponent and fits
64 bits. Minus zero is no integer. -/
def Literal.integer? (l : Literal) : Option Number :=
  match l.fraction, l.exponent, accumulate (Nat.pow 2 64) 0 l.whole with
  | none, none, (n, []) =>
    if l.isNegative then
      if h : 0 < n ∧ n ≤ Nat.pow 2 63 then some (.negative n h.1 h.2) else none
    else some (.natural (UInt64.ofNat n))
  | _, _, _ => none

/-- The double that a literal is read as, where `rest` follows the literal. An
exponent that does not fit 32 bits makes the number zero or out of range. -/
def Literal.double (l : Literal) (rest : Text) : Except Stop Number :=
  let (significand, power) := l.significand
  let zero := Number.double l.isNegative .zero
  let finish (power : Int) : Except Stop Number :=
    match scaled? significand power with
    | some x => .ok (.double l.isNegative x)
    | none => .error (.before .numberOutOfRange rest)
  match l.exponent with
  | none => finish power
  | some e =>
    match accumulate (Nat.pow 2 31) 0 e.digits with
    | (n, []) => finish (if e.isNegative then power - n else power + n)
    | (_, _ :: left) =>
      if significand ≠ 0 ∧ e.isNegative = false then
        .error (.before .numberOutOfRange (left ++ rest))
      else .ok zero

/-- The number that a literal is read as, where `rest` follows the literal. -/
def Literal.value (l : Literal) (rest : Text) : Except Stop Number :=
  match l.integer? with
  | some n => .ok n
  | none => l.double rest

/-- Reads a number and returns it with what follows. -/
def readNumber (t : Text) : Except Stop (Number × Text) := do
  let (literal, rest) ← takeLiteral t
  let number ← literal.value rest
  return (number, rest)

end ConventionalCommit.Json
