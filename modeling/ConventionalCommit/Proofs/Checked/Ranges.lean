import ConventionalCommit.Json.SyntaxError
import Mathlib.Data.List.Basic

/-!
# ConventionalCommit — operations with a range

Numbers of 64 bits, positions in a list and byte positions in a text have operations that are
defined in a range only. Here each of them gives nothing outside its range, so a computation made
of them that gives a result has been in range at every step. A byte position in a text must lie
between two characters.

* `splitAtByte_append`: a text is split at the position after any part in front;
* `length_le_byteLength`: no character takes less than a byte.
-/

namespace ConventionalCommit.Checked

open Json (byteLength)

variable {α : Type} {a b i j : Nat} {s t u : Text} {c : Char}

-- ---------------------------------------------------------------------------
-- Numbers
-- ---------------------------------------------------------------------------

/-- How many numbers there are. -/
def wordSize : Nat := UInt64.size

/-- The most bytes that a text takes, which is less than half of the numbers. -/
def mostBytes : Nat := 0x7fffffffffffffff

/-- A sum, if it is a number of 64 bits. -/
def add (a b : Nat) : Option Nat := if a + b < wordSize then some (a + b) else none

/-- A difference, if it is not negative. -/
def sub (a b : Nat) : Option Nat := if b ≤ a then some (a - b) else none

/-- A remainder, if the divisor is not zero. -/
def rem (a b : Nat) : Option Nat := if b = 0 then none else some (a % b)

/-- A sum that is a number of 64 bits is defined. Where a proof below shows that an operation is in
range, it is by one of these three. -/
theorem add_eq_some (h : a + b < wordSize) : add a b = some (a + b) := if_pos h

theorem sub_eq_some (h : b ≤ a) : sub a b = some (a - b) := if_pos h

theorem rem_eq_some (h : b ≠ 0) : rem a b = some (a % b) := if_neg h

theorem eq_of_add (h : add a b = some i) : i = a + b := by
  rw [add] at h
  split at h
  · exact (Option.some.inj h).symm
  · cases h

/-- A difference that is defined is the difference, and it is not negative. -/
theorem eq_of_sub (h : sub a b = some i) : b ≤ a ∧ i = a - b := by
  rw [sub] at h
  split at h
  · next hle => exact ⟨hle, (Option.some.inj h).symm⟩
  · cases h

-- ---------------------------------------------------------------------------
-- Lists
-- ---------------------------------------------------------------------------

/-- The elements from one position up to another. -/
def slice (l : List α) (i j : Nat) : Option (List α) :=
  if i ≤ j ∧ j ≤ l.length then some ((l.take j).drop i) else none

theorem getElem?_append_cons (front : List α) (a : α) (back : List α) :
    (front ++ a :: back)[front.length]? = some a := by
  rw [List.getElem?_append_right (Nat.le_refl _), Nat.sub_self]
  rfl

/-- The elements between two positions, which are the lengths of what is in front of each. -/
theorem drop_take_append (front part back : List α) :
    ((front ++ (part ++ back)).take (front.length + part.length)).drop front.length = part := by
  rw [← List.append_assoc, ← List.length_append, List.take_left, List.drop_left]

/-- A part of a list is the slice from its position on, and both positions are in range. -/
theorem slice_append (front part back : List α) :
    slice (front ++ (part ++ back)) front.length (front.length + part.length) = some part := by
  have hrange : front.length + part.length ≤ (front ++ (part ++ back)).length := by
    simp only [List.length_append]
    omega
  rw [slice, if_pos ⟨Nat.le_add_right _ _, hrange⟩, drop_take_append]

/-- What is defined for each element is defined for the list of them. -/
theorem mapM_eq_some {β : Type} {f : α → Option β} {g : α → β} {l : List α}
    (h : ∀ a ∈ l, f a = some (g a)) : l.mapM f = some (l.map g) := by
  induction l with
  | nil => rfl
  | cons a l ih =>
    rw [List.mapM_cons, h a (List.mem_cons_self ..), ih fun b hb => h b (List.mem_cons_of_mem _ hb)]
    rfl

-- ---------------------------------------------------------------------------
-- Texts
-- ---------------------------------------------------------------------------

/-- A text in two parts of which the first takes `n` bytes, if the position after them lies
between two characters. -/
def splitAtByte : Nat → Text → Option (Text × Text)
  | 0, t => some ([], t)
  | _ + 1, [] => none
  | n + 1, c :: rest =>
    if c.utf8Size ≤ n + 1 then
      (splitAtByte (n + 1 - c.utf8Size) rest).map fun p => (c :: p.1, p.2)
    else none

/-- The part of a text from a byte position on. -/
def textFrom (t : Text) (i : Nat) : Option Text := (splitAtByte i t).map Prod.snd

/-- The part of a text up to a byte position. -/
def textTo (t : Text) (j : Nat) : Option Text := (splitAtByte j t).map Prod.fst

/-- The part of a text from one byte position up to another. -/
def textSlice (t : Text) (i j : Nat) : Option Text :=
  if i ≤ j then (textTo t j).bind (textFrom · i) else none

@[simp] theorem byteLength_nil : byteLength [] = 0 := rfl

@[simp] theorem byteLength_cons (c : Char) (t : Text) :
    byteLength (c :: t) = c.utf8Size + byteLength t := rfl

/-- The bytes of two texts are those of the first and those of the second, as no character takes
fewer bytes next to another. -/
@[simp] theorem byteLength_append (s t : Text) :
    byteLength (s ++ t) = byteLength s + byteLength t := by
  induction s with
  | nil => rw [List.nil_append, byteLength_nil, Nat.zero_add]
  | cons c s ih => rw [List.cons_append, byteLength_cons, byteLength_cons, ih, Nat.add_assoc]

theorem length_le_byteLength (t : Text) : t.length ≤ byteLength t := by
  induction t with
  | nil => exact Nat.le_refl _
  | cons c t ih =>
    have hsize := c.utf8Size_pos
    rw [List.length_cons, byteLength_cons]
    omega

/-- The position after any part in front lies between two characters, so slicing there is defined
and gives the part and the rest. -/
theorem splitAtByte_append (s t : Text) : splitAtByte (byteLength s) (s ++ t) = some (s, t) := by
  induction s with
  | nil =>
    rw [byteLength_nil, List.nil_append]
    cases t <;> rfl
  | cons c s ih =>
    have hsize := c.utf8Size_pos
    obtain ⟨n, hn⟩ : ∃ n, byteLength (c :: s) = n + 1 :=
      ⟨byteLength (c :: s) - 1, by rw [byteLength_cons]; omega⟩
    have hrest : n + 1 - c.utf8Size = byteLength s := by
      rw [byteLength_cons] at hn
      omega
    rw [hn, List.cons_append, splitAtByte, if_pos (by rw [← hn, byteLength_cons]; omega), hrest, ih]
    rfl

/-- The text from the position after a part on is what follows the part. -/
theorem textFrom_append (s t : Text) : textFrom (s ++ t) (byteLength s) = some t := by
  rw [textFrom, splitAtByte_append, Option.map_some]

theorem textTo_append (s t : Text) : textTo (s ++ t) (byteLength s) = some s := by
  rw [textTo, splitAtByte_append, Option.map_some]

/-- A part in the middle, between the positions at its two ends. Both lie between characters, since
there are texts on both sides of each. -/
theorem textSlice_append (s t u : Text) :
    textSlice (s ++ (t ++ u)) (byteLength s) (byteLength s + byteLength t) = some t := by
  rw [textSlice, if_pos (Nat.le_add_right _ _), ← List.append_assoc, ← byteLength_append,
    textTo_append, Option.bind_some, textFrom_append]

end ConventionalCommit.Checked
