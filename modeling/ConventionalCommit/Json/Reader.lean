import ConventionalCommit.Json.Basic
import ConventionalCommit.Json.NumberReader
import ConventionalCommit.Json.StringReader

/-!
# ConventionalCommit — reading JSON

A reader of JSON texts (`Json.read`). A value is read together with the text
that follows it, which is shorter (`Taken`): that bounds the loops over items
and members, while the depth of nesting has a limit of its own.
-/

namespace ConventionalCommit.Json

/-- White space between the tokens of JSON. -/
def isGap (c : Char) : Bool := c == ' ' || c == '\n' || c == '\t' || c == '\r'

/-- A text from its first character that is not a gap. -/
def skipGap (t : Text) : Text := t.dropWhile isGap

theorem length_skipGap (t : Text) : (skipGap t).length ≤ t.length :=
  (List.dropWhile_sublist _).length_le

/-- What follows the first character behind a gap is shorter. Every reader below takes such a
character, and that is why reading ends. -/
theorem length_lt_of_skipGap {t rest : Text} {c : Char} (h : skipGap t = c :: rest) :
    rest.length < t.length := by
  have := length_skipGap t
  rw [h, List.length_cons] at this
  exact this

/-- Something read from the front of a text, and what follows it. -/
structure Taken (α : Type) (t : Text) where
  value : α
  rest : Text
  shorter : rest.length < t.length

/-- The same reading seen from a longer text. -/
def Taken.widen {α : Type} {t u : Text} (r : Taken α t) (h : t.length ≤ u.length) :
    Taken α u :=
  ⟨r.value, r.rest, Nat.lt_of_lt_of_le r.shorter h⟩

-- ---------------------------------------------------------------------------
-- Leaves
-- ---------------------------------------------------------------------------

/-- Reads the characters of a literal name one after the other. -/
def readName : Text → Text → Except Stop Text
  | [], t => .ok t
  | _ :: _, [] => .error (.at .endInValue [])
  | n :: name, c :: rest =>
    if c = n then readName name rest else .error (.at .expectedIdent (c :: rest))

/-- A name leaves no more than there was. -/
theorem length_readName {name t rest : Text} (h : readName name t = .ok rest) :
    rest.length ≤ t.length := by
  fun_induction readName name t with
  | case1 => cases h; exact Nat.le_refl _
  | case2 => cases h
  | case3 n name rest' ih =>
    have := ih h
    rw [List.length_cons]
    omega
  | case4 => cases h

/-- Digits take at least one character. -/
theorem length_takeDigits {t : Text} {r : Text × Text} (h : takeDigits t = .ok r) :
    r.2.length < t.length := by
  unfold takeDigits at h
  split at h
  · cases h
  · split at h
    · next c cs hc =>
      obtain rfl := Except.ok.inj h
      rw [List.dropWhile_cons_of_pos hc]
      exact Nat.lt_succ_of_le (List.dropWhile_sublist _).length_le
    · cases h

theorem length_takeWhole {t : Text} {r : Text × Text} (h : takeWhole t = .ok r) :
    r.2.length < t.length := by
  unfold takeWhole at h
  split at h
  · split at h
    · cases h
    · cases h
      simp
  · exact length_takeDigits h

theorem length_takeMinus (t : Text) : (takeMinus t).2.length ≤ t.length := by
  unfold takeMinus
  split <;> simp

theorem length_takeSign (t : Text) : (takeSign t).2.length ≤ t.length := by
  unfold takeSign
  split <;> simp

theorem length_takeFraction {t : Text} {r : Option Text × Text}
    (h : takeFraction t = .ok r) : r.2.length ≤ t.length := by
  unfold takeFraction at h
  split at h
  · next u =>
    cases hd : takeDigits u with
    | error e => rw [hd] at h; cases h
    | ok r =>
      have := length_takeDigits hd
      rw [hd] at h
      cases h
      simp only [List.length_cons]
      omega
  · cases h
    exact Nat.le_refl _

theorem length_takeExponent {t : Text} {r : Option ExponentPart × Text}
    (h : takeExponent t = .ok r) : r.2.length ≤ t.length := by
  unfold takeExponent at h
  split at h
  · cases h
    exact Nat.le_refl _
  · next c u =>
    split at h
    · have hs := length_takeSign u
      cases hd : takeDigits (takeSign u).2 with
      | error e => simp only [hd, Except.map] at h; cases h
      | ok r =>
        have := length_takeDigits hd
        simp only [hd, Except.map] at h
        cases h
        simp only [List.length_cons]
        omega
    · cases h
      exact Nat.le_refl _

/-- A number takes at least one character, the first digit of its whole part. The sign, the fraction
and the exponent may be missing, so they are only known not to give anything back. -/
theorem length_readNumber {t rest : Text} {n : Number} (h : readNumber t = .ok (n, rest)) :
    rest.length < t.length := by
  have h₀ := length_takeMinus t
  unfold readNumber takeLiteral at h
  simp only [bind, Except.bind, pure, Except.pure] at h
  cases h₁ : takeWhole (takeMinus t).2 with
  | error e => simp only [h₁] at h; cases h
  | ok r₁ =>
    -- a digit at least is taken here; the minus, the fraction and the exponent may be missing
    have l₁ := length_takeWhole h₁
    simp only [h₁] at h
    cases h₂ : takeFraction r₁.2 with
    | error e => simp only [h₂] at h; cases h
    | ok r₂ =>
      have l₂ := length_takeFraction h₂
      simp only [h₂] at h
      cases h₃ : takeExponent r₂.2 with
      | error e => simp only [h₃] at h; cases h
      | ok r₃ =>
        have l₃ := length_takeExponent h₃
        simp only [h₃] at h
        split at h
        · cases h
        · obtain ⟨-, rfl⟩ := Prod.mk.inj (Except.ok.inj h)
          omega

/-- Reads a literal name, of which the first letter is read already. -/
def takeName (name : Text) (value : Json) (t : Text) :
    Except Stop { r : Json × Text // r.2.length ≤ t.length } :=
  match h : readName name t with
  | .error e => .error e
  | .ok rest => .ok ⟨(value, rest), length_readName h⟩

/-- Reads a string, of which the opening quote is read already. -/
def takeString (t : Text) : Except Stop (Taken Text t) :=
  match h : readChars [] t with
  | .error e => .error e
  | .ok (s, rest) => .ok ⟨s, rest, length_readChars h⟩

/-- Reads a number. -/
def takeNumber (t : Text) : Except Stop (Taken Json t) :=
  match h : readNumber t with
  | .error e => .error e
  | .ok (n, rest) => .ok ⟨number n, rest, length_readNumber h⟩

-- ---------------------------------------------------------------------------
-- Items and members
-- ---------------------------------------------------------------------------

/-- A reader of values from any text. -/
abbrev ValueReader := (t : Text) → Except Stop (Taken Json t)

/-- Reads the items of an array from the first one on, up to the bracket. -/
def takeItems (readValue : ValueReader) (t : Text) : Except Stop (Taken (List Json) t) :=
  match readValue t with
  | .error e => .error e
  | .ok ⟨v, rest, hv⟩ =>
    match hr : skipGap rest with
    | [] => .error (.at .endInList [])
    | ',' :: more =>
      match skipGap more with
      | [] => .error (.at .endInValue [])
      | c :: next =>
        if c = ']' then .error (.at .trailingComma (c :: next))
        else
          have shorter : more.length < t.length :=
            Nat.lt_trans (length_lt_of_skipGap hr) hv
          match takeItems readValue more with
          | .error e => .error e
          | .ok ⟨vs, after, h⟩ => .ok ⟨v :: vs, after, Nat.lt_trans h shorter⟩
    | c :: more =>
      if c = ']' then .ok ⟨[v], more, Nat.lt_trans (length_lt_of_skipGap hr) hv⟩
      else .error (.at .expectedCommaOrBracket (c :: more))
termination_by t.length
decreasing_by exact shorter

/-- Reads an array, of which the opening bracket is read already. -/
def takeArray (readValue : ValueReader) (t : Text) : Except Stop (Taken (List Json) t) :=
  match h : skipGap t with
  | [] => .error (.at .endInList [])
  | c :: rest =>
    if c = ']' then .ok ⟨[], rest, length_lt_of_skipGap h⟩ else takeItems readValue t

/-- Reads the colon and the value of a member. -/
def takeMemberValue (readValue : ValueReader) (t : Text) : Except Stop (Taken Json t) :=
  match h : skipGap t with
  | [] => .error (.at .endInObject [])
  | c :: rest =>
    if c = ':' then
      (readValue rest).map (·.widen (Nat.le_of_lt (length_lt_of_skipGap h)))
    else .error (.at .expectedColon (c :: rest))

/-- Reads the members of an object from the first key on, up to the brace. The
members read so far are `done`. -/
def takeMembers (readValue : ValueReader) (done : List (Text × Json)) (t : Text) :
    Except Stop (Taken (List (Text × Json)) t) :=
  match hk : skipGap t with
  | '"' :: rest =>
    match takeString rest with
    | .error e => .error e
    | .ok ⟨key, afterKey, hkey⟩ =>
      match takeMemberValue readValue afterKey with
      | .error e => .error e
      | .ok ⟨v, afterValue, hv⟩ =>
        have hlt : afterValue.length < t.length :=
          Nat.lt_trans hv (Nat.lt_trans hkey (length_lt_of_skipGap hk))
        match hr : skipGap afterValue with
        | [] => .error (.at .endInObject [])
        | ',' :: more =>
          match skipGap more with
          | [] => .error (.at .endInValue [])
          | c :: next =>
            if c = '\x7d' then .error (.at .trailingComma (c :: next))
            else
              have shorter : more.length < t.length :=
                Nat.lt_trans (length_lt_of_skipGap hr) hlt
              match takeMembers readValue (setMember key v done) more with
              | .error e => .error e
              | .ok ⟨ms, after, h⟩ => .ok ⟨ms, after, Nat.lt_trans h shorter⟩
        | c :: more =>
          if c = '\x7d' then
            .ok ⟨setMember key v done, more, Nat.lt_trans (length_lt_of_skipGap hr) hlt⟩
          else .error (.at .expectedCommaOrBrace (c :: more))
  | other => .error (.at .keyNotString other)
termination_by t.length
decreasing_by exact shorter

/-- Reads an object, of which the opening brace is read already. -/
def takeObject (readValue : ValueReader) (t : Text) :
    Except Stop (Taken (List (Text × Json)) t) :=
  match h : skipGap t with
  | [] => .error (.at .endInObject [])
  | c :: rest =>
    if c = '\x7d' then .ok ⟨[], rest, length_lt_of_skipGap h⟩ else takeMembers readValue [] t

-- ---------------------------------------------------------------------------
-- Values
-- ---------------------------------------------------------------------------

/-- Reads a value in which arrays and objects are nested `depth` deep at most. -/
def takeValue : Nat → ValueReader
  | depth, t =>
    match h : skipGap t with
    | [] => .error (.at .endInValue [])
    | c :: rest =>
      have hlt : rest.length < t.length := length_lt_of_skipGap h
      have hle : (c :: rest).length ≤ t.length := h ▸ length_skipGap t
      let named (name : Text) (value : Json) : Except Stop (Taken Json t) :=
        (takeName name value rest).map fun ⟨r, hr⟩ => ⟨r.1, r.2, Nat.lt_of_le_of_lt hr hlt⟩
      if c = 'n' then named "ull".toList null
      else if c = 't' then named "rue".toList (bool true)
      else if c = 'f' then named "alse".toList (bool false)
      else if c = '"' then
        (takeString rest).map fun s => ⟨string s.value, s.rest, Nat.lt_trans s.shorter hlt⟩
      else if c = '-' ∨ isDigit c then (takeNumber (c :: rest)).map (·.widen hle)
      else if c = '[' then
        match depth with
        | 0 => .error (.at .nestedTooDeep (c :: rest))
        | depth + 1 =>
          (takeArray (takeValue depth) rest).map fun a =>
            ⟨array a.value, a.rest, Nat.lt_trans a.shorter hlt⟩
      else if c = '\x7b' then
        match depth with
        | 0 => .error (.at .nestedTooDeep (c :: rest))
        | depth + 1 =>
          (takeObject (takeValue depth) rest).map fun o =>
            ⟨object o.value, o.rest, Nat.lt_trans o.shorter hlt⟩
      else .error (.at .expectedValue (c :: rest))

/-- How deep the arrays and objects of a text may be nested. -/
def nestingLimit : Nat := 127

/-- Reads the value that a text of JSON stands for. -/
def read (t : Text) : Except SyntaxError Json :=
  match takeValue nestingLimit t with
  | .error stop => .error (stop.toError t)
  | .ok ⟨value, rest, _⟩ =>
    match skipGap rest with
    | [] => .ok value
    | c :: more => .error ((Stop.at .trailingCharacters (c :: more)).toError t)

end ConventionalCommit.Json
