import ConventionalCommit.Json.SyntaxError

/-!
# ConventionalCommit — reading strings

The characters of a JSON string up to its closing quote. A code point beyond
the basic plane is escaped as two surrogates, which must come in a pair.

* `length_readChars`: what follows a string is shorter than the text read.
-/

namespace ConventionalCommit.Json

/-- The value of a hexadecimal digit. -/
def hexValue? (c : Char) : Option Nat :=
  if '0' ≤ c ∧ c ≤ '9' then some (c.toNat - '0'.toNat)
  else if 'a' ≤ c ∧ c ≤ 'f' then some (c.toNat - 'a'.toNat + 10)
  else if 'A' ≤ c ∧ c ≤ 'F' then some (c.toNat - 'A'.toNat + 10)
  else none

/-- The number that hexadecimal digits stand for. -/
def hexNumber? (ds : List Char) : Option Nat :=
  ds.foldl (fun n c => n.bind fun n => (hexValue? c).map (n * 16 + ·)) (some 0)

/-- Reads four hexadecimal digits. Four bytes are taken before they are looked
at. -/
def readHex (t : Text) : Except Stop (Nat × Text) :=
  match t with
  | a :: b :: c :: d :: rest =>
    match hexNumber? [a, b, c, d] with
    | some n => .ok (n, rest)
    | none => .error ⟨.invalidEscape, byteLength t - 4⟩
  | _ =>
    if byteLength t < 4 then .error ⟨.endInString, 0⟩
    else .error ⟨.invalidEscape, byteLength t - 4⟩

/-- Takes an expected character inside an escape. -/
def expectInEscape (c : Char) (t : Text) : Except Stop Text :=
  match t with
  | [] => .error (.at .endInString t)
  | d :: rest => if d = c then .ok rest else .error (.at .endOfEscape t)

/-- Whether a code point is the first surrogate of a pair. -/
def isLeadSurrogate (n : Nat) : Bool := 0xD800 ≤ n && n ≤ 0xDBFF

/-- Whether a code point is the second surrogate of a pair. -/
def isTrailSurrogate (n : Nat) : Bool := 0xDC00 ≤ n && n ≤ 0xDFFF

/-- The code point that a pair of surrogates stands for. -/
def pairedCodePoint (lead trail : Nat) : Nat :=
  0x10000 + (lead - 0xD800) * 0x400 + (trail - 0xDC00)

/-- Reads a code point after `\u`, and the second half of a pair with it. -/
def readUnicodeEscape (t : Text) : Except Stop (Char × Text) := do
  let (n, rest) ← readHex t
  if isTrailSurrogate n then throw (.before .loneSurrogate rest)
  if isLeadSurrogate n then
    let rest ← expectInEscape '\\' rest
    let rest ← expectInEscape 'u' rest
    let (m, rest) ← readHex rest
    if isTrailSurrogate m then return (Char.ofNat (pairedCodePoint n m), rest)
    throw (.before .loneSurrogate rest)
  return (Char.ofNat n, rest)

/-- The character that a single letter after a backslash stands for. -/
def simpleEscape? (c : Char) : Option Char :=
  match c with
  | '"' => some '"'
  | '\\' => some '\\'
  | '/' => some '/'
  | 'b' => some '\x08'
  | 'f' => some '\x0c'
  | 'n' => some '\n'
  | 'r' => some '\r'
  | 't' => some '\t'
  | _ => none

/-- Reads an escape after its backslash. -/
def readEscape (t : Text) : Except Stop (Char × Text) :=
  match t with
  | [] => .error (.at .endInString t)
  | c :: rest =>
    match simpleEscape? c with
    | some d => .ok (d, rest)
    | none => if c = 'u' then readUnicodeEscape rest else .error (.at .invalidEscape t)

/-- Four digits leave no more than there was. -/
theorem length_readHex {t : Text} {r : Nat × Text} (h : readHex t = .ok r) :
    r.2.length ≤ t.length := by
  unfold readHex at h
  split at h
  · split at h
    · obtain rfl := Except.ok.inj h
      simp only [List.length_cons]
      omega
    · cases h
  · split at h <;> cases h

theorem length_expectInEscape {c : Char} {t rest : Text} (h : expectInEscape c t = .ok rest) :
    rest.length ≤ t.length := by
  unfold expectInEscape at h
  split at h
  · cases h
  · split at h
    · cases h
      simp
    · cases h

/-- An escape by number leaves no more than there was, with a second escape for a surrogate pair or
without. -/
theorem length_readUnicodeEscape {t rest : Text} {c : Char}
    (h : readUnicodeEscape t = .ok (c, rest)) : rest.length ≤ t.length := by
  unfold readUnicodeEscape at h
  cases h₁ : readHex t with
  | error e => rw [h₁] at h; cases h
  | ok r₁ =>
    obtain ⟨n, rest₁⟩ := r₁
    have l₁ := length_readHex h₁
    rw [h₁] at h
    simp only [bind, Except.bind, pure, Except.pure] at h
    split at h
    · cases h
    · split at h
      · -- a high surrogate: the second half is one more escape, read in three steps
        cases h₂ : expectInEscape '\\' rest₁ with
        | error e => rw [h₂] at h; cases h
        | ok rest₂ =>
          have l₂ := length_expectInEscape h₂
          rw [h₂] at h
          dsimp only at h
          cases h₃ : expectInEscape 'u' rest₂ with
          | error e => rw [h₃] at h; cases h
          | ok rest₃ =>
            have l₃ := length_expectInEscape h₃
            rw [h₃] at h
            dsimp only at h
            cases h₄ : readHex rest₃ with
            | error e => rw [h₄] at h; cases h
            | ok r₄ =>
              have l₄ := length_readHex h₄
              rw [h₄] at h
              dsimp only at h
              split at h
              · obtain ⟨-, rfl⟩ := Prod.mk.inj (Except.ok.inj h)
                exact Nat.le_trans l₄ (Nat.le_trans l₃ (Nat.le_trans l₂ l₁))
              · cases h
      · cases h
        exact l₁

/-- An escape takes at least the character behind the backslash. That is what lets the reader of a
string go on after it. -/
theorem length_readEscape {t rest : Text} {c : Char} (h : readEscape t = .ok (c, rest)) :
    rest.length < t.length := by
  unfold readEscape at h
  split at h
  · cases h
  · split at h
    · cases h
      simp
    · split at h
      · have := length_readUnicodeEscape h
        simp only [List.length_cons]
        omega
      · cases h

/-- Reads the characters of a string up to its closing quote, where `done` holds
those read so far, the latest first. -/
def readChars (done : Text) (t : Text) : Except Stop (Text × Text) :=
  match t with
  | [] => .error (.at .endInString t)
  | c :: rest =>
    if c = '"' then .ok (done.reverse, rest)
    else if c = '\\' then
      match _h : readEscape rest with
      | .error e => .error e
      | .ok (d, after) => readChars (d :: done) after
    else if c < ' ' then .error (.at .controlCharacter t)
    else readChars (c :: done) rest
termination_by t.length
decreasing_by
  · have := length_readEscape _h
    simp only [List.length_cons]
    omega
  · simp

/-- What follows a string is shorter than the text read, by the closing quote at least. By induction
along the reader, because an escape takes several characters in one step. -/
theorem length_readChars {done t s rest : Text} (h : readChars done t = .ok (s, rest)) :
    rest.length < t.length := by
  fun_induction readChars done t with
  | case1 => cases h
  | case2 => cases h; simp
  | case3 => cases h
  | case4 done rest' d after he _ ih =>
    have := length_readEscape he
    have := ih h
    simp only [List.length_cons]
    omega
  | case5 => cases h
  | case6 done c rest' _ _ _ ih =>
    have := ih h
    simp only [List.length_cons]
    omega

end ConventionalCommit.Json
