import ConventionalCommit.Proofs.Unicode.Tables

/-!
# ConventionalCommit — word characters and their case

The case mappings and the set of word characters are tables of different age. Two
capitals are too young for the word characters although their small letters are old
enough (`youngCapitals`), so taking them to lower case makes a word of what was none.
Nothing else does.

* `CaseMapping.WordsFrom.isWordChar_of_mem_map`: where a word character comes from;
* `lowerMapping_wordsFrom`, `upperMapping_wordsFrom`: the exceptions of the two mappings.
-/

namespace ConventionalCommit.Unicode

/-- The capitals that are no word characters yet, although their small letters are. -/
def youngCapitals : List Char := ['\ua7d2', '\ua7d4']

/-- Each code point of the run whose image is a word character is one itself, or one of
the exceptions. Only where the ends of the run do not decide it are the code points checked
one by one. -/
def Run.staysInWords (exceptions : List Char) (r : Run) : Bool :=
  wordChars.covers r.first r.last || wordChars.spares r.low r.high ||
    r.points.all fun n => wordChars.contains n || exceptions.any (·.toNat == n) ||
      !(r.image? n).any wordChars.contains

/-- A mapping makes word characters of word characters only, exceptions aside, and
keeps to them where it yields several characters. -/
structure CaseMapping.WordsFrom (exceptions : List Char) (m : CaseMapping) : Prop where
  runs : m.runs.all (Run.staysInWords exceptions) = true
  several : m.several.all (fun e => wordChars.contains e.1 && e.2.all isWordChar) = true

/-- The lower case forms that are word characters come of word characters, with two exceptions. The
tables of letters and of word characters are of different ages. -/
theorem lowerMapping_wordsFrom : lowerMapping.WordsFrom youngCapitals where
  runs := by decide +kernel
  several := by decide +kernel

/-- For upper case there is no exception. -/
theorem upperMapping_wordsFrom : upperMapping.WordsFrom [] where
  runs := by decide +kernel
  several := by decide +kernel

variable {m : CaseMapping} {exceptions : List Char} {r : Run} {n k : Nat} {c d : Char}

/-- If a run stays in words, what it maps to a word character is one, or is an exception. -/
theorem Run.contains_of_staysInWords (hr : r.staysInWords exceptions = true)
    (h : r.image? n = some k) (hk : wordChars.contains k = true) :
    wordChars.contains n = true ∨ ∃ x ∈ exceptions, x.toNat = n := by
  obtain ⟨hfirst, hlast⟩ := Run.image?_domain h
  obtain ⟨hlow, hhigh⟩ := Run.image?_bounds h
  rw [staysInWords, Bool.or_eq_true, Bool.or_eq_true] at hr
  rcases hr with (hcovers | hspares) | hpoints
  · exact Or.inl (Ranges.contains_of_covers hcovers hfirst hlast)
  · rw [Ranges.contains_of_spares hspares hlow hhigh] at hk
    cases hk
  · have hn := List.all_eq_true.mp hpoints n (Run.mem_points h)
    rw [h, Option.any_some, hk] at hn
    simpa using hn

namespace CaseMapping

/-- A word character comes from a word character or from an exception. The exceptions are listed,
because the case tables know letters that the word table does not. -/
theorem WordsFrom.isWordChar_of_mem_map (hw : m.WordsFrom exceptions) (hm : m.Closed) (hd : d ∈ m.map c)
    (hword : isWordChar d = true) : isWordChar c = true ∨ c ∈ exceptions := by
  rcases map_cases m c with h | ⟨r, hr, k, himage, h⟩ | h
  · have := List.all_eq_true.mp hw.several _ h
    rw [Bool.and_eq_true] at this
    exact Or.inl this.1
  · rw [h, List.mem_singleton] at hd
    rw [hd, isWordChar, hm.toNat_ofNat hr himage] at hword
    have hstays := List.all_eq_true.mp hw.runs r hr
    refine (Run.contains_of_staysInWords hstays himage hword).imp_right ?_
    rintro ⟨x, hx, hxn⟩
    rwa [← Char.ofNat_toNat c, ← hxn, Char.ofNat_toNat]
  · rw [h, List.mem_singleton] at hd
    exact Or.inl (hd ▸ hword)

/-- Where there are several images, they are word characters. -/
theorem WordsFrom.eq_singleton_or (hw : m.WordsFrom exceptions) (c : Char) :
    (∃ d, m.map c = [d]) ∨ ∀ d ∈ m.map c, isWordChar d = true := by
  rcases map_cases m c with h | ⟨r, -, k, -, h⟩ | h
  · have := List.all_eq_true.mp hw.several _ h
    rw [Bool.and_eq_true] at this
    exact Or.inr (List.all_eq_true.mp this.2)
  · exact Or.inl ⟨_, h⟩
  · exact Or.inl ⟨_, h⟩

end CaseMapping

end ConventionalCommit.Unicode
