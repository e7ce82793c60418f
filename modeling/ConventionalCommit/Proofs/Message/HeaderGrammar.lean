import ConventionalCommit.Proofs.Message.HeaderFields
import ConventionalCommit.Proofs.Message.SectionTexts

/-!
# ConventionalCommit — the header pattern and the grammar of headers

The header pattern is a regular expression,

    ^(\w+)(\(([^()\r\n]+)\))?(!)?:\s+(.*)$

and a matcher that backtracks tries the ways to match it in a fixed order: an optional part is
tried before it is left out, and a repetition takes as many characters as it can before it takes
fewer. `Header.ways` lists all ways in this order, and the first of them counts.

Three parts of the pattern compete for characters with what follows them. A word that stops early
is followed by a character that neither scope nor mark nor colon admits, and a scope that stops
early by one that is no parenthesis, so each of these has one way to match at most. White space
after the colon may belong to the subject as well, so a line can match in several ways, and there
the order decides: the gap takes all of it.

* `read?_eq_head?_ways`: reading a header finds the first way;
* `headerFields_parse`: the header fields of a message, by the grammar of its first line.
-/

namespace ConventionalCommit

open Unicode (isWhite isWordChar)

namespace Header

variable {kind : Char → Bool} {line t u type : Text} {scope : Option Text} {marked : Bool}
  {c x : Char} {β : Type}

-- ---------------------------------------------------------------------------
-- The ways to match
-- ---------------------------------------------------------------------------

/-- The ways to take one or more characters of a kind from the front of a text, each with what is
left. The most characters come first. -/
def takesSome (kind : Char → Bool) : Text → List (Text × Text)
  | [] => []
  | c :: rest =>
    if kind c then (takesSome kind rest ++ [([], rest)]).map (Prod.map (c :: ·) id) else []

/-- The ways to take any number of characters of a kind. -/
def takes (kind : Char → Bool) (t : Text) : List (Text × Text) := takesSome kind t ++ [([], t)]

/-- What is left when a text begins with a character. -/
def takesChar (x : Char) : Text → List Text
  | [] => []
  | c :: rest => if c = x then [rest] else []

/-- The ways to take a scope in parentheses, or nothing. -/
def takesScope (t : Text) : List (Option Text × Text) :=
  ((takesChar '(' t).flatMap fun inner =>
    (takesSome isScopeChar inner).flatMap fun scope =>
      (takesChar ')' scope.2).map fun rest => (some scope.1, rest)) ++ [(none, t)]

/-- The ways to take a mark, or nothing. -/
def takesMark (t : Text) : List (Bool × Text) :=
  (takesChar '!' t).map (fun rest => (true, rest)) ++ [(false, t)]

/-- The ways to take a text up to its end, without a newline. -/
def takesToEnd (t : Text) : List Text :=
  ((takes (· != '\n') t).filter fun r => r.2.isEmpty).map Prod.fst

/-- The ways in which the header pattern matches a line, in the order in which they are tried. -/
def ways (line : Text) : List Header :=
  (takesSome isWordChar line).flatMap fun type =>
    (takesScope type.2).flatMap fun scope =>
      (takesMark scope.2).flatMap fun mark =>
        (takesChar ':' mark.2).flatMap fun rest =>
          (takesSome isWhite rest).flatMap fun gap =>
            (takesToEnd gap.2).map fun subject =>
              { type := type.1, scope := scope.1, marked := mark.1, gap := gap.1, subject }

-- ---------------------------------------------------------------------------
-- The parts with one way to match
-- ---------------------------------------------------------------------------

/-- The first way takes as many characters as there are, and there is no way without one. -/
theorem head?_takesSome (kind : Char → Bool) (t : Text) : (takesSome kind t).head? =
    if t.takeWhile kind = [] then none else some (t.takeWhile kind, t.dropWhile kind) := by
  induction t with
  | nil => rfl
  | cons c rest ih =>
    unfold takesSome
    by_cases hc : kind c = true
    · rw [if_pos hc, List.head?_map, List.head?_append, ih, List.takeWhile_cons_of_pos hc,
        List.dropWhile_cons_of_pos hc, if_neg (List.cons_ne_nil _ _)]
      split
      · -- the character is the last of its kind, so it is taken alone
        next hnil =>
        have hrest := List.takeWhile_append_dropWhile (p := kind) (l := rest)
        rw [hnil, List.nil_append] at hrest
        rw [hnil, hrest]
        rfl
      · rfl
    · rw [if_neg hc, List.takeWhile_cons_of_neg hc]
      rfl

/-- If nothing can follow that begins with a character of the kind, all characters of the kind have
to be taken. -/
theorem flatMap_takesSome {f : Text × Text → List β}
    (hf : ∀ s c u, kind c = true → f (s, c :: u) = []) (t : Text) : (takesSome kind t).flatMap f =
      if t.takeWhile kind = [] then [] else f (t.takeWhile kind, t.dropWhile kind) := by
  induction t generalizing f with
  | nil => rfl
  | cons c rest ih =>
    unfold takesSome
    by_cases hc : kind c = true
    · rw [if_pos hc, List.map_append, List.flatMap_append, List.flatMap_map, List.map_singleton,
        List.flatMap_singleton, List.takeWhile_cons_of_pos hc, List.dropWhile_cons_of_pos hc,
        if_neg (List.cons_ne_nil _ _), ih fun s d u hd => hf (c :: s) d u hd]
      -- of two ways that differ by a character, the shorter one leaves that character in front
      cases rest with
      | nil => rfl
      | cons d rest =>
        by_cases hd : kind d = true
        · have hmore : f (Prod.map (c :: ·) id ([], d :: rest)) = [] := hf [c] d rest hd
          rw [hmore, List.append_nil, List.takeWhile_cons_of_pos hd, if_neg (List.cons_ne_nil _ _)]
          rfl
        · rw [List.takeWhile_cons_of_neg hd, if_pos rfl, List.dropWhile_cons_of_neg hd]
          rfl
    · rw [if_neg hc, List.takeWhile_cons_of_neg hc]
      rfl

/-- There is no way to take a character that is not there. -/
theorem takesChar_eq_nil (h : ∀ rest, t ≠ x :: rest) : takesChar x t = [] := by
  cases t with
  | nil => rfl
  | cons c rest =>
    rw [takesChar, if_neg]
    rintro rfl
    exact h rest rfl

/-- A scope is taken whenever there is one, if nothing else can follow that begins with a
parenthesis. -/
theorem flatMap_takesScope {f : Option Text × Text → List β} (hf : ∀ u, f (none, '(' :: u) = [])
    (t : Text) : (takesScope t).flatMap f = f (readScope t) := by
  -- a scope that stops early would be closed by one of its own characters
  have hclose : ∀ c u, isScopeChar c = true → takesChar ')' (c :: u) = [] := by
    intro c u hc
    rw [takesChar, if_neg]
    rintro rfl
    exact absurd hc (by decide)
  unfold takesScope readScope
  split
  · next rest =>
    rw [takesChar, if_pos rfl, List.flatMap_singleton,
      flatMap_takesSome fun s d u hd => by rw [hclose d u hd]; rfl, List.flatMap_append,
      List.flatMap_singleton, hf, List.append_nil]
    generalize rest.takeWhile isScopeChar = scope
    generalize rest.dropWhile isScopeChar = after
    cases scope with
    | nil => exact (hf rest).symm
    | cons c cs =>
      rw [if_neg (List.cons_ne_nil _ _)]
      split
      · next hscope =>
        rw [takesChar, if_pos rfl, ← hscope]
        exact List.flatMap_singleton ..
      · next hno =>
        rw [takesChar_eq_nil fun ds hds => hno c cs ds rfl hds, hf]
        rfl
  · next hno =>
    rw [takesChar_eq_nil hno]
    simp

/-- A mark is taken whenever there is one, if nothing else can follow that begins with it. -/
theorem flatMap_takesMark {f : Bool × Text → List β} (hf : ∀ u, f (false, '!' :: u) = [])
    (t : Text) : (takesMark t).flatMap f = f (readMark t) := by
  unfold takesMark readMark
  split
  · simp [takesChar, hf]
  · next hno =>
    rw [takesChar_eq_nil hno]
    simp

/-- Taking characters loses nothing: in each way, what is taken and what is left make up the text.
-/
theorem append_of_mem_takesSome {r : Text × Text} (h : r ∈ takesSome kind t) : r.1 ++ r.2 = t := by
  induction t generalizing r with
  | nil => cases h
  | cons c rest ih =>
    unfold takesSome at h
    split at h
    · obtain ⟨q, hq, rfl⟩ := List.mem_map.mp h
      show c :: (q.1 ++ q.2) = c :: rest
      rcases List.mem_append.mp hq with hq | hq
      · rw [ih hq]
      · rw [List.mem_singleton.mp hq]
        rfl
    · cases h

/-- One way takes all characters, and it is the first. The others leave something, so they do not
reach the end of the line. -/
theorem filter_takes_isEmpty (h : ∀ c ∈ t, kind c = true) :
    (takes kind t).filter (fun r => r.2.isEmpty) = [(t, [])] := by
  induction t with
  | nil => rfl
  | cons c rest ih =>
    have hc := h c (List.mem_cons_self ..)
    rw [takes, takesSome, if_pos hc, ← takes, List.filter_append, List.filter_map]
    have hrest := ih fun d hd => h d (List.mem_cons_of_mem _ hd)
    show List.map _ ((takes kind rest).filter fun r => r.2.isEmpty) ++ _ = _
    rw [hrest]
    rfl

/-- A line has one end, so the subject is what is left of it. -/
theorem takesToEnd_of_not_mem (h : '\n' ∉ t) : takesToEnd t = [t] := by
  have hall : ∀ c ∈ t, (c != '\n') = true := by
    intro c hc
    rw [bne_iff_ne]
    rintro rfl
    exact h hc
  rw [takesToEnd, filter_takes_isEmpty hall]
  rfl

-- ---------------------------------------------------------------------------
-- The first way
-- ---------------------------------------------------------------------------

/-- What a header has from its colon on. -/
def waysFromColon (type : Text) (scope : Option Text) (marked : Bool) (t : Text) : List Header :=
  (takesChar ':' t).flatMap fun rest =>
    (takesSome isWhite rest).flatMap fun gap =>
      (takesToEnd gap.2).map fun subject => { type, scope, marked, gap := gap.1, subject }

theorem waysFromColon_eq_nil (hc : c ≠ ':') (u : Text) :
    waysFromColon type scope marked (c :: u) = [] := by
  rw [waysFromColon, takesChar, if_neg hc]
  rfl

/-- What a header has after its type. -/
def waysAfterType (type t : Text) : List Header :=
  (takesScope t).flatMap fun scope =>
    (takesMark scope.2).flatMap fun mark => waysFromColon type scope.1 mark.1 mark.2

/-- Scope and mark are taken in one way each. Neither of them may be left out where it stands,
because the colon would have to be there. -/
theorem waysAfterType_eq (type t : Text) : waysAfterType type t =
    waysFromColon type (readScope t).1 (readMark (readScope t).2).1
      (readMark (readScope t).2).2 := by
  have hmark : ∀ (scope : Option Text) (t : Text), (takesMark t).flatMap
      (fun mark => waysFromColon type scope mark.1 mark.2) =
        waysFromColon type scope (readMark t).1 (readMark t).2 := by
    intro scope t
    exact flatMap_takesMark (fun u => waysFromColon_eq_nil (by decide) u) t
  unfold waysAfterType
  simp only [hmark]
  exact flatMap_takesScope (fun u => waysFromColon_eq_nil (by decide) u) t

theorem readScope_cons_of_ne (hc : c ≠ '(') (u : Text) : readScope (c :: u) = (none, c :: u) := by
  unfold readScope
  split
  · next h => exact absurd (List.cons.inj h).1 hc
  · rfl

theorem readMark_cons_of_ne (hc : c ≠ '!') (u : Text) : readMark (c :: u) = (false, c :: u) := by
  unfold readMark
  split
  · next h => exact absurd (List.cons.inj h).1 hc
  · rfl

/-- A type is not followed by a word character, so a shorter type cannot be completed to a header.
-/
theorem waysAfterType_of_isWordChar (hc : isWordChar c = true) (type u : Text) :
    waysAfterType type (c :: u) = [] := by
  have hne : ∀ x, isWordChar x = false → c ≠ x := by
    intro x hx
    rintro rfl
    rw [hc] at hx
    cases hx
  rw [waysAfterType_eq, readScope_cons_of_ne (hne '(' (by decide))]
  dsimp only
  rw [readMark_cons_of_ne (hne '!' (by decide))]
  exact waysFromColon_eq_nil (hne ':' (by decide)) u

/-- Up to the colon there is one way at most. -/
theorem ways_eq (line : Text) : ways line =
    if line.takeWhile isWordChar = [] then []
    else waysAfterType (line.takeWhile isWordChar) (line.dropWhile isWordChar) := by
  show (takesSome isWordChar line).flatMap (fun type => waysAfterType type.1 type.2) = _
  exact flatMap_takesSome (fun type _ u hc => waysAfterType_of_isWordChar hc type u) line

/-- White space after the colon belongs to the gap in the first way, all of it. The ways with a
shorter gap come later. -/
theorem head?_waysFromColon {rest : Text} (h : '\n' ∉ rest) :
    (waysFromColon type scope marked (':' :: rest)).head? =
      if rest.takeWhile isWhite = [] then none
      else some ⟨type, scope, marked, rest.takeWhile isWhite, rest.dropWhile isWhite⟩ := by
  -- each gap leaves one subject
  have hsingle : (takesSome isWhite rest).flatMap (fun gap => (takesToEnd gap.2).map fun subject =>
      (⟨type, scope, marked, gap.1, subject⟩ : Header)) =
        (takesSome isWhite rest).map fun gap => ⟨type, scope, marked, gap.1, gap.2⟩ := by
    rw [List.map_eq_flatMap]
    refine List.flatMap_congr fun gap hgap => ?_
    have hno : '\n' ∉ gap.2 := by
      intro hn
      rw [← append_of_mem_takesSome hgap] at h
      exact h (List.mem_append_right _ hn)
    rw [takesToEnd_of_not_mem hno]
    rfl
  rw [waysFromColon, takesChar, if_pos rfl, List.flatMap_singleton, hsingle, List.head?_map,
    head?_takesSome]
  split <;> rfl

/-- Reading a header finds the first way in which the pattern matches the line. Each piece is taken
as long as it can be, and where what follows does not fit then, it would not fit a shorter piece
either. -/
theorem read?_eq_head?_ways (h : '\n' ∉ line) : read? line = (ways line).head? := by
  rw [ways_eq, waysAfterType_eq]
  unfold read?
  dsimp only
  generalize hscope : readScope (line.dropWhile isWordChar) = scope
  generalize hmark : readMark scope.2 = mark
  -- what is left behind the mark is part of the line
  have hafter : '\n' ∉ mark.2 := by
    intro hn
    have hline := List.takeWhile_append_dropWhile (p := isWordChar) (l := line)
    have hscoped := scopeText_readScope (line.dropWhile isWordChar)
    have hmarked := markText_readMark scope.2
    rw [hscope] at hscoped
    rw [hmark] at hmarked
    rw [← hline, ← hscoped, ← hmarked] at h
    exact h (by simp [hn])
  generalize line.takeWhile isWordChar = type
  obtain ⟨marked, after⟩ := mark
  dsimp only at *
  cases type with
  | nil => rfl
  | cons t ts =>
    rw [if_neg (List.cons_ne_nil _ _)]
    split
    · next _ _ rest htype =>
      obtain ⟨rfl, rfl⟩ := List.cons.inj htype
      rw [head?_waysFromColon fun hn => hafter (List.mem_cons_of_mem _ hn)]
      generalize rest.takeWhile isWhite = gap
      cases gap with
      | nil => rfl
      | cons g gs => rfl
    · next after _ _ hno =>
      cases after with
      | nil => rfl
      | cons c rest =>
        rw [waysFromColon_eq_nil]
        · rfl
        · rintro rfl
          exact hno t ts rest rfl rfl

end Header

-- ---------------------------------------------------------------------------
-- The header fields of a message
-- ---------------------------------------------------------------------------

namespace Message

open Text (trimmed?)

variable {raw : Text} {p : Header}

/-- If the first line is made up of the pieces of a header, the fields are what the pieces hold. So
there is one way to make it up. -/
theorem headerFields_of_header (wf : p.WellFormed) (htext : p.text = raw.firstLine) :
    (parse raw).type = some p.type ∧ (parse raw).scope = p.scope.bind trimmed? ∧
      (parse raw).marked = p.marked ∧ (parse raw).subject = trimmed? p.subject := by
  have hdraft := Draft.ofMessage_parse raw
  have hread := Header.read?_eq_some_iff.mpr ⟨wf, htext⟩
  rw [header_parse, Draft.readHeader_of_read? hread] at hdraft
  exact ⟨congrArg Draft.type hdraft, congrArg Draft.scope hdraft, congrArg Draft.marked hdraft,
    congrArg Draft.subject hdraft⟩

/-- If it is not, the line is the subject and the other fields stay empty. -/
theorem headerFields_of_no_header (h : ¬ Header.Fits raw.firstLine) :
    (parse raw).type = none ∧ (parse raw).scope = none ∧ (parse raw).marked = false ∧
      (parse raw).subject = trimmed? raw.firstLine := by
  have hdraft := Draft.ofMessage_parse raw
  rw [header_parse, Draft.readHeader_untyped (Header.read?_eq_none_iff.mpr h)] at hdraft
  exact ⟨congrArg Draft.type hdraft, congrArg Draft.scope hdraft, congrArg Draft.marked hdraft,
    congrArg Draft.subject hdraft⟩

/--
A message has a type exactly if its first line is made up of the pieces of a header, and then there
are no other such pieces: the fields are what they hold, trimmed. Otherwise the first line is the
subject. The pieces are those that a greedy match of the header pattern finds first.
-/
theorem headerFields_parse (raw : Text) :
    ((parse raw).type ≠ none ↔ ∃! p : Header, p.WellFormed ∧ p.text = raw.firstLine) ∧
      (∀ p : Header, p.WellFormed → p.text = raw.firstLine →
        (parse raw).type = some p.type ∧ (parse raw).scope = p.scope.bind trimmed? ∧
          (parse raw).marked = p.marked ∧ (parse raw).subject = trimmed? p.subject) ∧
      ((¬ ∃ p : Header, p.WellFormed ∧ p.text = raw.firstLine) →
        (parse raw).type = none ∧ (parse raw).scope = none ∧ (parse raw).marked = false ∧
          (parse raw).subject = trimmed? raw.firstLine) ∧
      ∀ p : Header, (Header.ways raw.firstLine).head? = some p ↔
        p.WellFormed ∧ p.text = raw.firstLine := by
  refine ⟨⟨fun htype => ?_, ?_⟩, fun p wf htext => headerFields_of_header wf htext,
    headerFields_of_no_header, fun p => ?_⟩
  · -- the reader finds pieces if there are any, and it can give one answer only
    cases hread : Header.read? raw.firstLine with
    | none => exact absurd (headerFields_of_no_header (Header.read?_eq_none_iff.mp hread)).1 htype
    | some p =>
      refine ⟨p, Header.read?_eq_some_iff.mp hread, fun q hq => ?_⟩
      rw [Header.read?_eq_some_iff.mpr hq] at hread
      exact Option.some.inj hread
  · rintro ⟨p, ⟨wf, htext⟩, -⟩
    rw [(headerFields_of_header wf htext).1]
    exact Option.some_ne_none _
  · -- the first way of the backtracking matcher
    rw [← Header.read?_eq_head?_ways (Text.not_mem_firstLine raw)]
    exact Header.read?_eq_some_iff

/-- White space that the gap leaves to the subject is the second way to match. -/
example : Header.ways "fix(a)!:  b".toList =
    [⟨"fix".toList, some "a".toList, true, "  ".toList, "b".toList⟩,
      ⟨"fix".toList, some "a".toList, true, " ".toList, " b".toList⟩] := by
  decide

end Message

end ConventionalCommit
