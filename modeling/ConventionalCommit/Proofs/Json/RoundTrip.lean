import ConventionalCommit.Json.Printer
import ConventionalCommit.Json.Reader
import Mathlib.Data.List.Nodup

/-!
# ConventionalCommit — reading what is written

A JSON value that is written with a line for each item and member is read back as it was, if
it has no numbers, if its objects have each key once and if it is not nested too deep
(`Readable`). Reading follows the layout: a newline and the indentation are a gap, which is
skipped before each value and each key.

* `readChars_quote`: a string is read back from its literal;
* `read_pretty`: a readable value is read back from the text of it.
-/

namespace ConventionalCommit.Json

variable {depth level : Nat} {c : Char} {s t rest mid more after next key : Text} {v : Json}
  {vs : List Json} {ms done : List (Text × Json)} {readValue : ValueReader}

/-- A reader takes a value from the front of a text and leaves the rest of it. -/
def Takes {α : Type} (r : Except Stop (Taken α t)) (value : α) (rest : Text) : Prop :=
  ∃ h, r = .ok ⟨value, rest, h⟩

-- ---------------------------------------------------------------------------
-- Strings
-- ---------------------------------------------------------------------------

theorem hexNumber?_hexDigits :
    ∀ n < 32, hexNumber? ['0', '0', hexDigit (n / 16), hexDigit n] = some n := by
  decide

/-- A control character is read from its four hexadecimal digits. Its number is too small for a
surrogate, so no second escape is expected. -/
theorem readEscape_control (hc : c < ' ') (rest : Text) :
    readEscape ('u' :: '0' :: '0' :: hexDigit (c.toNat / 16) :: hexDigit c.toNat :: rest) =
      .ok (c, rest) := by
  have hlow : c.toNat < 32 := hc
  have hhex : readHex ('0' :: '0' :: hexDigit (c.toNat / 16) :: hexDigit c.toNat :: rest) =
      .ok (c.toNat, rest) := by
    simp only [readHex, hexNumber?_hexDigits _ hlow]
  have hlead : isLeadSurrogate c.toNat = false := by
    rw [isLeadSurrogate, Bool.and_eq_false_iff, decide_eq_false_iff_not]
    omega
  have htrail : isTrailSurrogate c.toNat = false := by
    rw [isTrailSurrogate, Bool.and_eq_false_iff, decide_eq_false_iff_not]
    omega
  show readUnicodeEscape _ = _
  simp [readUnicodeEscape, hhex, hlead, htrail, bind, Except.bind, pure, Except.pure]

/-- An escape that can be read adds its character, and reading goes on behind it. -/
theorem readChars_backslash (h : readEscape t = .ok (c, rest)) (done : Text) :
    readChars done ('\\' :: t) = readChars (c :: done) rest := by
  rw [readChars, if_neg (by decide), if_pos rfl]
  split
  · next he =>
    rw [h] at he
    cases he
  · next he =>
    rw [h] at he
    cases he
    rfl

/-- A character is read from its escape. -/
theorem readChars_escapeChar (c : Char) (done t : Text) :
    readChars done (escapeChar c ++ t) = readChars (c :: done) t := by
  unfold escapeChar
  split
  all_goals try exact readChars_backslash rfl done
  next hquote hslash _ _ _ _ _ =>
    split
    · next hc => exact readChars_backslash (readEscape_control hc t) done
    · next hc =>
      rw [List.singleton_append, readChars, if_neg hquote, if_neg hslash, if_neg hc]

/-- A string is read from its literal up to the closing quote. A quote in the text is escaped, so it
does not end the string. -/
theorem readChars_quote (s done rest : Text) :
    readChars done (s.flatMap escapeChar ++ '"' :: rest) = .ok (done.reverse ++ s, rest) := by
  induction s generalizing done with
  | nil => rw [List.flatMap_nil, List.nil_append, readChars, if_pos rfl, List.append_nil]
  | cons c s ih =>
    rw [List.flatMap_cons, List.append_assoc, readChars_escapeChar, ih, List.reverse_cons,
      List.append_assoc, List.singleton_append]

/-- The same for the reader that keeps count of what is left, which the other readers need to see
that they come to an end. -/
theorem takeString_quote (s rest : Text) :
    Takes (takeString (s.flatMap escapeChar ++ '"' :: rest)) s rest := by
  rw [takeString]
  split
  · next h =>
    rw [readChars_quote] at h
    cases h
  · next h =>
    rw [readChars_quote] at h
    cases h
    exact ⟨_, rfl⟩

-- ---------------------------------------------------------------------------
-- Names and gaps
-- ---------------------------------------------------------------------------

theorem readName_append (name rest : Text) : readName name (name ++ rest) = .ok rest := by
  induction name with
  | nil => rfl
  | cons n name ih => rw [List.cons_append, readName, if_pos rfl, ih]

/-- A name stands for its value, whatever follows. Nothing requires a gap behind a name. -/
theorem takeName_append (name rest : Text) (v : Json) :
    ∃ h, takeName name v (name ++ rest) = .ok ⟨(v, rest), h⟩ := by
  rw [takeName]
  split
  · next h =>
    rw [readName_append] at h
    cases h
  · next h =>
    rw [readName_append] at h
    cases h
    exact ⟨length_readName h, rfl⟩

theorem skipGap_newline (level : Nat) (t : Text) : skipGap (newline level ++ t) = skipGap t := by
  refine List.dropWhile_append_of_pos fun c hc => ?_
  rcases List.mem_cons.mp hc with rfl | hc
  · rfl
  · rw [List.eq_of_mem_replicate hc]
    rfl

theorem skipGap_cons (hc : isGap c = false) (t : Text) : skipGap (c :: t) = c :: t := by
  rw [skipGap, List.dropWhile_cons_of_neg (by simp [hc])]

-- ---------------------------------------------------------------------------
-- Values
-- ---------------------------------------------------------------------------

/-- The values without numbers whose arrays and objects are nested `depth` deep at most and whose
objects have each key once. -/
inductive Readable : Nat → Json → Prop
  | null (depth : Nat) : Readable depth .null
  | bool (depth : Nat) (b : Bool) : Readable depth (.bool b)
  | string (depth : Nat) (s : Text) : Readable depth (.string s)
  | array {depth : Nat} {vs : List Json} (hitems : ∀ v ∈ vs, Readable depth v) :
    Readable (depth + 1) (.array vs)
  | object {depth : Nat} {ms : List (Text × Json)} (hkeys : (ms.map Prod.fst).Nodup)
    (hvalues : ∀ m ∈ ms, Readable depth m.2) : Readable (depth + 1) (.object ms)

/-- A value begins with a character that is no gap and closes no array. -/
theorem Readable.head (h : Readable depth v) (level : Nat) :
    ∃ c rest, pretty level v = c :: rest ∧ isGap c = false ∧ c ≠ ']' := by
  cases h with
  | null => exact ⟨_, _, rfl, by decide⟩
  | bool _ b => cases b <;> exact ⟨_, _, rfl, by decide⟩
  | string => exact ⟨_, _, rfl, by decide⟩
  | @array _ vs => cases vs <;> exact ⟨_, _, rfl, by decide⟩
  | @object _ ms => cases ms <;> exact ⟨_, _, rfl, by decide⟩

/-- No gap is skipped in front of a value, because its text begins with a character of its own. -/
theorem Readable.skipGap_pretty (h : Readable depth v) (level : Nat) (t : Text) :
    skipGap (pretty level v ++ t) = pretty level v ++ t := by
  obtain ⟨c, rest, hv, hc, -⟩ := h.head level
  rw [hv, List.cons_append, skipGap_cons hc]

/-- The gap in front of the items is skipped, and what stands there does not close the array. -/
theorem Readable.skipGap_prettyItems (h : Readable depth v) (level : Nat) (vs : List Json)
    (t : Text) : ∃ c rest, skipGap (prettyItems level (v :: vs) ++ t) = c :: rest ∧ c ≠ ']' := by
  obtain ⟨c, rest, hv, hc, hne⟩ := h.head level
  cases vs with
  | nil =>
    rw [prettyItems, List.append_assoc, skipGap_newline, h.skipGap_pretty, hv]
    exact ⟨c, _, rfl, hne⟩
  | cons next others =>
    rw [prettyItems, List.append_assoc, List.append_assoc, skipGap_newline, h.skipGap_pretty, hv]
    exact ⟨c, _, rfl, hne⟩

/-- A reader of values reads a value from its text at any level, behind any gap. -/
def ReadsBack (readValue : ValueReader) (v : Json) : Prop :=
  ∀ level t rest, skipGap t = pretty level v ++ rest → Takes (readValue t) v rest

/-- An item that the bracket follows is the last one. -/
theorem takeItems_last (hvalue : Takes (readValue t) v mid) (hend : skipGap mid = ']' :: rest) :
    Takes (takeItems readValue t) [v] rest := by
  obtain ⟨hlt, hvalue⟩ := hvalue
  rw [takeItems, hvalue]
  dsimp only
  split
  · next h => cases hend.symm.trans h
  · next h => cases hend.symm.trans h
  · next h =>
    cases hend.symm.trans h
    exact ⟨_, rfl⟩

/-- An item that a comma follows is read before the others. The character behind the comma must not
be the bracket, since a trailing comma is an error. -/
theorem takeItems_step (hvalue : Takes (readValue t) v mid) (hcomma : skipGap mid = ',' :: more)
    (hmore : skipGap more = c :: next) (hc : c ≠ ']')
    (hothers : Takes (takeItems readValue more) vs rest) :
    Takes (takeItems readValue t) (v :: vs) rest := by
  obtain ⟨hlt, hvalue⟩ := hvalue
  obtain ⟨hlt', hothers⟩ := hothers
  rw [takeItems, hvalue]
  dsimp only
  split
  · next h => cases hcomma.symm.trans h
  · next h =>
    cases hcomma.symm.trans h
    simp only [hmore, if_neg hc, hothers]
    exact ⟨_, rfl⟩
  · next hne h =>
    cases hcomma.symm.trans h
    exact absurd rfl hne

/-- Items are read up to the bracket, if each of them is. By induction on the items, with the text
behind the bracket carried along. -/
theorem takeItems_prettyItems (hread : ∀ v ∈ vs, ReadsBack readValue v)
    (hvs : ∀ v ∈ vs, Readable depth v) (hne : vs ≠ []) (hend : skipGap t = ']' :: rest) :
    Takes (takeItems readValue (prettyItems level vs ++ t)) vs rest := by
  induction vs with
  | nil => exact absurd rfl hne
  | cons v others ih =>
    have hv := hvs v (List.mem_cons_self ..)
    have hback := hread v (List.mem_cons_self ..) level
    -- the last item has no comma behind it
    obtain _ | ⟨next, others⟩ := others
    · rw [prettyItems, List.append_assoc]
      exact takeItems_last (hback _ t (by rw [skipGap_newline, hv.skipGap_pretty])) hend
    · have hnext := hvs next (List.mem_cons_of_mem _ (List.mem_cons_self ..))
      obtain ⟨c, tail, hskip, hc⟩ := hnext.skipGap_prettyItems level others t
      rw [prettyItems, List.append_assoc, List.append_assoc, List.cons_append]
      exact takeItems_step (hback _ _ (by rw [skipGap_newline, hv.skipGap_pretty]))
        (skipGap_cons rfl _) hskip hc (ih (fun v hv => hread v (List.mem_cons_of_mem _ hv))
          (fun v hv => hvs v (List.mem_cons_of_mem _ hv)) (List.cons_ne_nil _ _))

/-- A value is read behind the colon and the gap there. -/
theorem takeMemberValue_of_skipGap (hcolon : skipGap t = ':' :: more)
    (hvalue : Takes (readValue more) v rest) : Takes (takeMemberValue readValue t) v rest := by
  obtain ⟨hlt, hvalue⟩ := hvalue
  rw [takeMemberValue]
  split
  · next h => cases hcolon.symm.trans h
  · next h =>
    cases hcolon.symm.trans h
    rw [if_pos rfl, hvalue]
    exact ⟨_, rfl⟩

/-- A member that the brace follows is the last one. It is set among the members that have been read
before it. -/
theorem takeMembers_last (hkey : skipGap t = quote key ++ ':' :: ' ' :: more)
    (hvalue : Takes (readValue (' ' :: more)) v mid) (hend : skipGap mid = '\x7d' :: rest) :
    Takes (takeMembers readValue done t) (setMember key v done) rest := by
  rw [quote, List.cons_append, List.append_assoc, List.singleton_append] at hkey
  obtain ⟨hlt, hkeyText⟩ := takeString_quote key (':' :: ' ' :: more)
  obtain ⟨hlt', hmember⟩ := takeMemberValue_of_skipGap (skipGap_cons rfl _) hvalue
  rw [takeMembers]
  split
  · next h =>
    cases hkey.symm.trans h
    -- what follows the value is the brace, neither a comma nor anything else
    simp only [hkeyText, hmember]
    split
    · next h => cases hend.symm.trans h
    · next h => cases hend.symm.trans h
    · next h =>
      cases hend.symm.trans h
      exact ⟨_, rfl⟩
  · next h => exact absurd hkey (h _)

/-- A member that a comma follows is set, and then the others are read. A key must stand behind the
comma, since a trailing comma is an error. -/
theorem takeMembers_step (hkey : skipGap t = quote key ++ ':' :: ' ' :: more)
    (hvalue : Takes (readValue (' ' :: more)) v mid) (hcomma : skipGap mid = ',' :: after)
    (hnext : skipGap after = '"' :: next)
    (hothers : Takes (takeMembers readValue (setMember key v done) after) ms rest) :
    Takes (takeMembers readValue done t) ms rest := by
  rw [quote, List.cons_append, List.append_assoc, List.singleton_append] at hkey
  obtain ⟨hlt, hkeyText⟩ := takeString_quote key (':' :: ' ' :: more)
  obtain ⟨hlt', hmember⟩ := takeMemberValue_of_skipGap (skipGap_cons rfl _) hvalue
  obtain ⟨hlt'', hothers⟩ := hothers
  rw [takeMembers]
  split
  · next h =>
    cases hkey.symm.trans h
    -- the key and its value are read; what follows is the comma
    simp only [hkeyText, hmember]
    split
    · next h => cases hcomma.symm.trans h
    · next h =>
      cases hcomma.symm.trans h
      simp only [hnext, if_neg (by decide : '"' ≠ '\x7d'), hothers]
      exact ⟨_, rfl⟩
    · next hne h =>
      cases hcomma.symm.trans h
      exact absurd rfl hne
  · next h => exact absurd hkey (h _)

/-- A key that is not there yet is set at the end, so the members stay in the order in which they
are read. -/
theorem setMember_of_not_mem (h : key ∉ ms.map Prod.fst) (v : Json) :
    setMember key v ms = ms ++ [(key, v)] := by
  induction ms with
  | nil => rfl
  | cons m ms ih =>
    rw [List.map_cons, List.mem_cons, not_or] at h
    rw [setMember, if_neg (Ne.symm h.1), ih h.2, List.cons_append]

theorem prettyMembers_one (level : Nat) (k : Text) (v : Json) (t : Text) :
    prettyMembers level [(k, v)] ++ t =
      newline level ++ (quote k ++ ':' :: ' ' :: (pretty level v ++ t)) := by
  rw [prettyMembers, List.append_assoc, List.append_assoc, List.cons_append, List.cons_append]

theorem prettyMembers_more (level : Nat) (k : Text) (v : Json) (m : Text × Json)
    (ms : List (Text × Json)) (t : Text) :
    prettyMembers level ((k, v) :: m :: ms) ++ t =
      newline level ++ (quote k ++ ':' :: ' ' ::
        (pretty level v ++ ',' :: (prettyMembers level (m :: ms) ++ t))) := by
  simp only [prettyMembers, List.append_assoc, List.cons_append]

/-- The gap in front of a key is skipped up to its quote. -/
theorem skipGap_newline_quote (level : Nat) (k t : Text) :
    skipGap (newline level ++ (quote k ++ t)) = quote k ++ t := by
  rw [skipGap_newline]
  exact skipGap_cons rfl _

/-- Behind the gap in front of the members stands the quote of a key. -/
theorem skipGap_prettyMembers (level : Nat) (m : Text × Json) (ms : List (Text × Json)) (t : Text) :
    ∃ rest, skipGap (prettyMembers level (m :: ms) ++ t) = '"' :: rest := by
  obtain ⟨k, v⟩ := m
  cases ms with
  | nil =>
    rw [prettyMembers_one, skipGap_newline_quote]
    exact ⟨_, rfl⟩
  | cons next others =>
    rw [prettyMembers_more, skipGap_newline_quote]
    exact ⟨_, rfl⟩

/-- Members are read up to the brace, if the value of each of them is, and follow those that are
read before. -/
theorem takeMembers_prettyMembers (done : List (Text × Json))
    (hread : ∀ m ∈ ms, ReadsBack readValue m.2)
    (hms : ∀ m ∈ ms, Readable depth m.2) (hkeys : ((done ++ ms).map Prod.fst).Nodup)
    (hne : ms ≠ []) (hend : skipGap t = '\x7d' :: rest) :
    Takes (takeMembers readValue done (prettyMembers level ms ++ t)) (done ++ ms) rest := by
  induction ms generalizing done with
  | nil => exact absurd rfl hne
  | cons m others ih =>
    obtain ⟨key, v⟩ := m
    have hv := hms _ (List.mem_cons_self ..)
    have hback : ∀ t, skipGap (' ' :: (pretty level v ++ t)) = pretty level v ++ t :=
      fun t => hv.skipGap_pretty level t
    have hvalue : ∀ t, Takes (readValue (' ' :: (pretty level v ++ t))) v t :=
      fun t => hread _ (List.mem_cons_self ..) level _ t (hback t)
    -- the key has not been read before, so it replaces nothing
    have hset : setMember key v done = done ++ [(key, v)] := by
      refine setMember_of_not_mem (fun hmem => ?_) v
      rw [List.map_append, List.nodup_append] at hkeys
      exact hkeys.2.2 _ hmem key (List.mem_cons_self ..) rfl
    obtain _ | ⟨next, others⟩ := others
    · rw [prettyMembers_one, ← hset]
      exact takeMembers_last (skipGap_newline_quote ..) (hvalue t) hend
    · obtain ⟨tail, hskip⟩ := skipGap_prettyMembers level next others t
      have hothers := ih (setMember key v done)
        (fun m hm => hread m (List.mem_cons_of_mem _ hm))
        (fun m hm => hms m (List.mem_cons_of_mem _ hm))
        (by rwa [hset, ← List.append_cons]) (List.cons_ne_nil _ _)
      rw [prettyMembers_more, List.append_cons done, ← hset]
      exact takeMembers_step (skipGap_newline_quote ..) (hvalue _) (skipGap_cons rfl _) hskip
        hothers

-- ---------------------------------------------------------------------------
-- All values
-- ---------------------------------------------------------------------------

/-- An array is read from its text if each of its items is. An empty one is written without a gap.
-/
theorem takeArray_pretty (hread : ∀ v ∈ vs, ReadsBack readValue v)
    (hvs : ∀ v ∈ vs, Readable depth v) (ht : pretty level (.array vs) ++ rest = '[' :: t) :
    Takes (takeArray readValue t) vs rest := by
  rw [takeArray]
  cases vs with
  | nil =>
    obtain rfl : ']' :: rest = t := (List.cons.inj ht).2
    split
    · next h => cases (skipGap_cons rfl rest).symm.trans h
    · next h =>
      cases (skipGap_cons rfl rest).symm.trans h
      exact ⟨_, rfl⟩
  | cons v others =>
    rw [pretty, List.cons_append, List.append_assoc, List.append_assoc] at ht
    obtain rfl := (List.cons.inj ht).2
    -- the first character after the gap begins an item, so it is no closing bracket
    obtain ⟨c, tail, hskip, hc⟩ := (hvs v (List.mem_cons_self ..)).skipGap_prettyItems (level + 1)
      others (newline level ++ ']' :: rest)
    split
    · next h => cases hskip.symm.trans h
    · next h =>
      cases hskip.symm.trans h
      rw [if_neg hc]
      exact takeItems_prettyItems hread hvs (List.cons_ne_nil _ _) (skipGap_newline _ _)

/-- An object is read from its text if the value of each member is. A key that stood there twice
would be read as one member, so the keys must differ. -/
theorem takeObject_pretty (hread : ∀ m ∈ ms, ReadsBack readValue m.2)
    (hms : ∀ m ∈ ms, Readable depth m.2) (hkeys : (ms.map Prod.fst).Nodup)
    (ht : pretty level (.object ms) ++ rest = '\x7b' :: t) :
    Takes (takeObject readValue t) ms rest := by
  rw [takeObject]
  cases ms with
  | nil =>
    obtain rfl : '\x7d' :: rest = t := (List.cons.inj ht).2
    split
    · next h => cases (skipGap_cons rfl rest).symm.trans h
    · next h =>
      cases (skipGap_cons rfl rest).symm.trans h
      exact ⟨_, rfl⟩
  | cons m others =>
    rw [pretty, List.cons_append, List.append_assoc, List.append_assoc] at ht
    obtain rfl := (List.cons.inj ht).2
    -- the first character after the gap is the quote of a key
    obtain ⟨tail, hskip⟩ := skipGap_prettyMembers (level + 1) m others
      (newline level ++ '\x7d' :: rest)
    split
    · next h => cases hskip.symm.trans h
    · next h =>
      cases hskip.symm.trans h
      rw [if_neg (by decide)]
      exact takeMembers_prettyMembers [] hread hms hkeys (List.cons_ne_nil _ _)
        (skipGap_newline _ _)

/-- A readable value is read back at any level of indentation, by induction on what makes it
readable. The first character of the text tells which kind of value it is. -/
theorem readsBack_takeValue (h : Readable depth v) : ReadsBack (takeValue depth) v := by
  induction h with
  -- the first character tells the kinds of values apart, so each kind takes its own branch
  | null depth =>
    intro level t rest ht
    obtain ⟨hle, hname⟩ := takeName_append "ull".toList rest .null
    have ht : skipGap t = 'n' :: ("ull".toList ++ rest) := ht
    rw [takeValue]
    split
    · next h => cases ht.symm.trans h
    · next h =>
      cases ht.symm.trans h
      simp only [if_pos, hname]
      exact ⟨_, rfl⟩
  | bool depth b =>
    intro level t rest ht
    cases b with
    | true =>
      obtain ⟨hle, hname⟩ := takeName_append "rue".toList rest (.bool true)
      have ht : skipGap t = 't' :: ("rue".toList ++ rest) := ht
      rw [takeValue]
      split
      · next h => cases ht.symm.trans h
      · next h =>
        cases ht.symm.trans h
        simp only [if_pos, if_neg (by decide : 't' ≠ 'n'), hname]
        exact ⟨_, rfl⟩
    | false =>
      obtain ⟨hle, hname⟩ := takeName_append "alse".toList rest (.bool false)
      have ht : skipGap t = 'f' :: ("alse".toList ++ rest) := ht
      rw [takeValue]
      split
      · next h => cases ht.symm.trans h
      · next h =>
        cases ht.symm.trans h
        simp only [if_pos, if_neg (by decide : 'f' ≠ 'n'), if_neg (by decide : 'f' ≠ 't'), hname]
        exact ⟨_, rfl⟩
  | string depth s =>
    intro level t rest ht
    obtain ⟨hlt, hstring⟩ := takeString_quote s rest
    rw [pretty, quote, List.cons_append, List.append_assoc, List.singleton_append] at ht
    rw [takeValue]
    split
    · next h => cases ht.symm.trans h
    · next h =>
      cases ht.symm.trans h
      simp only [hstring]
      exact ⟨_, rfl⟩
  | @array depth vs hitems ih =>
    intro level t rest ht
    obtain ⟨u, hu⟩ : ∃ u, pretty level (.array vs) = '[' :: u := by cases vs <;> exact ⟨_, rfl⟩
    rw [takeValue]
    split
    · next h =>
      rw [ht, hu] at h
      cases h
    · next h =>
      have hlayout := ht.symm.trans h
      obtain rfl := (List.cons.inj (hu ▸ hlayout)).1
      obtain ⟨hlt, harray⟩ := takeArray_pretty ih hitems hlayout
      simp only [harray]
      exact ⟨_, rfl⟩
  | @object depth ms hkeys hvalues ih =>
    intro level t rest ht
    obtain ⟨u, hu⟩ : ∃ u, pretty level (.object ms) = '\x7b' :: u := by cases ms <;> exact ⟨_, rfl⟩
    rw [takeValue]
    split
    · next h =>
      rw [ht, hu] at h
      cases h
    · next h =>
      have hlayout := ht.symm.trans h
      obtain rfl := (List.cons.inj (hu ▸ hlayout)).1
      obtain ⟨hlt, hobject⟩ := takeObject_pretty ih hvalues hkeys hlayout
      simp only [hobject]
      exact ⟨_, rfl⟩

/-- A readable value is read from a text of it that ends in a newline. -/
theorem read_pretty (h : Readable nestingLimit v) : read (pretty 0 v ++ ['\n']) = .ok v := by
  obtain ⟨hlt, hvalue⟩ := readsBack_takeValue h 0 _ _ (h.skipGap_pretty 0 ['\n'])
  rw [read, hvalue]
  rfl

end ConventionalCommit.Json
