import ConventionalCommit.Proofs.Text.Tight
import ConventionalCommit.Text.Wrap
import Mathlib.Data.List.Basic

/-!
# ConventionalCommit — filling long lines

A long line is cut into tokens, and the tokens are distributed over rows. The
invariant of the greedy distribution is that every row that is closed fits, and
that the row that is still open fits so far (`fillAfter_fits`).

* `Pieces.eq_chunks`: there is one way to cut a word into full pieces;
* `of_mem_fillLine`: each row is the indentation and some tokens, and it fits;
* `tight_of_mem_fillLine`: without an indentation each row is tight.
-/

namespace ConventionalCommit.Text

open Unicode (isWhite)

variable {n room width : Nat} {t u line row : Text} {ts : List Text} {c : Char}

-- ---------------------------------------------------------------------------
-- Tokens
-- ---------------------------------------------------------------------------

/-- A text in consecutive pieces of `n` characters, the last one of `n` at most. -/
structure Pieces (n : Nat) (t : Text) (pieces : List Text) : Prop where
  flatten : pieces.flatten = t
  full : ∀ p ∈ pieces.dropLast, p.length = n
  last : ∀ p ∈ pieces.getLast?, 0 < p.length ∧ p.length ≤ n

/-- The pieces that a word is cut into make up the word, and all of them are full except that the
last may be shorter. The induction is on the length, because `chunks` goes on with what is left
after a full piece. -/
theorem pieces_chunks (hn : 0 < n) (ht : t ≠ []) : Pieces n t (chunks n t) := by
  induction hlen : t.length using Nat.strong_induction_on generalizing t with
  | _ len ih =>
    rw [chunks_eq]
    split
    · next hfits =>
      have hpos := List.length_pos_iff.mpr ht
      refine ⟨by simp, by simp, fun p hp => ?_⟩
      obtain rfl : t = p := Option.some.inj hp
      omega
    · next hlong =>
      have hdrop : (t.drop n).length = t.length - n := List.length_drop
      have hrest : Pieces n (t.drop n) (chunks n (t.drop n)) :=
        ih _ (by omega) (List.ne_nil_of_length_pos (by omega)) rfl
      -- what is left is not empty, so it gives the last piece
      have hne : chunks n (t.drop n) ≠ [] := by
        intro hnil
        have hflat := hrest.flatten
        rw [hnil] at hflat
        rw [← hflat, List.flatten_nil, List.length_nil] at hdrop
        omega
      refine ⟨?_, fun p hp => ?_, fun p hp => hrest.last p ?_⟩
      · rw [List.flatten_cons, hrest.flatten, List.take_append_drop]
      · rw [List.dropLast_cons_of_ne_nil hne] at hp
        rcases List.mem_cons.mp hp with rfl | hp
        · exact List.length_take_of_le (by omega)
        · exact hrest.full p hp
      · rwa [List.getLast?_cons_of_ne_nil hne] at hp

/-- There is no other way to cut a text into such pieces. All but the last are full, so each border
is where it has to be. -/
theorem Pieces.eq_chunks {pieces : List Text} (ht : t ≠ []) (h : Pieces n t pieces) :
    pieces = chunks n t := by
  induction pieces generalizing t with
  | nil => exact absurd h.flatten.symm ht
  | cons p rest ih =>
    have hflat := h.flatten
    rw [List.flatten_cons] at hflat
    rw [chunks_eq]
    by_cases hrest : rest = []
    · rw [hrest, List.flatten_nil, List.append_nil] at hflat
      have hp := h.last p (by rw [hrest]; rfl)
      rw [hflat] at hp
      rw [if_pos (Or.inr hp.2), hrest, hflat]
    · have hp : p.length = n := h.full p (by
        rw [List.dropLast_cons_of_ne_nil hrest]
        exact List.mem_cons_self ..)
      have htail : Pieces n rest.flatten rest := by
        refine ⟨rfl, fun q hq => h.full q ?_, fun q hq => h.last q ?_⟩
        · rw [List.dropLast_cons_of_ne_nil hrest]
          exact List.mem_cons_of_mem _ hq
        · rwa [List.getLast?_cons_of_ne_nil hrest]
      obtain ⟨front, last, hconcat⟩ := (List.eq_nil_or_concat' rest).resolve_left hrest
      have hlast := htail.last last (by rw [hconcat]; exact List.getLast?_concat)
      have hpos : 0 < rest.flatten.length := by
        rw [hconcat, List.flatten_concat, List.length_append]
        omega
      -- a word that has pieces behind a full one is longer than a piece
      have hlong : ¬ (n = 0 ∨ t.length ≤ n) := by
        rw [← hflat, List.length_append]
        omega
      rw [if_neg hlong, ← hflat, List.take_left' hp, List.drop_left' hp,
        ← ih (List.ne_nil_of_length_pos hpos) htail]

/-- No piece is empty, and none has more characters than there is room for. -/
theorem of_mem_chunks (hn : 0 < n) (ht : t ≠ []) (hu : u ∈ chunks n t) :
    u ≠ [] ∧ u.length ≤ n := by
  have h := pieces_chunks hn ht
  obtain ⟨front, last, hconcat⟩ :=
    (List.eq_nil_or_concat' (chunks n t)).resolve_left (List.ne_nil_of_mem hu)
  rw [hconcat] at h hu
  rcases List.mem_append.mp hu with hu | hu
  · have hfull := h.full u (by rwa [List.dropLast_concat])
    exact ⟨List.ne_nil_of_length_pos (by omega), by omega⟩
  · rw [List.mem_singleton.mp hu]
    obtain ⟨hpos, hfits⟩ := h.last last List.getLast?_concat
    exact ⟨List.ne_nil_of_length_pos hpos, hfits⟩

theorem of_mem_words (h : u ∈ t.words) : u ≠ [] ∧ ∀ c ∈ u, isWhite c = false := by
  refine ⟨ne_nil_of_mem_runs h, fun c hc => ?_⟩
  have hmem : c ∈ (runs isWhite t).flatten := List.mem_flatten.mpr ⟨u, h, hc⟩
  rw [flatten_runs, List.mem_filter] at hmem
  simpa using hmem.2

/-- A text without white space that fits into `room` characters. -/
structure Token (room : Nat) (t : Text) : Prop where
  ne_nil : t ≠ []
  fits : t.length ≤ room
  solid : ∀ c ∈ t, isWhite c = false

theorem Token.tight (h : Token room t) : Tight t :=
  ⟨h.ne_nil, fun c hc => h.solid c (List.mem_of_mem_head? hc),
    fun c hc => h.solid c (List.mem_of_mem_getLast? hc)⟩

/-- The tokens of a line are made for the room that they go into: each fits, also if the word that
it comes from does not. -/
theorem token_of_mem_tokens (hroom : 0 < room) (h : u ∈ tokens room line) : Token room u := by
  obtain ⟨word, hword, hu⟩ := List.mem_flatMap.mp h
  obtain ⟨hne, hsolid⟩ := of_mem_words hword
  obtain ⟨hne', hfits⟩ := of_mem_chunks hroom hne hu
  refine ⟨hne', hfits, fun c hc => hsolid c ?_⟩
  rw [← flatten_chunks room word]
  exact List.mem_flatten.mpr ⟨u, hu, hc⟩

/-- Tokens lose nothing of a line but its white space, also where a long word is cut into several of
them. -/
theorem flatten_tokens (room : Nat) (line : Text) :
    (tokens room line).flatten = line.filter fun c => !isWhite c := by
  have hwords : ∀ words : List Text, (words.flatMap (chunks room)).flatten = words.flatten := by
    intro words
    induction words with
    | nil => rfl
    | cons w rest ih =>
      rw [List.flatMap_cons, List.flatten_append, flatten_chunks, ih, List.flatten_cons]
  rw [tokens, hwords, words, flatten_runs]

/-- A line that is not blank has a token, since the tokens hold all of it that is not white space.
-/
theorem tokens_ne_nil (h : isBlank line = false) : tokens room line ≠ [] := by
  intro hnil
  obtain ⟨c, hc, hw⟩ := isBlank_eq_false_iff.mp h
  have hflat := flatten_tokens room line
  rw [hnil, List.flatten_nil] at hflat
  have hmem : c ∈ line.filter fun c => !isWhite c := List.mem_filter.mpr ⟨hc, by rw [hw]; rfl⟩
  rw [← hflat] at hmem
  exact List.not_mem_nil hmem

-- ---------------------------------------------------------------------------
-- Rows of tokens
-- ---------------------------------------------------------------------------

/-- Tokens as they stand on a row. -/
def spaced (ts : List Text) : Text := List.intercalate [' '] ts

theorem spaced_singleton (t : Text) : spaced [t] = t := List.intercalate_singleton

/-- The first of several tokens, then a space, then the others as they stand on a row. -/
theorem spaced_cons (t : Text) (h : ts ≠ []) : spaced (t :: ts) = t ++ ' ' :: spaced ts := by
  rw [spaced, List.intercalate_cons_of_ne_nil h, List.append_assoc]
  rfl

/-- What stands on a row so far counts as one token. -/
theorem spaced_append_cons (t u : Text) (ts : List Text) :
    spaced ((t ++ ' ' :: u) :: ts) = spaced (t :: u :: ts) := by
  rw [spaced_cons t (List.cons_ne_nil u ts)]
  by_cases h : ts = []
  · rw [h]
    simp [spaced]
  · rw [spaced_cons _ h, spaced_cons _ h]
    simp

/-- Nothing stands on a row but the characters of its tokens and spaces between them. -/
theorem mem_spaced (h : c ∈ spaced ts) : c = ' ' ∨ ∃ t ∈ ts, c ∈ t := by
  induction ts with
  | nil => cases h
  | cons t rest ih =>
    by_cases hrest : rest = []
    · rw [hrest, spaced_singleton] at h
      exact Or.inr ⟨t, List.mem_cons_self .., h⟩
    · rw [spaced_cons t hrest, List.mem_append, List.mem_cons] at h
      rcases h with h | h | h
      · exact Or.inr ⟨t, List.mem_cons_self .., h⟩
      · exact Or.inl h
      · rcases ih h with h | ⟨u, hu, h⟩
        · exact Or.inl h
        · exact Or.inr ⟨u, List.mem_cons_of_mem _ hu, h⟩

/-- A row of tokens begins with its first token and ends with its last one, so it is tight as they
are. -/
theorem tight_spaced (hne : ts ≠ []) (h : ∀ t ∈ ts, Tight t) : Tight (spaced ts) := by
  induction ts with
  | nil => exact absurd rfl hne
  | cons t rest ih =>
    have ht := h t (List.mem_cons_self ..)
    by_cases hrest : rest = []
    · rwa [hrest, spaced_singleton]
    · have hspaced := ih hrest fun u hu => h u (List.mem_cons_of_mem _ hu)
      rw [spaced_cons t hrest]
      simpa using ht.append hspaced [' ']

theorem length_append_space (t u : Text) : (t ++ ' ' :: u).length = t.length + 1 + u.length := by
  rw [List.length_append, List.length_cons]
  omega

section

variable {start : Text} {first rest : List Text} {others : List (List Text)}

/-- A token that fits goes on the row that is open. -/
theorem fillAfter_of_fits (hfits : start.length + 1 + t.length ≤ room)
    (hfill : fillAfter room (start ++ ' ' :: t).length rest = first :: others) :
    fillAfter room start.length (t :: rest) = (t :: first) :: others := by
  rw [length_append_space] at hfill
  rw [fillAfter, if_pos hfits, hfill, consHead]

theorem fillAfter_of_full (hfull : ¬ start.length + 1 + t.length ≤ room)
    (hfill : fillAfter room t.length rest = first :: others) :
    fillAfter room start.length (t :: rest) = [] :: (t :: first) :: others := by
  rw [fillAfter, if_neg hfull, hfill, consHead]

end

/-- Every row that is closed fits, and so does the open one with what stands on it. -/
theorem fillAfter_fits (hts : ∀ t ∈ ts, t.length ≤ room) (start : Text)
    (hstart : start.length ≤ room) :
    ∃ first others, fillAfter room start.length ts = first :: others ∧
      (spaced (start :: first)).length ≤ room ∧
      ∀ l ∈ others, l ≠ [] ∧ (spaced l).length ≤ room := by
  induction ts generalizing start with
  | nil =>
    refine ⟨[], [], rfl, ?_, fun l hl => absurd hl List.not_mem_nil⟩
    rwa [spaced_singleton]
  | cons t rest ih =>
    have ht := hts t (List.mem_cons_self ..)
    have hrest := fun u hu => hts u (List.mem_cons_of_mem t hu)
    -- the open row goes on as one longer token, or it is closed as it stands
    by_cases hfits : start.length + 1 + t.length ≤ room
    · have hlen := length_append_space start t
      obtain ⟨first, others, hfill, hfirst, hothers⟩ := ih hrest (start ++ ' ' :: t) (by omega)
      rw [spaced_append_cons] at hfirst
      exact ⟨t :: first, others, fillAfter_of_fits hfits hfill, hfirst, hothers⟩
    · obtain ⟨first, others, hfill, hfirst, hothers⟩ := ih hrest t ht
      refine ⟨[], (t :: first) :: others, fillAfter_of_full hfits hfill, ?_, ?_⟩
      · rwa [spaced_singleton]
      · intro l hl
        rcases List.mem_cons.mp hl with rfl | hl
        · exact ⟨List.cons_ne_nil _ _, hfirst⟩
        · exact hothers l hl

/-- A row that `fill` makes has tokens, it has them from the list, and it fits. -/
theorem of_mem_fill (hts : ∀ t ∈ ts, t.length ≤ room) {l : List Text} (hl : l ∈ fill room ts) :
    l ≠ [] ∧ (∀ t ∈ l, t ∈ ts) ∧ (spaced l).length ≤ room := by
  have hmem : ∀ t ∈ l, t ∈ ts := by
    intro t ht
    rw [← flatten_fill room ts]
    exact List.mem_flatten.mpr ⟨l, hl, ht⟩
  cases ts with
  | nil => cases hl
  | cons t rest =>
    have ht := hts t (List.mem_cons_self ..)
    obtain ⟨first, others, hfill, hfirst, hothers⟩ :=
      fillAfter_fits (fun u hu => hts u (List.mem_cons_of_mem t hu)) t ht
    rw [fill, hfill, consHead] at hl
    rcases List.mem_cons.mp hl with rfl | hl
    · exact ⟨List.cons_ne_nil _ _, hmem, hfirst⟩
    · exact ⟨(hothers l hl).1, hmem, (hothers l hl).2⟩

-- ---------------------------------------------------------------------------
-- Rows of a line
-- ---------------------------------------------------------------------------

theorem indent_isPrefix (width : Nat) (line : Text) : indent width line <+: line := by
  rw [indent]
  split
  · exact List.takeWhile_prefix _
  · exact List.nil_prefix

/-- The indentation leaves room for a character, as one that takes the whole width is given up. -/
theorem length_indent (hw : 0 < width) (line : Text) : (indent width line).length < width := by
  rw [indent]
  split
  · next h => exact h
  · exact hw

/-- A line that does not begin with white space has no indentation. -/
theorem indent_eq_nil (h : ∀ c ∈ line.head?, isWhite c = false) : indent width line = [] := by
  have hmargin : line.takeWhile isWhite = [] := by
    cases line with
    | nil => rfl
    | cons c rest => simp [h c rfl]
  rw [indent, hmargin]
  split <;> rfl

/-- A line that is not blank becomes at least one row. -/
theorem fillLine_ne_nil (h : isBlank line = false) : fillLine width line ≠ [] := by
  intro hnil
  have hflat := flatten_fill (width - (indent width line).length)
    (tokens (width - (indent width line).length) line)
  rw [fillLine, List.map_eq_nil_iff] at hnil
  rw [hnil, List.flatten_nil] at hflat
  exact tokens_ne_nil h hflat.symm

/-- A row is the indentation and at least one token of the line, and it fits. -/
theorem of_mem_fillLine (hw : 0 < width) (h : row ∈ fillLine width line) :
    row.length ≤ width ∧ ∃ ts, ts ≠ [] ∧ row = indent width line ++ spaced ts ∧
      ∀ t ∈ ts, Token (width - (indent width line).length) t ∧ ∀ c ∈ t, c ∈ line := by
  have hindent := length_indent hw line
  rw [fillLine] at h
  generalize hroom : width - (indent width line).length = room at h ⊢
  obtain ⟨ts, hts, rfl⟩ := List.mem_map.mp h
  have htoken : ∀ t ∈ tokens room line, Token room t := fun t ht =>
    token_of_mem_tokens (by omega) ht
  obtain ⟨hne, hmem, hfits⟩ := of_mem_fill (fun t ht => (htoken t ht).fits) hts
  refine ⟨?_, ts, hne, rfl, fun t ht => ⟨htoken t (hmem t ht), fun c hc => ?_⟩⟩
  · -- the room is what the indentation leaves of the width
    rw [spaced] at hfits
    rw [List.length_append]
    omega
  · have hflat : c ∈ (tokens room line).flatten := List.mem_flatten.mpr ⟨t, hmem t ht, hc⟩
    rw [flatten_tokens] at hflat
    exact List.mem_of_mem_filter hflat

theorem isWhite_last_of_mem_fillLine (hw : 0 < width) (h : row ∈ fillLine width line) :
    row ≠ [] ∧ ∀ c ∈ row.getLast?, isWhite c = false := by
  obtain ⟨-, ts, hne, rfl, hts⟩ := of_mem_fillLine hw h
  have htight := tight_spaced hne fun t ht => (hts t ht).1.tight
  refine ⟨by simp [htight.ne_nil], ?_⟩
  rw [List.getLast?_append_of_ne_nil _ htight.ne_nil]
  exact htight.last

/-- Without an indentation a row begins with a token, as it ends in one anyway. So wrapping a tight
line gives tight rows. -/
theorem tight_of_mem_fillLine (hw : 0 < width) (hhead : ∀ c ∈ line.head?, isWhite c = false)
    (h : row ∈ fillLine width line) : Tight row := by
  obtain ⟨-, ts, hne, rfl, hts⟩ := of_mem_fillLine hw h
  rw [indent_eq_nil hhead, List.nil_append]
  exact tight_spaced hne fun t ht => (hts t ht).1.tight

/-- A row has no characters but those of the line and spaces, since the white space between tokens
is not copied. -/
theorem mem_of_mem_fillLine (hw : 0 < width) (h : row ∈ fillLine width line) (hc : c ∈ row) :
    c = ' ' ∨ c ∈ line := by
  obtain ⟨-, ts, -, rfl, hts⟩ := of_mem_fillLine hw h
  rcases List.mem_append.mp hc with hc | hc
  · exact Or.inr ((indent_isPrefix width line).subset hc)
  · rcases mem_spaced hc with hc | ⟨t, ht, hc⟩
    · exact Or.inl hc
    · exact Or.inr ((hts t ht).2 c hc)

end ConventionalCommit.Text
