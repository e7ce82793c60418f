import ConventionalCommit.Proofs.Text.Filling
import ConventionalCommit.Proofs.Text.Rows
import Mathlib.Data.List.Chain

/-!
# ConventionalCommit — greedy filling

A long line becomes rows of tokens, and three conditions leave no choice how (`GreedyRows`): the
rows hold the tokens in order, each row fits, and the first token of a row does not fit on the row
before it. If two such rows began alike and one went on, then the token it went on with would fit
after the other, which it must not.

The tokens are what the words are cut into, and that is not free either: all pieces of a word are
as long as there is room, except that the last may be shorter (`Pieces`). So a word that fits is
its only piece, and after a full piece no other fits.

* `GreedyRows.unique`: there is one way to fill rows;
* `greedyRows_fill`: it is the one that is taken;
* `GreedyRows.rowEndsAfter_of_chunks`: the pieces of a word are on different rows;
* `fillLine_greedy`: what the rows of a long line are.
-/

namespace ConventionalCommit.Text

variable {width room : Nat} {line margin t word : Text} {ts us g g' : List Text}
  {gs gs' : List (List Text)}

-- ---------------------------------------------------------------------------
-- The length of a row
-- ---------------------------------------------------------------------------

/-- Tokens that go on after others on a row take one space more than their own length. -/
theorem length_spaced_append (ht : ts ≠ []) (hu : us ≠ []) :
    (spaced (ts ++ us)).length = (spaced ts).length + 1 + (spaced us).length := by
  unfold spaced
  rw [intercalate_append [' '] ht hu, List.length_append, List.length_append,
    List.length_singleton]
  omega

/-- A row is at least as long as each of its tokens. -/
theorem length_le_spaced (ht : t ∈ ts) : t.length ≤ (spaced ts).length := by
  induction ts with
  | nil => cases ht
  | cons first rest ih =>
    by_cases hrest : rest = []
    · rw [hrest, List.mem_singleton] at ht
      rw [hrest, spaced_singleton, ht]
    · rw [spaced_cons first hrest, List.length_append, List.length_cons]
      rcases List.mem_cons.mp ht with rfl | ht
      · omega
      · have hlater := ih ht
        omega

/-- A token that stands on a row after others fits there. -/
theorem length_add_le_spaced (ht : ts ≠ []) (t : Text) (us : List Text) :
    (spaced ts).length + 1 + t.length ≤ (spaced (ts ++ t :: us)).length := by
  have hnext : t.length ≤ (spaced (t :: us)).length := length_le_spaced (List.mem_cons_self ..)
  rw [length_spaced_append ht (List.cons_ne_nil t us)]
  omega

-- ---------------------------------------------------------------------------
-- Rows that are filled greedily
-- ---------------------------------------------------------------------------

/-- Tokens on rows that begin with a margin. -/
structure GreedyRows (width : Nat) (margin : Text) (ts : List Text) (gs : List (List Text)) :
    Prop where
  /-- There is a token on each row. -/
  ne_nil : ∀ g ∈ gs, g ≠ []
  /-- The rows hold the tokens in order. -/
  flatten : gs.flatten = ts
  /-- Each row fits. -/
  fits : ∀ g ∈ gs, (margin ++ spaced g).length ≤ width
  /-- The first token of a row would not fit on the row before it. -/
  full : gs.IsChain fun g next =>
    ∀ t ∈ next.head?, width < (margin ++ spaced g).length + 1 + t.length

namespace GreedyRows

/-- The conditions are about single rows and neighbours, so they hold without the first row too. -/
theorem tail (h : GreedyRows width margin ts (g :: gs)) :
    GreedyRows width margin gs.flatten gs :=
  ⟨fun x hx => h.ne_nil x (List.mem_cons_of_mem _ hx), rfl,
    fun x hx => h.fits x (List.mem_cons_of_mem _ hx), h.full.tail⟩

/-- No row that fits goes on after the tokens of another. The next row has a token that did not fit
on this one, and a longer row would have taken it. -/
theorem eq_nil_of_append (h : GreedyRows width margin ts (g :: gs)) (more : List Text)
    (hfits : (margin ++ spaced (g ++ us)).length ≤ width) (hrest : gs.flatten = us ++ more) :
    us = [] := by
  match us with
  | [] => rfl
  | t :: us =>
    exfalso
    match gs with
    | [] => cases hrest
    | next :: others =>
      have hne := h.ne_nil next (by simp)
      have hhead : t ∈ next.head? := by
        obtain ⟨x, xs, rfl⟩ := List.exists_cons_of_ne_nil hne
        rw [List.flatten_cons, List.cons_append, List.cons_append] at hrest
        rw [(List.cons.inj hrest).1]
        rfl
      -- the next row begins with `t`, so there was no room for `t` on this one
      have hfull := (List.isChain_cons_cons.mp h.full).1 t hhead
      have hlength := length_add_le_spaced (h.ne_nil g (List.mem_cons_self ..)) t us
      rw [List.length_append] at hfull hfits
      omega

/-- There is one way to fill rows greedily. Of two ways neither can have the longer first row, and
after the same first row the tokens that are left are the same. -/
theorem unique (h : GreedyRows width margin ts gs) (h' : GreedyRows width margin ts gs') :
    gs = gs' := by
  induction gs generalizing ts gs' with
  | nil =>
    match gs' with
    | [] => rfl
    | g' :: others =>
      have hflat := h'.flatten.trans h.flatten.symm
      rw [List.flatten_cons, List.flatten_nil, List.append_eq_nil_iff] at hflat
      exact absurd hflat.1 (h'.ne_nil g' (List.mem_cons_self ..))
  | cons g rest ih =>
    match gs' with
    | [] =>
      have hflat := h.flatten.trans h'.flatten.symm
      rw [List.flatten_cons, List.flatten_nil, List.append_eq_nil_iff] at hflat
      exact absurd hflat.1 (h.ne_nil g (List.mem_cons_self ..))
    | g' :: rest' =>
      have hflat := h.flatten.trans h'.flatten.symm
      rw [List.flatten_cons, List.flatten_cons] at hflat
      -- one of the first rows begins with the other, and it cannot go on
      have hsame : g = g' := by
        rcases List.append_eq_append_iff.mp hflat with ⟨us, rfl, hrest⟩ | ⟨us, rfl, hrest⟩
        · have hfits := h'.fits _ (List.mem_cons_self ..)
          rw [h.eq_nil_of_append _ hfits hrest, List.append_nil]
        · have hfits := h.fits _ (List.mem_cons_self ..)
          rw [h'.eq_nil_of_append _ hfits hrest, List.append_nil]
      subst hsame
      have hrest := List.append_cancel_left hflat
      have htail := h'.tail
      rw [← hrest] at htail
      rw [ih h.tail htail]

/-- A margin takes its length from the room of each row, so filling with a margin is filling a
narrower width without one. -/
theorem add_margin (h : GreedyRows room [] ts gs) (margin : Text) :
    GreedyRows (margin.length + room) margin ts gs := by
  refine ⟨h.ne_nil, h.flatten, fun g hg => ?_, h.full.imp fun g next hfull t ht => ?_⟩
  · have hfits := h.fits g hg
    rw [List.nil_append] at hfits
    rw [List.length_append]
    omega
  · have hnext := hfull t ht
    rw [List.nil_append] at hnext
    rw [List.length_append]
    omega

end GreedyRows

-- ---------------------------------------------------------------------------
-- Filling is greedy
-- ---------------------------------------------------------------------------

/-- The token that closes a row does not fit on it, and what stands on the open row so far counts
as one token. -/
theorem fillAfter_full (room : Nat) (start : Text) (ts : List Text) :
    ∃ first others, fillAfter room start.length ts = first :: others ∧
      ((start :: first) :: others).IsChain fun g next =>
        ∀ t ∈ next.head?, room < (spaced g).length + 1 + t.length := by
  induction ts generalizing start with
  | nil => exact ⟨[], [], rfl, List.IsChain.singleton _⟩
  | cons t rest ih =>
    -- the open row counts as one token, longer by `t` if `t` goes on it
    by_cases hfits : start.length + 1 + t.length ≤ room
    · obtain ⟨first, others, hfill, hchain⟩ := ih (start ++ ' ' :: t)
      rw [List.isChain_cons, spaced_append_cons] at hchain
      exact ⟨t :: first, others, fillAfter_of_fits hfits hfill, List.isChain_cons.mpr hchain⟩
    · obtain ⟨first, others, hfill, hchain⟩ := ih t
      refine ⟨[], (t :: first) :: others, fillAfter_of_full hfits hfill, ?_⟩
      refine List.isChain_cons_cons.mpr ⟨fun u hu => ?_, hchain⟩
      obtain rfl : t = u := Option.some.inj hu
      rw [spaced_singleton]
      omega

/-- Filling as `fill` does it is greedy, provided that each token fits on a row of its own. For
longer tokens there are no greedy rows at all. -/
theorem greedyRows_fill (hts : ∀ t ∈ ts, t.length ≤ room) :
    GreedyRows room [] ts (fill room ts) := by
  refine ⟨fun g hg => (of_mem_fill hts hg).1, flatten_fill room ts,
    fun g hg => (of_mem_fill hts hg).2.2, ?_⟩
  match ts with
  | [] => exact List.IsChain.nil
  | t :: rest =>
    obtain ⟨first, others, hfill, hchain⟩ := fillAfter_full room t rest
    rw [fill, hfill, consHead]
    exact hchain

-- ---------------------------------------------------------------------------
-- Words and their pieces
-- ---------------------------------------------------------------------------

/-- A row ends right after the tokens `front`. -/
def RowEndsAfter (front : List Text) (gs : List (List Text)) : Prop :=
  ∃ done rest, gs = done ++ rest ∧ done.flatten = front

/-- The token that comes after the tokens `front` is `t`, and it stands on one of the rows. -/
def StandsAfter (front : List Text) (t : Text) (gs : List (List Text)) : Prop :=
  ∃ done left right rest, gs = done ++ (left ++ t :: right) :: rest ∧ done.flatten ++ left = front

/-- A token in the list of all tokens stands on some row, behind the tokens in front of it. -/
theorem standsAfter_of_flatten {front back : List Text} (h : gs.flatten = front ++ t :: back) :
    StandsAfter front t gs := by
  rcases List.flatten_eq_append_iff.mp h with ⟨done, rest, rfl, rfl, hrest⟩ |
    ⟨done, left, x, right, rest, rfl, rfl, hrest⟩
  · obtain ⟨empty, right, others, rfl, hempty, -⟩ := List.flatten_eq_cons_iff.mp hrest.symm
    refine ⟨done ++ empty, [], right, others, by simp, ?_⟩
    rw [List.flatten_append, List.flatten_eq_nil_iff.mpr hempty, List.append_nil, List.append_nil]
  · rw [List.cons_append] at hrest
    obtain ⟨rfl, -⟩ := List.cons.inj hrest
    exact ⟨done, left, right, rest, rfl, rfl⟩

/-- The row ends after a token that takes all its room. The next token would need a space and a
character more. -/
theorem GreedyRows.rowEndsAfter (h : GreedyRows width margin ts gs) {front back : List Text}
    (hts : ts = front ++ [t] ++ back) (ht : width ≤ margin.length + t.length) :
    RowEndsAfter (front ++ [t]) gs := by
  rcases List.flatten_eq_append_iff.mp (h.flatten.trans hts) with ⟨done, rest, hgs, hdone, -⟩ |
    ⟨done, left, x, right, rest, hgs, hdone, -⟩
  · exact ⟨done, rest, hgs, hdone.symm⟩
  · -- the row would go on with `x`, but there is no room
    have hleft : left = [] := by
      by_contra hne
      obtain ⟨others, last, rfl⟩ := (List.eq_nil_or_concat' left).resolve_left hne
      rw [← List.append_assoc] at hdone
      obtain rfl : t = last := (List.cons.inj (List.append_inj' hdone rfl).2).1
      have hfits := h.fits (others ++ [t] ++ x :: right) (by simp [hgs])
      have hlast : t.length ≤ (spaced (others ++ [t])).length := length_le_spaced (by simp)
      have hnext := length_add_le_spaced hne x right
      rw [List.length_append] at hfits
      omega
    refine ⟨done, (left ++ x :: right) :: rest, hgs, ?_⟩
    rw [hdone, hleft, List.append_nil]

theorem length_of_chunks_eq_append (hroom : 0 < room) (hword : word ≠ []) {front back : List Text}
    (hpieces : chunks room word = front ++ [t] ++ back) (hback : back ≠ []) : t.length = room := by
  refine (pieces_chunks hroom hword).full t ?_
  rw [hpieces, List.dropLast_append_of_ne_nil hback]
  simp

-- ---------------------------------------------------------------------------
-- The rows of a line
-- ---------------------------------------------------------------------------

section

variable {before after front back : List Text}

theorem tokens_of_words (hwords : line.words = before ++ word :: after) :
    tokens room line =
      before.flatMap (chunks room) ++ (chunks room word ++ after.flatMap (chunks room)) := by
  unfold tokens
  rw [hwords, List.flatMap_append, List.flatMap_cons]

theorem GreedyRows.standsAfter_of_fits (h : GreedyRows width margin (tokens room line) gs)
    (hwords : line.words = before ++ word :: after) (hfits : word.length ≤ room) :
    StandsAfter (before.flatMap (chunks room)) word gs := by
  have hwhole : chunks room word = [word] := by rw [chunks_eq, if_pos (Or.inr hfits)]
  have htokens := h.flatten.trans (tokens_of_words hwords)
  rw [hwhole, List.singleton_append] at htokens
  exact standsAfter_of_flatten htokens

/-- No other piece comes after a full one on its row. All pieces of a word but the last are full, so
each of these ends its row. -/
theorem GreedyRows.rowEndsAfter_of_chunks (h : GreedyRows width margin (tokens room line) gs)
    (hroom : 0 < room) (hsum : margin.length + room = width)
    (hwords : line.words = before ++ word :: after) (hpieces : chunks room word = front ++ back)
    (hfront : front ≠ []) (hback : back ≠ []) :
    RowEndsAfter (before.flatMap (chunks room) ++ front) gs := by
  obtain ⟨others, last, rfl⟩ := (List.eq_nil_or_concat' front).resolve_left hfront
  have hword : word ≠ [] := (of_mem_words (t := line) (by simp [hwords])).1
  have hlast : last.length = room := length_of_chunks_eq_append hroom hword hpieces hback
  have hsplit : tokens room line = before.flatMap (chunks room) ++ others ++ [last] ++
      (back ++ after.flatMap (chunks room)) := by
    rw [tokens_of_words hwords, hpieces]
    simp
  rw [← List.append_assoc]
  exact h.rowEndsAfter hsplit (by omega)

end

/--
The rows of a long line are filled greedily with its tokens, and no other rows are. The tokens are
the words, each cut into pieces, and there is one way to cut them. A word that fits stands on a row
as a whole. The pieces of a longer word stand on different rows, because a row ends after each
piece that is followed by another.
-/
theorem fillLine_greedy (hw : 0 < width) (line : Text) :
    let margin := indent width line
    let room := width - margin.length
    (∀ word ∈ line.words, ∀ pieces, Pieces room word pieces ↔ pieces = chunks room word) ∧
    (∀ rows, rows = fillLine width line ↔ ∃ gs,
      GreedyRows width margin (tokens room line) gs ∧ rows = gs.map fun g => margin ++ spaced g) ∧
    ∀ gs, GreedyRows width margin (tokens room line) gs →
      ∀ before word after, line.words = before ++ word :: after →
        (word.length ≤ room → StandsAfter (before.flatMap (chunks room)) word gs) ∧
        ∀ front back, chunks room word = front ++ back → front ≠ [] → back ≠ [] →
          RowEndsAfter (before.flatMap (chunks room) ++ front) gs := by
  intro margin room
  have hmargin : margin.length < width := length_indent hw line
  have hroom : 0 < room := Nat.sub_pos_of_lt hmargin
  have hsum : margin.length + room = width := Nat.add_sub_of_le (Nat.le_of_lt hmargin)
  -- the margin is the same for all rows, so it only takes from their room
  have hfill : GreedyRows width margin (tokens room line) (fill room (tokens room line)) := by
    rw [← hsum]
    exact (greedyRows_fill fun t ht => (token_of_mem_tokens hroom ht).fits).add_margin margin
  refine ⟨fun word hword pieces => ?_, fun rows => ?_, fun gs hgs before word after hwords => ?_⟩
  · have hne : word ≠ [] := (of_mem_words hword).1
    exact ⟨fun h => h.eq_chunks hne, fun h => h ▸ pieces_chunks hroom hne⟩
  · constructor
    · rintro rfl
      exact ⟨_, hfill, rfl⟩
    · rintro ⟨gs, hgs, rfl⟩
      rw [hgs.unique hfill]
      rfl
  · exact ⟨hgs.standsAfter_of_fits hwords, fun front back hpieces hfront hback =>
      hgs.rowEndsAfter_of_chunks hroom hsum hwords hpieces hfront hback⟩

/-- An indented word that is cut once, and its last piece shares the row with the next word. -/
theorem fillLine_greedy_cut :
    0 < 5 ∧ ∃ gs, GreedyRows 5 [' '] (tokens 4 " abcdef g h".toList) gs ∧
      gs.map (fun g => ' ' :: spaced g) = [" abcd".toList, " ef g".toList, " h".toList] ∧
      RowEndsAfter ["abcd".toList] gs := by
  have hwidth : 0 < 5 := by decide
  obtain ⟨-, hrows, hwords⟩ := fillLine_greedy hwidth " abcdef g h".toList
  have hline : [" abcd".toList, " ef g".toList, " h".toList] =
      fillLine 5 " abcdef g h".toList := by decide +kernel
  obtain ⟨gs, hgs, hjoined⟩ := (hrows _).mp hline
  refine ⟨hwidth, gs, hgs, hjoined.symm, ?_⟩
  exact (hwords gs hgs [] "abcdef".toList ["g".toList, "h".toList] (by decide +kernel)).2
    ["abcd".toList] ["ef".toList] (by decide +kernel) (by decide) (by decide)

end ConventionalCommit.Text
