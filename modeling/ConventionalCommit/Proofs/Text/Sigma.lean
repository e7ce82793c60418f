import ConventionalCommit.Proofs.Text.Lowercase
import ConventionalCommit.Proofs.Text.Tight
import Mathlib.Data.List.Count
import Mathlib.Data.List.Forall2
import Mathlib.Data.List.Infix

/-!
# ConventionalCommit — words with a capital sigma

The lower case of a word is found in the lower case of every text around it, unless the small form
of one of its capital sigmas depends on that text. Such a sigma hangs (`hangs`): on one of its
sides the word has nothing that ends the search for a letter, and the other side lets the
search matter. A word without such a sigma is settled.

* `lowercase_isInfix_of_settled`: a settled word has the same lower case everywhere;
* `not_lowercase_isInfix_of_hangs`: a sigma that hangs has the other form next to one more letter,
  and then the text has too few of the form that the word has by itself;
* `lowercase_isInfix_iff_settled`: the settled words are those whose lower case is always found;
* `isInfix_lowercase_of_cut`: cutting a text makes nothing of the rest but final sigmas, so that
  without one there is nothing new to find in it.
-/

namespace ConventionalCommit.Text

open Unicode (isCased isCaseIgnorable toLower)

variable {before after x y w t u stop : Text} {c : Char}

-- ---------------------------------------------------------------------------
-- Searches that a text ends, and searches that leave it
-- ---------------------------------------------------------------------------

/-- A search for a letter passes over a text of nothing but ignorable characters. -/
theorem startsCased_append_of_all (h : t.all isCaseIgnorable = true) (u : Text) :
    startsCased (t ++ u) = startsCased u := by
  induction t with
  | nil => rfl
  | cons c t ih =>
    rw [List.all_cons, Bool.and_eq_true] at h
    rw [List.cons_append, startsCased_cons, if_pos h.1, ih h.2]

/-- A text of characters that count for nothing has no letter to find. -/
theorem startsCased_of_all (h : t.all isCaseIgnorable = true) : startsCased t = false := by
  have hnil := startsCased_append_of_all h []
  rwa [List.append_nil, startsCased_nil] at hnil

/-- A search for a letter ends in a text that has some other character. -/
theorem startsCased_append_of_not_all (h : t.all isCaseIgnorable = false) (u : Text) :
    startsCased (t ++ u) = startsCased t := by
  induction t with
  | nil => cases h
  | cons c t ih =>
    rw [List.cons_append, startsCased_cons, startsCased_cons]
    split
    · next hc =>
      rw [List.all_cons, hc, Bool.true_and] at h
      exact ih h
    · rfl

theorem not_all_of_startsCased (h : startsCased t = true) : t.all isCaseIgnorable = false := by
  rw [← Bool.not_eq_true]
  intro hall
  rw [startsCased_of_all hall] at h
  cases h

theorem letter_sigma : isCaseIgnorable 'Σ' = false ∧ isCased 'Σ' = true := ⟨rfl, rfl⟩

/-- A sigma is a letter itself, so a search that meets one finds it. -/
theorem startsCased_sigma (t : Text) : startsCased ('Σ' :: t) = true := by
  rw [startsCased_cons, letter_sigma.1, if_neg Bool.false_ne_true, letter_sigma.2]

theorem sigma_not_mem_of_all (h : t.all isCaseIgnorable = true) : 'Σ' ∉ t := by
  intro hmem
  have hsigma := letter_sigma.1
  rw [List.all_eq_true.mp h _ hmem] at hsigma
  cases hsigma

-- ---------------------------------------------------------------------------
-- Sigmas that hang
-- ---------------------------------------------------------------------------

/-- Whether the small form of a capital sigma between two parts of a word, the one before it
nearest first, depends on what stands around the word. -/
def hangs (before after : Text) : Bool :=
  (before.all isCaseIgnorable && !startsCased after) ||
    (startsCased before && after.all isCaseIgnorable)

/-- Whether no capital sigma hangs in the rest of a word that has begun with `before`. -/
def settledAfter (before : Text) : Text → Bool
  | [] => true
  | c :: rest => (c != 'Σ' || !hangs before rest) && settledAfter (c :: before) rest

/-- Whether no capital sigma hangs in a word. -/
def settled (w : Text) : Bool := settledAfter [] w

/-- The test passes over a word once and keeps what it has seen. It asks each sigma whether its form
depends on what the word stands next to. -/
theorem settledAfter_eq_true_iff : settledAfter before w = true ↔
    ∀ x y, w = x ++ 'Σ' :: y → hangs (x.reverse ++ before) y = false := by
  induction w generalizing before with
  | nil => simp [settledAfter]
  | cons c w ih =>
    rw [settledAfter, Bool.and_eq_true, ih, Bool.or_eq_true, bne_iff_ne, Bool.not_eq_true']
    constructor
    · rintro ⟨hfirst, hrest⟩ x y hsplit
      -- the sigma is the first character, or it comes later in the word
      cases x with
      | nil =>
        obtain ⟨rfl, rfl⟩ := List.cons.inj hsplit
        exact hfirst.resolve_left fun hne => hne rfl
      | cons z x =>
        obtain ⟨rfl, hw⟩ := List.cons.inj hsplit
        have hhangs := hrest x y hw
        rwa [List.reverse_cons, List.append_assoc, List.singleton_append]
    · intro h
      refine ⟨?_, fun x y hw => ?_⟩
      · rw [← imp_iff_not_or]
        rintro rfl
        exact h [] w rfl
      · have hhangs := h (c :: x) y (by rw [hw, List.cons_append])
        rwa [List.reverse_cons, List.append_assoc, List.singleton_append] at hhangs

/-- A word is settled exactly if each sigma in it has the same form wherever the word stands. -/
theorem settled_eq_true_iff : settled w = true ↔
    ∀ x y, w = x ++ 'Σ' :: y → hangs x.reverse y = false := by
  rw [settled, settledAfter_eq_true_iff]
  simp only [List.append_nil]

theorem settled_of_not_mem (h : 'Σ' ∉ w) : settled w = true := by
  rw [settled_eq_true_iff]
  rintro x y rfl
  exact absurd (by simp) h

-- ---------------------------------------------------------------------------
-- Settled words
-- ---------------------------------------------------------------------------

/-- A sigma that does not hang has the same form in every text. The search to either side has found
a character that decides before the word ends. -/
theorem smallSigma_of_not_hangs (h : hangs before after = false) (t u : Text) :
    smallSigma (before ++ t) (after ++ u) = smallSigma before after := by
  rw [hangs, Bool.or_eq_false_iff] at h
  obtain ⟨hleft, hright⟩ := h
  unfold smallSigma
  cases hbefore : before.all isCaseIgnorable with
  | true =>
    -- a letter follows in the word, so what comes before makes no difference
    rw [hbefore, Bool.true_and, Bool.not_eq_false'] at hleft
    rw [startsCased_append_of_not_all (not_all_of_startsCased hleft), hleft, Bool.not_true,
      Bool.and_false, Bool.and_false]
  | false =>
    rw [startsCased_append_of_not_all hbefore]
    cases hletter : startsCased before with
    | false => rw [Bool.false_and, Bool.false_and]
    | true =>
      rw [hletter, Bool.true_and] at hright
      rw [startsCased_append_of_not_all hright]

/-- The lower case of a settled word is found in its place, by induction on what is left of it. -/
theorem lowercaseAfter_append_of_settled (h : settledAfter before w = true) (t u : Text) :
    lowercaseAfter (before ++ t) (w ++ u) =
      lowercaseAfter before w ++ lowercaseAfter (w.reverse ++ (before ++ t)) u := by
  induction w generalizing before with
  | nil => rfl
  | cons c w ih =>
    rw [settledAfter, Bool.and_eq_true, Bool.or_eq_true, bne_iff_ne, Bool.not_eq_true'] at h
    obtain ⟨hfirst, hrest⟩ := h
    -- the first character has one form, wherever the word stands
    have hform : (if c = 'Σ' then [smallSigma (before ++ t) (w ++ u)] else toLower c) =
        if c = 'Σ' then [smallSigma before w] else toLower c := by
      split
      · next hc => rw [smallSigma_of_not_hangs (hfirst.resolve_left fun hne => hne hc)]
      · rfl
    have hnext := ih hrest
    rw [List.cons_append] at hnext
    rw [List.cons_append, lowercaseAfter, lowercaseAfter, hform, hnext, List.reverse_cons]
    simp only [List.append_assoc, List.singleton_append]

/-- A settled word is found in lower case wherever it stands, because no sigma of it takes another
form there. -/
theorem lowercase_isInfix_of_settled (h : settled w = true) (hw : w <:+: t) :
    lowercase w <:+: lowercase t := by
  obtain ⟨x, y, rfl⟩ := hw
  have hend := lowercaseAfter_isSuffix [] x (w ++ y)
  rw [List.append_nil, ← List.append_assoc] at hend
  have hword := lowercaseAfter_append_of_settled h x.reverse y
  rw [List.nil_append] at hword
  rw [hword] at hend
  exact List.infix_append_left.trans hend.isInfix

-- ---------------------------------------------------------------------------
-- Words that are not settled
-- ---------------------------------------------------------------------------

/-- Without a capital sigma each character has a lower case of its own. -/
theorem lowercaseAfter_append_of_not_mem (h : 'Σ' ∉ x) (before rest : Text) :
    lowercaseAfter before (x ++ rest) =
      x.flatMap toLower ++ lowercaseAfter (x.reverse ++ before) rest := by
  induction x generalizing before with
  | nil => rfl
  | cons c x ih =>
    rw [List.mem_cons, not_or] at h
    rw [List.cons_append, lowercaseAfter, if_neg (Ne.symm h.1), ih h.2, List.flatMap_cons,
      List.reverse_cons]
    simp only [List.append_assoc, List.singleton_append]

/-- Of what comes after a text only the next letter matters, and of this only whether there is one.
The text in front keeps its lower case, sigma by sigma. -/
theorem exists_lowercaseAfter_append (h : startsCased t = startsCased u) (before x : Text) :
    ∃ front, lowercaseAfter before (x ++ t) = front ++ lowercaseAfter (x.reverse ++ before) t ∧
      lowercaseAfter before (x ++ u) = front ++ lowercaseAfter (x.reverse ++ before) u := by
  induction x generalizing before with
  | nil => exact ⟨[], rfl, rfl⟩
  | cons c x ih =>
    have hsame : startsCased (x ++ t) = startsCased (x ++ u) := by
      cases hall : x.all isCaseIgnorable with
      | true => rw [startsCased_append_of_all hall, startsCased_append_of_all hall, h]
      | false => rw [startsCased_append_of_not_all hall, startsCased_append_of_not_all hall]
    obtain ⟨front, ht, hu⟩ := ih (c :: before)
    rw [List.reverse_cons, List.append_assoc, List.singleton_append, List.cons_append,
      List.cons_append, lowercaseAfter, lowercaseAfter, ht, hu, smallSigma, smallSigma, hsame]
    exact ⟨_, (List.append_assoc ..).symm, (List.append_assoc ..).symm⟩

/-- After one more letter, a sigma that had only ignorable characters before it is final. -/
theorem exists_lowercase_cons (hx : x.all isCaseIgnorable = true) (hy : startsCased y = false) :
    ∃ front back, lowercase (x ++ 'Σ' :: y) = front ++ 'σ' :: back ∧
      lowercase ('a' :: (x ++ 'Σ' :: y)) = 'a' :: (front ++ 'ς' :: back) := by
  have hno := sigma_not_mem_of_all hx
  have hback : x.reverse.all isCaseIgnorable = true := by rwa [List.all_reverse]
  have hletter : startsCased ['a'] = true ∧ toLower 'a' = ['a'] := ⟨rfl, rfl⟩
  -- no letter stands before the sigma, and then one does
  have hmedial : smallSigma (x.reverse ++ []) y = 'σ' := by
    rw [smallSigma, List.append_nil, startsCased_of_all hback, Bool.false_and,
      if_neg Bool.false_ne_true]
  have hfinal : smallSigma (x.reverse ++ ['a']) y = 'ς' := by
    rw [smallSigma, startsCased_append_of_all hback, hletter.1, hy]
    rfl
  -- the forms after it do not change, because a sigma is a letter itself
  have hrest : lowercaseAfter ('Σ' :: (x.reverse ++ ['a'])) y =
      lowercaseAfter ('Σ' :: (x.reverse ++ [])) y :=
    lowercaseAfter_congr ((startsCased_sigma _).trans (startsCased_sigma _).symm) y
  refine ⟨x.flatMap toLower, lowercaseAfter ('Σ' :: (x.reverse ++ [])) y, ?_, ?_⟩
  · rw [lowercase, lowercaseAfter_append_of_not_mem hno, lowercaseAfter, if_pos rfl, hmedial,
      List.singleton_append]
  · rw [lowercase, lowercaseAfter, if_neg (by decide), hletter.2,
      lowercaseAfter_append_of_not_mem hno, lowercaseAfter, if_pos rfl, hfinal, hrest,
      List.singleton_append, List.singleton_append]

/-- Before one more letter, a sigma that had only ignorable characters after it is not final. -/
theorem exists_lowercase_concat (hx : startsCased x.reverse = true)
    (hy : y.all isCaseIgnorable = true) :
    ∃ front back, lowercase (x ++ 'Σ' :: y) = front ++ 'ς' :: back ∧
      lowercase (x ++ 'Σ' :: y ++ ['a']) = front ++ 'σ' :: (back ++ ['a']) := by
  have hno := sigma_not_mem_of_all hy
  have hletter : startsCased ['a'] = true ∧ toLower 'a' = ['a'] := ⟨rfl, rfl⟩
  obtain ⟨front, hword, htext⟩ := exists_lowercaseAfter_append
    ((startsCased_sigma y).trans (startsCased_sigma (y ++ ['a'])).symm) [] x
  -- the ignorable characters are looked over, so the end of the text comes next
  have hfinal : smallSigma (x.reverse ++ []) y = 'ς' := by
    rw [smallSigma, List.append_nil, hx, startsCased_of_all hy]
    rfl
  -- and now it is the letter that comes next
  have hmedial : smallSigma (x.reverse ++ []) (y ++ ['a']) = 'σ' := by
    rw [smallSigma, startsCased_append_of_all hy, hletter.1, Bool.not_true, Bool.and_false,
      if_neg Bool.false_ne_true]
  have hback : ∀ before, lowercaseAfter before y = y.flatMap toLower := by
    intro before
    have h := lowercaseAfter_append_of_not_mem hno before []
    rwa [List.append_nil, lowercaseAfter, List.append_nil] at h
  refine ⟨front, y.flatMap toLower, ?_, ?_⟩
  · rw [lowercase, hword, lowercaseAfter, if_pos rfl, hfinal, hback, List.singleton_append]
  · rw [List.append_assoc, List.cons_append, lowercase, htext, lowercaseAfter, if_pos rfl,
      hmedial, lowercaseAfter_append_of_not_mem hno, lowercaseAfter, if_neg (by decide),
      hletter.2]
    rfl

/-- What has fewer of some character than a text does not contain the text. -/
theorem not_isInfix_of_count_lt (h : u.count c < t.count c) : ¬ t <:+: u := by
  intro hinfix
  have hle := hinfix.sublist.count_le c
  omega

/-- A sigma that hangs has another form in a text with one more letter. So the lower case of the
word is not found there, although the word is. -/
theorem not_lowercase_isInfix_of_hangs (h : hangs x.reverse y = true) :
    ∃ t, x ++ 'Σ' :: y <:+: t ∧ isBlank t = false ∧
      ¬ lowercase (x ++ 'Σ' :: y) <:+: lowercase t := by
  have hvisible : ∀ {t : Text}, 'a' ∈ t → isBlank t = false := fun hmem =>
    isBlank_eq_false_of_mem hmem (by decide)
  rw [hangs, Bool.or_eq_true, Bool.and_eq_true, Bool.and_eq_true, Bool.not_eq_true',
    List.all_reverse] at h
  rcases h with ⟨hx, hy⟩ | ⟨hx, hy⟩
  · -- a letter before the word makes the sigma final
    obtain ⟨front, back, hword, htext⟩ := exists_lowercase_cons hx hy
    refine ⟨'a' :: (x ++ 'Σ' :: y), (List.suffix_cons _ _).isInfix, hvisible (by simp), ?_⟩
    rw [hword, htext]
    -- the text has one medial sigma less than the word, so the word is not in it
    refine not_isInfix_of_count_lt (c := 'σ') ?_
    simp [List.count_append]
  · -- a letter after it makes the final sigma medial
    obtain ⟨front, back, hword, htext⟩ := exists_lowercase_concat hx hy
    refine ⟨x ++ 'Σ' :: y ++ ['a'], (List.prefix_append _ _).isInfix, hvisible (by simp), ?_⟩
    rw [hword, htext]
    refine not_isInfix_of_count_lt (c := 'ς') ?_
    simp [List.count_append]

/-- The settled words are those whose lower case is found wherever the word is. -/
theorem lowercase_isInfix_iff_settled (w : Text) :
    (∀ t, isBlank t = false → w <:+: t → lowercase w <:+: lowercase t) ↔ settled w = true := by
  constructor
  · intro h
    rw [settled_eq_true_iff]
    rintro x y rfl
    rw [← Bool.not_eq_true]
    intro hhangs
    obtain ⟨t, hinfix, hvisible, hno⟩ := not_lowercase_isInfix_of_hangs hhangs
    exact hno (h t hvisible hinfix)
  · exact fun h t _ hinfix => lowercase_isInfix_of_settled h hinfix

-- ---------------------------------------------------------------------------
-- Texts that are cut
-- ---------------------------------------------------------------------------

/-- The character in a text and the one in its place when the text is cut: the same, unless a
sigma has become final. -/
def FinalAtCut (whole cut : Char) : Prop := whole = cut ∨ whole = 'σ' ∧ cut = 'ς'

/-- Cutting a text can take away the letter after a sigma, but it brings none. So where the small
forms differ, the final one is in the text that is cut. -/
theorem finalAtCut_smallSigma (hstop : startsCased stop = false) (before x rest : Text) :
    FinalAtCut (smallSigma before (x ++ rest)) (smallSigma before (x ++ stop)) := by
  unfold smallSigma
  rw [startsCased_append hstop]
  cases hx : startsCased x with
  | true =>
    -- the next letter is in what both texts have
    rw [startsCased_append_of_not_all (not_all_of_startsCased hx), hx]
    exact Or.inl rfl
  | false =>
    cases startsCased before with
    | false => exact Or.inl rfl
    | true =>
      cases startsCased (x ++ rest) with
      | false => exact Or.inl rfl
      | true => exact Or.inr ⟨rfl, rfl⟩

/-- What is left of a text keeps its lower case when the rest is replaced by a text that no letter
begins, but for sigmas that become final. By induction on what is left. -/
theorem exists_lowercaseAfter_cut (hstop : startsCased stop = false) (before x rest : Text) :
    ∃ whole cut, List.Forall₂ FinalAtCut whole cut ∧
      lowercaseAfter before (x ++ rest) =
        whole ++ lowercaseAfter (x.reverse ++ before) rest ∧
      lowercaseAfter before (x ++ stop) =
        cut ++ lowercaseAfter (x.reverse ++ before) stop := by
  induction x generalizing before with
  | nil => exact ⟨[], [], .nil, rfl, rfl⟩
  | cons c x ih =>
    obtain ⟨whole, cut, hsame, hwhole, hcut⟩ := ih (c :: before)
    rw [List.reverse_cons, List.append_assoc, List.singleton_append, List.cons_append,
      List.cons_append, lowercaseAfter, lowercaseAfter, hwhole, hcut]
    refine ⟨_, _, ?_, (List.append_assoc ..).symm, (List.append_assoc ..).symm⟩
    refine List.rel_append ?_ hsame
    -- a sigma may change at the cut, another character keeps its small form
    split
    · exact .cons (finalAtCut_smallSigma hstop before x rest) .nil
    · exact List.forall₂_same.mpr fun d _ => Or.inl rfl

/-- Without a final sigma in the second text the two are the same. -/
theorem eq_of_finalAtCut (h : List.Forall₂ FinalAtCut t u) (hu : 'ς' ∉ u) : t = u := by
  induction h with
  | nil => rfl
  | cons hchar _ ih =>
    rw [List.mem_cons, not_or] at hu
    rcases hchar with rfl | ⟨-, rfl⟩
    · rw [ih hu.2]
    · exact absurd rfl hu.1

/-- What is found in the lower case of a text that is cut was there before, unless it has a final
sigma or a part of what the text was cut to. -/
theorem isInfix_lowercase_of_cut (hstop : startsCased stop = false) {rest : Text}
    (h : w <:+: lowercase (x ++ stop)) (hsigma : 'ς' ∉ w)
    (hno : ∀ ch ∈ lowercaseAfter x.reverse stop, ch ∉ w) : w <:+: lowercase (x ++ rest) := by
  obtain ⟨whole, cut, hsame, hwhole, hcut⟩ := exists_lowercaseAfter_cut hstop [] x rest
  rw [List.append_nil] at hwhole hcut
  rw [lowercase, hwhole]
  rw [lowercase, hcut, List.infix_append_iff] at h
  -- no character of the word is in the end, so all of it is in what is left of the text
  have hfound : w <:+: cut := by
    rcases h with h | h | ⟨front, back, rfl, hfront, hback⟩
    · exact h
    · cases w with
      | nil => exact List.nil_infix
      | cons ch w => exact absurd (List.mem_cons_self ..) (hno ch (h.subset (List.mem_cons_self ..)))
    · cases back with
      | nil =>
        rw [List.append_nil]
        exact hfront.isInfix
      | cons ch back =>
        exact absurd (by simp) (hno ch (hback.subset (List.mem_cons_self ..)))
  obtain ⟨front, back, rfl⟩ := hfound
  rw [List.append_assoc] at hsame
  have hword := List.forall₂_take_append _ _ _ (List.forall₂_drop_append _ _ _ hsame)
  rw [← eq_of_finalAtCut hword hsigma]
  exact ((List.take_prefix _ _).isInfix.trans (List.drop_suffix _ _).isInfix).trans
    (List.prefix_append _ _).isInfix

end ConventionalCommit.Text
