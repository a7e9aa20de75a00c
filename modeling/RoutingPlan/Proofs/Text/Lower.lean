import Mathlib.Data.List.TakeWhile
import RoutingPlan.Text.Case
import RoutingPlan.Text.Search

-- Lower case in context. A capital sigma is the one character whose lower case hangs on the text
-- around it, so a part of a text has the lower case that it has by itself if its sigmas do.

namespace RoutingPlan.Text

variable {before after before' after' k l r x y : List Char} {c : Char}

theorem meetsCased_of_ignorable (h : ∀ c ∈ x, isCaseIgnorable c) : meetsCased x = false := by
  rw [meetsCased, List.dropWhile_eq_nil_iff.mpr h]

theorem meetsCased_append_of_ignorable (h : ∀ c ∈ x, isCaseIgnorable c) :
    meetsCased (x ++ y) = meetsCased y := by
  rw [meetsCased, List.dropWhile_append_of_pos h, meetsCased]

theorem meetsCased_append_of_not_ignorable (h : ¬ ∀ c ∈ x, isCaseIgnorable c) :
    meetsCased (x ++ y) = meetsCased x := by
  have kept : x.dropWhile isCaseIgnorable ≠ [] := mt List.dropWhile_eq_nil_iff.mp h
  have ⟨c, cs, eq⟩ := List.exists_cons_of_ne_nil kept
  simp [meetsCased, List.dropWhile_append, eq]

theorem meetsCased_append (h : meetsCased x) : meetsCased (x ++ y) := by
  rw [meetsCased_append_of_not_ignorable, h]
  intro all
  simp [meetsCased_of_ignorable all] at h

-- Whether a sigma between two texts ends a word.
def endsWord (before after : List Char) : Bool :=
  meetsCased before.reverse && !meetsCased after

theorem endsWord_append_left (h : endsWord l r) : endsWord (before ++ l) r := by
  simp only [endsWord, Bool.and_eq_true, List.reverse_append] at h ⊢
  exact ⟨meetsCased_append h.left, h.right⟩

theorem endsWord_of_append_right (h : endsWord l (r ++ after)) : endsWord l r := by
  simp only [endsWord, Bool.and_eq_true, Bool.not_eq_true'] at h ⊢
  exact ⟨h.left, Bool.eq_false_iff.mpr fun met => by simp [meetsCased_append met] at h⟩

-- The lower case of a character between two texts.
def lowerAt (before after : List Char) (c : Char) : List Char :=
  if c = 'Σ' then [if endsWord before after then 'ς' else 'σ'] else lowerChar c

-- The lower case of a part of a text, between what comes before it and what comes after it.
def lowerWithin (before after : List Char) : List Char → List Char
  | []      => []
  | c :: cs => lowerAt before (cs ++ after) c ++ lowerWithin (before ++ [c]) after cs

theorem lowerFrom_reverse : lowerFrom before.reverse k = lowerWithin before [] k := by
  induction k generalizing before with
  | nil => rfl
  | cons c cs ih =>
    have rest := @ih (before ++ [c])
    rw [List.reverse_concat] at rest
    simp [lowerFrom, lowerWithin, lowerAt, endsWord, rest]

theorem toList_toLower {s : String} : (toLower s).toList = lowerWithin [] [] s.toList := by
  rw [toLower, String.toList_ofList]
  exact @lowerFrom_reverse [] s.toList

theorem lowerWithin_append : lowerWithin before after (x ++ y) =
    lowerWithin before (y ++ after) x ++ lowerWithin (before ++ x) after y := by
  induction x generalizing before with
  | nil         => simp [lowerWithin]
  | cons c x ih => simp [lowerWithin, ih]

theorem lowerAt_congr (same : c = 'Σ' → endsWord l r = endsWord x y) :
    lowerAt l r c = lowerAt x y c := by
  unfold lowerAt
  split
  case isTrue h  => rw [same h]
  case isFalse _ => rfl

theorem lowerWithin_congr
    (same : ∀ l r, k = l ++ 'Σ' :: r →
      endsWord (before ++ l) (r ++ after) = endsWord (before' ++ l) (r ++ after')) :
    lowerWithin before after k = lowerWithin before' after' k := by
  induction k generalizing before before' with
  | nil => rfl
  | cons c cs ih =>
    have head : lowerAt before (cs ++ after) c = lowerAt before' (cs ++ after') c :=
      lowerAt_congr fun h => by simpa using same [] cs (h ▸ rfl)
    have tail : lowerWithin (before ++ [c]) after cs = lowerWithin (before' ++ [c]) after' cs :=
      ih fun l r split => by simpa using same (c :: l) r (split ▸ rfl)
    rw [lowerWithin, lowerWithin, head, tail]

-- A text that occurs in another one, where its sigmas are what they are by themselves, occurs in
-- lower case, too.
theorem lower_infix_of_same
    (same : ∀ l r, k = l ++ 'Σ' :: r → endsWord (before ++ l) (r ++ after) = endsWord l r) :
    lowerWithin [] [] k <:+: lowerWithin [] [] (before ++ k ++ after) := by
  have part : lowerWithin before after k = lowerWithin [] [] k :=
    lowerWithin_congr fun l r split => by simpa using same l r split
  simp only [lowerWithin_append, List.append_nil, List.nil_append, part]
  exact List.infix_append ..

section Count

-- Every sigma that ends a word between `before` and `after` does so between `before'` and `after'`,
-- too. So there are no more of those that do not, and no fewer of those that do.

theorem count_lowerAt_le (more : c = 'Σ' → endsWord l r → endsWord x y) :
    (lowerAt x y c).count 'σ' ≤ (lowerAt l r c).count 'σ' ∧
      (lowerAt l r c).count 'ς' ≤ (lowerAt x y c).count 'ς' := by
  unfold lowerAt
  split
  case isFalse _ => simp
  case isTrue h =>
    cases first : endsWord l r with
    | true  => simp [more h first]
    | false => cases endsWord x y <;> simp

theorem count_lowerWithin_le
    (more : ∀ l r, k = l ++ 'Σ' :: r →
      endsWord (before ++ l) (r ++ after) → endsWord (before' ++ l) (r ++ after')) :
    (lowerWithin before' after' k).count 'σ' ≤ (lowerWithin before after k).count 'σ' ∧
      (lowerWithin before after k).count 'ς' ≤ (lowerWithin before' after' k).count 'ς' := by
  induction k generalizing before before' with
  | nil => simp [lowerWithin]
  | cons c cs ih =>
    have head := @count_lowerAt_le before (cs ++ after) before' (cs ++ after') c fun h => by
      simpa using more [] cs (h ▸ rfl)
    have tail := @ih (before ++ [c]) (before' ++ [c]) fun l r split => by
      simpa using more (c :: l) r (split ▸ rfl)
    simp only [lowerWithin, List.count_append]
    omega

-- One sigma that does so only between `before'` and `after'` makes the difference.
theorem count_lowerWithin_lt
    (more : ∀ l r, k = l ++ 'Σ' :: r →
      endsWord (before ++ l) (r ++ after) → endsWord (before' ++ l) (r ++ after'))
    (split : k = l ++ 'Σ' :: r) (first : endsWord (before ++ l) (r ++ after) = false)
    (second : endsWord (before' ++ l) (r ++ after') = true) :
    (lowerWithin before' after' k).count 'σ' < (lowerWithin before after k).count 'σ' ∧
      (lowerWithin before after k).count 'ς' < (lowerWithin before' after' k).count 'ς' := by
  subst split
  have left := @count_lowerWithin_le before ('Σ' :: (r ++ after)) before' ('Σ' :: (r ++ after')) l
    fun l' r' eq => by simpa using more l' (r' ++ 'Σ' :: r) (by simp [eq])
  have right := @count_lowerWithin_le (before ++ l ++ ['Σ']) after (before' ++ l ++ ['Σ']) after' r
    fun l' r' eq => by simpa using more (l ++ 'Σ' :: l') r' (by simp [eq])
  have open_ : lowerAt (before ++ l) (r ++ after) 'Σ' = ['σ'] := by simp [lowerAt, first]
  have closed : lowerAt (before' ++ l) (r ++ after') 'Σ' = ['ς'] := by simp [lowerAt, second]
  have parts {before after} : lowerWithin before after (l ++ 'Σ' :: r) =
      lowerWithin before ('Σ' :: (r ++ after)) l ++
        (lowerAt (before ++ l) (r ++ after) 'Σ' ++ lowerWithin (before ++ l ++ ['Σ']) after r) :=
    lowerWithin_append
  have others : ['ς'].count 'σ' = 0 ∧ ['σ'].count 'ς' = 0 := by decide
  simp only [parts, open_, closed, List.count_append, List.count_singleton_self]
  omega

end Count

-- A sigma between two texts gets another lower case if the right text comes before them or after
-- them: nothing but case-ignorable characters comes before it and no cased one after it, or it ends
-- a word and nothing but case-ignorable characters comes after it.
def IsLoose (l r : List Char) : Prop :=
  (∀ c ∈ l, isCaseIgnorable c) ∧ meetsCased r = false ∨
    endsWord l r ∧ ∀ c ∈ r, isCaseIgnorable c

instance : Decidable (IsLoose l r) :=
  decidable_of_iff
    (l.all isCaseIgnorable ∧ meetsCased r = false ∨ endsWord l r ∧ r.all isCaseIgnorable)
    (by simp only [IsLoose, List.all_eq_true])

def HasLooseSigma (k : List Char) : Prop :=
  ∃ l r, k = l ++ 'Σ' :: r ∧ IsLoose l r

theorem hasLooseSigma_iff_exists_lt : HasLooseSigma k ↔
    ∃ i < k.length, k[i]? = some 'Σ' ∧ IsLoose (k.take i) (k.drop (i + 1)) := by
  constructor
  case mp =>
    rintro ⟨l, r, rfl, loose⟩
    exact ⟨l.length, by simp, by simp, by simpa using loose⟩
  case mpr =>
    rintro ⟨i, lt, sigma, loose⟩
    refine ⟨_, _, ?_, loose⟩
    have sigma : k[i] = 'Σ' := List.getElem?_eq_some_iff.mp sigma |>.snd
    rw [← sigma, List.getElem_cons_drop, List.take_append_drop]

instance : Decidable (HasLooseSigma k) :=
  decidable_of_iff _ hasLooseSigma_iff_exists_lt.symm

theorem endsWord_of_not_isLoose (h : ¬ IsLoose l r) :
    endsWord (before ++ l) (r ++ after) = endsWord l r := by
  simp only [IsLoose, not_or, not_and, Bool.not_eq_false] at h
  simp only [endsWord, List.reverse_append] at h ⊢
  by_cases front : ∀ c ∈ l, isCaseIgnorable c
  case pos =>
    have cased : meetsCased r = true := h.left front
    have back : ¬ ∀ c ∈ r, isCaseIgnorable c := fun all => by
      simp [meetsCased_of_ignorable all] at cased
    simp [meetsCased_append_of_not_ignorable back, cased]
  case neg =>
    have front : ¬ ∀ c ∈ l.reverse, isCaseIgnorable c := by simpa using front
    rw [meetsCased_append_of_not_ignorable front]
    by_cases back : ∀ c ∈ r, isCaseIgnorable c
    case pos =>
      have uncased : meetsCased l.reverse = false := by
        by_contra cased
        exact h.right (by simp [meetsCased_of_ignorable back, cased]) back
      rw [uncased, Bool.false_and, Bool.false_and]
    case neg => rw [meetsCased_append_of_not_ignorable back]

section Letter

theorem meetsCased_letter : meetsCased ['a'] = true := by
  decide +kernel

theorem lowerWithin_letter : lowerWithin before after ['a'] = ['a'] := by
  simp [lowerWithin, lowerAt, lowerChar]

-- With a letter in front, a sigma that only ignorable characters precede comes to end a word.
theorem count_after_letter (split : k = l ++ 'Σ' :: r) (ignorable : ∀ c ∈ l, isCaseIgnorable c)
    (uncased : meetsCased r = false) :
    (lowerWithin ['a'] [] k).count 'σ' < (lowerWithin [] [] k).count 'σ' := by
  have ignorable : ∀ c ∈ l.reverse, isCaseIgnorable c := by simpa using ignorable
  have first : endsWord l r = false := by
    simp [endsWord, meetsCased_of_ignorable ignorable]
  have second : endsWord (['a'] ++ l) r = true := by
    simp [endsWord, meetsCased_append_of_ignorable ignorable, meetsCased_letter, uncased]
  have more : ∀ l r, k = l ++ 'Σ' :: r →
      endsWord ([] ++ l) (r ++ []) → endsWord (['a'] ++ l) (r ++ []) :=
    fun _ _ _ => endsWord_append_left
  rw [← List.append_nil r] at first second
  exact (count_lowerWithin_lt more split first second).left

-- With a letter behind, a sigma that only ignorable characters follow ceases to end a word.
theorem count_before_letter (split : k = l ++ 'Σ' :: r) (ends : endsWord l r)
    (ignorable : ∀ c ∈ r, isCaseIgnorable c) :
    (lowerWithin [] ['a'] k).count 'ς' < (lowerWithin [] [] k).count 'ς' := by
  have first : endsWord l (r ++ ['a']) = false := by
    simp [endsWord, meetsCased_append_of_ignorable ignorable, meetsCased_letter]
  have more : ∀ l r, k = l ++ 'Σ' :: r →
      endsWord ([] ++ l) (r ++ ['a']) → endsWord ([] ++ l) (r ++ []) :=
    fun l r _ ends => by simpa using endsWord_of_append_right ends
  rw [← List.append_nil r] at ends
  exact (count_lowerWithin_lt more split first ends).right

end Letter

-- The lower case of a text occurs in that of every text around it if and only if none of its sigmas
-- is loose.
theorem lower_infix_iff :
    (∀ before after, lowerWithin [] [] k <:+: lowerWithin [] [] (before ++ k ++ after)) ↔
      ¬ HasLooseSigma k := by
  constructor
  case mpr =>
    intro settled before after
    exact lower_infix_of_same fun l r split =>
      endsWord_of_not_isLoose fun loose => settled ⟨l, r, split, loose⟩
  case mp =>
    -- An occurrence has each of the two forms as often as the text by itself.
    rintro occurs ⟨l, r, split, front | back⟩
    case inl =>
      have fewer := count_after_letter split front.left front.right
      have kept := (occurs ['a'] []).sublist.count_le 'σ'
      rw [List.append_nil, lowerWithin_append, lowerWithin_letter] at kept
      simp at kept
      omega
    case inr =>
      have fewer := count_before_letter split back.left back.right
      have kept := (occurs [] ['a']).sublist.count_le 'ς'
      rw [List.nil_append, lowerWithin_append, lowerWithin_letter] at kept
      simp at kept
      omega

theorem contains_toLower_of_contains_iff {keyword : String} :
    (∀ s, contains s keyword → contains (toLower s) (toLower keyword)) ↔
      ¬ HasLooseSigma keyword.toList := by
  simp only [contains, occursIn_iff, toList_toLower]
  rw [← lower_infix_iff]
  constructor
  case mp =>
    intro lowered before after
    have := lowered (String.ofList (before ++ keyword.toList ++ after))
    rw [String.toList_ofList] at this
    exact this <| List.infix_append ..
  case mpr =>
    rintro lowered s ⟨before, after, eq⟩
    exact eq ▸ lowered before after

example : HasLooseSigma ['Ο', 'Δ', 'Ο', 'Σ'] ∧ ¬ HasLooseSigma ['Σ', 'Ο', 'Φ', 'Ι', 'Α'] := by
  decide +kernel

end RoutingPlan.Text
