import BinaryLayout.Proofs.Text.Words

/-!
# Spaced texts

A text is spaced when its words stand in order with blanks between them, as many as one likes but at
least one, and any blanks before the first word and behind the last. Every text is a spaced form of
its words and of no others, so nothing but its words can be told from how a text is spaced.

## Main definitions

* `IsWord`, `IsGap`: texts without blanks, and texts of blanks.
* `Spaced`: a text that is made of given words.

## Main results

* `words_eq_iff`: the words of a text are those that it is a spaced form of.
* `words_append_blank`: the words of two texts with a blank between them.
-/

namespace BinaryLayout.Text

variable {w s gap : List Char} {ws : List (List Char)}

/-- A word is not empty and has no blanks. -/
structure IsWord (w : List Char) : Prop where
  ne_nil : w ≠ []
  not_blank : ∀ c ∈ w, isBlank c = false

theorem not_blank_of_all (h : w.all isInk = true) : ∀ c ∈ w, isBlank c = false := by
  intro c hc
  simpa [isInk] using List.all_eq_true.mp h c hc

/-- A word stays a word when characters that are not blank are put in front of it. -/
theorem IsWord.append_left {front : List Char} (hw : IsWord w) (h : front.all isInk = true) :
    IsWord (front ++ w) where
  ne_nil := List.append_ne_nil_of_right_ne_nil front hw.ne_nil
  not_blank := List.forall_mem_append.mpr ⟨not_blank_of_all h, hw.not_blank⟩

/-- A word stays a word when characters that are not blank are put behind it. -/
theorem IsWord.append_right {back : List Char} (hw : IsWord w) (h : back.all isInk = true) :
    IsWord (w ++ back) where
  ne_nil := List.append_ne_nil_of_left_ne_nil hw.ne_nil back
  not_blank := List.forall_mem_append.mpr ⟨hw.not_blank, not_blank_of_all h⟩

/-- A gap has nothing but blanks. -/
def IsGap (gap : List Char) : Prop := ∀ c ∈ gap, isBlank c = true

/-- The words stand in the text one after another. There is a gap before each and behind the last,
and what follows a word begins with a blank, if there is anything. -/
inductive Spaced : List (List Char) → List Char → Prop
  | nil {gap : List Char} (hgap : IsGap gap) : Spaced [] gap
  | cons {gap w s : List Char} {ws : List (List Char)} (hgap : IsGap gap) (hw : IsWord w)
      (hs : ∀ c ∈ s.head?, isBlank c = true) (h : Spaced ws s) : Spaced (w :: ws) (gap ++ w ++ s)

/-! ### The words of a spaced text -/

theorem dropWhile_of_isGap (hgap : IsGap gap) (s : List Char) :
    (gap ++ s).dropWhile isBlank = s.dropWhile isBlank :=
  List.dropWhile_append_of_pos hgap

theorem words_of_isGap (hgap : IsGap gap) : words gap = [] := by
  rw [words_eq_filter_splitOnP, ← filter_splitOnP_dropWhile, List.dropWhile_eq_nil_iff.mpr hgap]
  rfl

theorem words_gap_append (hgap : IsGap gap) (s : List Char) : words (gap ++ s) = words s := by
  rw [words_eq_filter_splitOnP, words_eq_filter_splitOnP, ← filter_splitOnP_dropWhile,
    dropWhile_of_isGap hgap, filter_splitOnP_dropWhile]

theorem words_word_append (hw : IsWord w) (hs : ∀ c ∈ s.head?, isBlank c = true) :
    words (w ++ s) = w :: words s := by
  rw [words_eq_filter_splitOnP, words_eq_filter_splitOnP,
    filter_splitOnP_append hw.ne_nil hw.not_blank hs]

theorem Spaced.words_eq (h : Spaced ws s) : words s = ws := by
  induction h with
  | nil hgap => exact words_of_isGap hgap
  | cons hgap hw hs _ ih =>
    rw [List.append_assoc, words_gap_append hgap, words_word_append hw hs, ih]

theorem spaced_words (s : List Char) : Spaced (words s) s := by
  fun_induction words s with
  | case1 s h => exact .nil (List.dropWhile_eq_nil_iff.mp h)
  | case2 s c rest h ih =>
    have hw : IsWord (c :: rest.takeWhile isInk) :=
      ⟨List.cons_ne_nil _ _, not_blank_of_mem_word h⟩
    have hgap : IsGap (s.takeWhile isBlank) := fun x hx => List.mem_takeWhile_imp hx
    have htext :
        s.takeWhile isBlank ++ (c :: rest.takeWhile isInk) ++ rest.dropWhile isInk = s := by
      rw [List.append_assoc, List.cons_append, List.takeWhile_append_dropWhile, ← h,
        List.takeWhile_append_dropWhile]
    have hspaced := Spaced.cons hgap hw (blank_of_mem_head? rest) ih
    rwa [htext] at hspaced

/-- **Spacing.** The words of a text are those that it is a spaced form of, and no others. -/
theorem words_eq_iff : words s = ws ↔ Spaced ws s :=
  ⟨fun h => h ▸ spaced_words s, Spaced.words_eq⟩

/-! ### Putting words together -/

theorem Spaced.gap_append (hgap : IsGap gap) (h : Spaced ws s) : Spaced ws (gap ++ s) := by
  cases h with
  | nil hs => exact .nil (List.forall_mem_append.mpr ⟨hgap, hs⟩)
  | cons hgap' hw hs h =>
    rw [← List.append_assoc, ← List.append_assoc]
    exact .cons (List.forall_mem_append.mpr ⟨hgap, hgap'⟩) hw hs h

/-- A word and a blank may stand in front of a spaced text. -/
theorem Spaced.word_append {blank : Char} (hw : IsWord w) (hblank : isBlank blank = true)
    (h : Spaced ws s) : Spaced (w :: ws) (w ++ blank :: s) := by
  have hs : ∀ c ∈ (blank :: s).head?, isBlank c = true := fun c hc => Option.some.inj hc ▸ hblank
  have hgap : IsGap [blank] := List.forall_mem_singleton.mpr hblank
  have hnone : IsGap [] := fun _ hc => absurd hc List.not_mem_nil
  exact .cons hnone hw hs (h.gap_append hgap)

/-- Two spaced texts with a blank between them are a spaced text. -/
theorem Spaced.append {blank : Char} {s' : List Char} {ws' : List (List Char)}
    (hblank : isBlank blank = true) (h : Spaced ws s) (h' : Spaced ws' s') :
    Spaced (ws ++ ws') (s ++ blank :: s') := by
  induction h with
  | nil hgap => exact (h'.gap_append (List.forall_mem_singleton.mpr hblank)).gap_append hgap
  | @cons gap w s ws hgap hw hs _ ih =>
    have hs' : ∀ c ∈ (s ++ blank :: s').head?, isBlank c = true := by
      cases s with
      | nil => exact fun c hc => Option.some.inj hc ▸ hblank
      | cons c s => exact hs
    rw [List.append_assoc]
    exact .cons hgap hw hs' ih

/-- A blank between two texts joins no words and separates none. -/
theorem words_append_blank {blank : Char} (hblank : isBlank blank = true) (s s' : List Char) :
    words (s ++ blank :: s') = words s ++ words s' :=
  ((spaced_words s).append hblank (spaced_words s')).words_eq

theorem isWord_of_mem (h : Spaced ws s) : ∀ w ∈ ws, IsWord w := by
  induction h with
  | nil => exact fun w hw => absurd hw List.not_mem_nil
  | cons _ hw _ _ ih => exact List.forall_mem_cons.mpr ⟨hw, ih⟩

end BinaryLayout.Text
