import BinaryLayout.Proofs.Definition.Reading
import BinaryLayout.Proofs.Text.Spacing

/-!
# Declarations behind a definition

When a text is followed by a line break and another text, the words of the second follow those of
the first. Reading goes from the first word to the last and never back: a fault of the first text is
reported before anything behind it is looked at, unless the text only ends too early, and a text
that is read alone is read in the same way with something behind it. What is behind it then starts
at its end and has to avoid its labels.

## Main definitions

* `Definition.extendedBy`: a definition with further fields.
* `Definition.FaultBehind`: the faults that words can have behind earlier triples.

## Main results

* `Definition.parse_appended_of_error`, `Definition.parse_appended`: reading a text with another one
  behind it.
* `Definition.faultBehind_of_parse`: a fault behind a text that is read is one of the words there.
-/

namespace BinaryLayout

/-! ### Triples of words -/

namespace Triple

theorem ofWords_flatMap_words (ts : List Triple) : ofWords (ts.flatMap words) = ts := by
  induction ts with
  | nil => rfl
  | cons t ts ih => exact congrArg (List.cons t) ih

/-- Triples that describe fields have their labels. -/
theorem map_label_eq {width : Width} {ts : List Triple} {fields : List Field}
    (h : List.Forall₂ (Describes width) ts fields) :
    fields.map Field.label = ts.map fun t => String.ofList t.label := by
  induction h with
  | nil => rfl
  | cons ht _ ih => exact congrArg₂ List.cons ht.label_eq.symm ih

end Triple

namespace Definition

variable {width : Width} {padding : Padding} {text later : String} {d : Definition}
  {fault : DefinitionError}

/-! ### Reading words behind others -/

/-- A definition with the fields of a later one behind its own. -/
def extendedBy (d later : Definition) : Definition := ⟨d.fields ++ later.fields, later.totalSize⟩

/-- A fault other than that of words left over does not depend on what follows. -/
theorem place_append_of_error {ws' : List (List Char)}
    (hfault : ∀ label, fault ≠ .incomplete label) :
    ∀ {ws : List (List Char)} {labels : List String} {offset : Nat},
      place width padding labels offset ws = .error fault →
        place width padding labels offset (ws ++ ws') = .error fault
  | [], _, _, h => by simp only [place, reduceCtorEq] at h
  | [_], _, _, h => absurd (Except.error.inj h).symm (hfault _)
  | [_, _], _, _, h => absurd (Except.error.inj h).symm (hfault _)
  | label :: statement :: datum :: rest, labels, offset, h => by
      simp only [place] at h
      simp only [List.cons_append, place]
      cases hread : Declaration.read label statement datum with
      | error fault' => simpa only [hread] using h
      | ok decl =>
        simp only [hread] at h ⊢
        split_ifs at h ⊢ with hlabel
        · exact h
        · cases hone : placeOne width padding offset decl with
          | error fault' => simpa only [hone] using h
          | ok placed =>
            simp only [hone] at h ⊢
            cases hlater : place width padding (decl.label :: labels) placed.2 rest with
            | error fault' =>
              simp only [hlater, Except.error.injEq] at h
              have hlater' := hlater.trans (congrArg Except.error h)
              rw [place_append_of_error hfault hlater']
            | ok later => simp only [hlater, reduceCtorEq] at h

/-- Words that are read are read in the same way with others behind them, which start at their end
and have to avoid their labels. -/
theorem place_append_of_ok {ws' : List (List Char)} : ∀ {ws : List (List Char)}
    {labels : List String} {offset : Nat} {d : Definition},
      place width padding labels offset ws = .ok d →
        place width padding labels offset (ws ++ ws') =
          (place width padding ((d.fields.map Field.label).reverse ++ labels) d.totalSize ws').map
            d.extendedBy
  | [], labels, offset, d, h => by
      simp only [place, Except.ok.injEq] at h
      subst h
      rw [List.nil_append]
      change _ = (place width padding labels offset ws').map (extendedBy ⟨[], offset⟩)
      cases place width padding labels offset ws' <;> rfl
  | [_], _, _, _, h => by simp only [place, reduceCtorEq] at h
  | [_, _], _, _, _, h => by simp only [place, reduceCtorEq] at h
  | _ :: _ :: _ :: _, labels, offset, _, h => by
      obtain ⟨decl, later, hread, hlabel, hneg, hle, hlater, rfl⟩ := place_cons_eq_ok h
      have hone : placeOne width padding offset decl =
          .ok (decl.placed width padding offset, (decl.placed width padding offset).stop) :=
        placeOne_eq_ok_iff.mpr ⟨hneg, rfl, rfl, hle⟩
      -- The pass collects the labels in reverse.
      have hlabels : ((decl.placed width padding offset :: later.fields).map Field.label).reverse ++
          labels = (later.fields.map Field.label).reverse ++ decl.label :: labels := by
        rw [List.map_cons, List.reverse_cons, List.append_assoc]
        rfl
      rw [hlabels]
      simp only [List.cons_append, place, hread, if_neg hlabel, hone, place_append_of_ok hlater]
      cases place width padding ((later.fields.map Field.label).reverse ++ decl.label :: labels)
        later.totalSize ws' <;> rfl

/-! ### Faults of words behind others -/

/-- The faults that words can have behind earlier triples: that of one of their triples behind the
earlier ones and those before it, or that they end within a declaration. -/
inductive FaultBehind (width : Width) (padding : Padding) (earlier : List Triple)
    (words : List (List Char)) : DefinitionError → Prop
  | triple {i : Nat} {t : Triple} {fault : DefinitionError}
      (ht : (Triple.ofWords words)[i]? = some t)
      (hfault : t.fault? width padding (earlier ++ (Triple.ofWords words).take i) = some fault) :
      FaultBehind width padding earlier words fault
  | leftover {label : List Char} {rest : List (List Char)}
      (hrest : Triple.leftover words = label :: rest) :
      FaultBehind width padding earlier words (.incomplete (String.ofList label))

/-- What fails behind triples whose fields have been placed is one of the words there. -/
theorem faultBehind_of_place {earlier : List Triple} {labels : List String}
    {words : List (List Char)}
    (hlabels : ∀ s, String.ofList s ∈ labels ↔ s ∈ earlier.map Triple.label)
    (h : place width padding labels (Triple.endOf width padding earlier) words = .error fault) :
    FaultBehind width padding earlier words fault := by
  rw [place_eq rfl hlabels, settle_eq_error_iff] at h
  obtain hfirst | ⟨-, label, rest, hrest, rfl⟩ := h
  · obtain ⟨⟨t, j⟩, hmem, hfault⟩ := List.exists_of_findSome?_eq_some hfirst
    obtain ⟨hle, ht⟩ := List.mk_mem_zipIdx_iff_le_and_getElem?_sub.mp hmem
    change t.fault? width padding ((earlier ++ Triple.ofWords words).take j) = some fault at hfault
    rw [List.take_append, List.take_of_length_le hle] at hfault
    exact .triple ht hfault
  · exact .leftover hrest

/-! ### A text with another one behind it -/

/-- The words of a text with another one on the next line are those of the two. -/
theorem words_appended (text later : String) : Text.words (text ++ "\n" ++ later).toList =
    Text.words text.toList ++ Text.words later.toList := by
  have hlist : (text ++ "\n" ++ later).toList = text.toList ++ '\n' :: later.toList := by
    rw [String.toList_append, String.toList_append, List.append_assoc]
    rfl
  rw [hlist]
  exact Text.words_append_blank rfl _ _

theorem parse_appended_of_error (h : parse text width padding = .error fault)
    (hfault : ∀ label, fault ≠ .incomplete label) :
    parse (text ++ "\n" ++ later) width padding = .error fault := by
  rw [parse, words_appended]
  exact place_append_of_error hfault h

/-- Behind a text that is read, what counts is how the words of the other one are read behind it. -/
theorem parse_appended (h : parse text width padding = .ok d) :
    parse (text ++ "\n" ++ later) width padding =
      (place width padding (d.fields.map Field.label).reverse d.totalSize
        (Text.words later.toList)).map d.extendedBy := by
  rw [parse, words_appended, place_append_of_ok h, List.append_nil]

theorem parse_appended_eq_ok_iff (h : parse text width padding = .ok d) {d' : Definition} :
    parse (text ++ "\n" ++ later) width padding = .ok d' ↔
      ∃ e, place width padding (d.fields.map Field.label).reverse d.totalSize
        (Text.words later.toList) = .ok e ∧ d' = d.extendedBy e := by
  rw [parse_appended h]
  cases place width padding (d.fields.map Field.label).reverse d.totalSize
      (Text.words later.toList) with
  | error fault => simp only [Except.map, reduceCtorEq, false_and, exists_false]
  | ok e => simp only [Except.map, Except.ok.injEq, exists_eq_left', eq_comm]

theorem parse_appended_eq_error_iff (h : parse text width padding = .ok d) :
    parse (text ++ "\n" ++ later) width padding = .error fault ↔
      place width padding (d.fields.map Field.label).reverse d.totalSize
        (Text.words later.toList) = .error fault := by
  rw [parse_appended h]
  cases place width padding (d.fields.map Field.label).reverse d.totalSize
      (Text.words later.toList) with
  | error fault' => rfl
  | ok e => simp only [Except.map, reduceCtorEq]

/-- The labels of a definition are the first words of its triples. -/
theorem map_label_of_parse (h : parse text width padding = .ok d) : d.fields.map Field.label =
    (Triple.ofWords (Text.words text.toList)).map fun t => String.ofList t.label := by
  obtain ⟨ts, hwords, hts, -, -⟩ := parse_eq_ok_iff.mp h
  rw [hwords, Triple.ofWords_flatMap_words]
  exact Triple.map_label_eq hts

/-- What fails behind a text that is read is one of the words of the other text. -/
theorem faultBehind_of_parse (h : parse text width padding = .ok d)
    (hfault : parse (text ++ "\n" ++ later) width padding = .error fault) :
    FaultBehind width padding (Triple.ofWords (Text.words text.toList)) (Text.words later.toList)
      fault := by
  have hplace := (parse_appended_eq_error_iff h).mp hfault
  rw [map_label_of_parse h, congrArg totalSize (eq_of_parse h)] at hplace
  refine faultBehind_of_place (fun s => ?_) hplace
  simp only [List.mem_reverse, List.mem_map, String.ofList_inj]

end Definition

end BinaryLayout
