import BinaryLayout.Proofs.Definition.Printing

/-!
# Spellings of a definition

A definition can be written in many ways: with any blanks between its words, with any characters in
the middle of a statement, with a value in any base and a sign or none. The ways of writing it are
the texts whose words are alike one by one. They are read as the same definition, its offsets
included, or not at all, and one of them is the canonical form.

## Main definitions

* `Definition.Alike`: two sequences of words that spell the same declarations.

## Main results

* `Definition.parse_spelling`: the definition that is read does not depend on the spelling.
-/

namespace BinaryLayout.Definition

variable {width : Width} {padding : Padding} {text text' : String} {ws ws' : List (List Char)}

/-- The words spell the same declarations: the labels are the same, the statements are resolved
alike, and the literals denote the same value. -/
inductive Alike (width : Width) : List (List Char) → List (List Char) → Prop
  | nil : Alike width [] []
  | label (label : List Char) : Alike width [label] [label]
  | statement (label : List Char) {s s' : List Char}
      (hs : Statement.resolve width s = Statement.resolve width s') :
      Alike width [label, s] [label, s']
  | declaration (label : List Char) {s s' datum datum' : List Char} {v : Int64}
      {ws ws' : List (List Char)} (hs : Statement.resolve width s = Statement.resolve width s')
      (hv : Literal.Denotes datum v.toInt) (hv' : Literal.Denotes datum' v.toInt)
      (h : Alike width ws ws') :
      Alike width (label :: s :: datum :: ws) (label :: s' :: datum' :: ws')

theorem Alike.symm (h : Alike width ws ws') : Alike width ws' ws := by
  induction h with
  | nil => exact .nil
  | label label => exact .label label
  | statement label hs => exact .statement label hs.symm
  | declaration label hs hv hv' _ ih => exact .declaration label hs.symm hv' hv ih

/-- Three words are the first of some triples only if they are the first triple. -/
theorem exists_cons_of_words_eq {label s datum : List Char} {ts : List Triple}
    (h : label :: s :: datum :: ws = ts.flatMap Triple.words) :
    ∃ rest, ts = ⟨label, s, datum⟩ :: rest ∧ ws = rest.flatMap Triple.words := by
  cases ts with
  | nil => exact absurd h (List.cons_ne_nil _ _)
  | cons t rest =>
    simp only [List.flatMap_cons, Triple.words, List.cons_append, List.nil_append,
      List.cons.injEq] at h
    obtain ⟨rfl, rfl, rfl, h⟩ := h
    exact ⟨rest, rfl, h⟩

/-- What words describe, the words of another spelling describe as well. -/
theorem Alike.exists_describes (h : Alike width ws ws') {ts : List Triple} {fields : List Field}
    (hwords : ws = ts.flatMap Triple.words)
    (hts : List.Forall₂ (Triple.Describes width) ts fields) :
    ∃ ts' : List Triple, ws' = ts'.flatMap Triple.words ∧
      List.Forall₂ (Triple.Describes width) ts' fields := by
  induction h generalizing ts fields with
  | nil => exact ⟨ts, hwords, hts⟩
  | label label => exact ⟨ts, hwords, hts⟩
  | statement label hs =>
    -- Two words are not made of triples.
    cases ts with
    | nil => exact absurd hwords (List.cons_ne_nil _ _)
    | cons t ts => simp [Triple.words] at hwords
  | @declaration label s s' datum datum' v ws ws' hs hv hv' _ ih =>
    obtain ⟨rest, rfl, hlater⟩ := exists_cons_of_words_eq hwords
    obtain ⟨f, fields, ht, hrest, rfl⟩ := List.forall₂_cons_left_iff.mp hts
    obtain ⟨rest', rfl, hrest'⟩ := ih hlater hrest
    have hdatum : v = f.datum := Option.some.inj <|
      (Literal.value?_eq_some_iff.mpr hv).symm.trans (Literal.value?_eq_some_iff.mpr ht.denotes)
    refine ⟨⟨label, s', datum'⟩ :: rest', rfl, .cons ⟨ht.label_eq, ?_, ?_⟩ hrest'⟩
    · exact hs.symm.trans ht.resolve_eq
    · exact hdatum ▸ hv'

theorem parse_of_alike {d : Definition} (hws : Text.Spaced ws text.toList)
    (hws' : Text.Spaced ws' text'.toList) (h : Alike width ws ws')
    (hd : parse text width padding = .ok d) : parse text' width padding = .ok d := by
  obtain ⟨ts, hwords, hts, hp, hnodup⟩ := parse_eq_ok_iff.mp hd
  rw [hws.words_eq] at hwords
  obtain ⟨ts', hwords', hts'⟩ := h.exists_describes hwords hts
  exact parse_eq_ok_iff.mpr ⟨ts', hws'.words_eq.trans hwords', hts', hp, hnodup⟩

/-- **Spelling.** Two texts whose words are alike, however they are spaced, are read as the same
definition if one of them is read at all, and the definition in canonical form is read as it too. -/
theorem parse_spelling (hws : Text.Spaced ws text.toList) (hws' : Text.Spaced ws' text'.toList)
    (h : Alike width ws ws') (d : Definition) :
    (parse text width padding = .ok d ↔ parse text' width padding = .ok d) ∧
      (parse text width padding = .ok d → parse (d.print width) width padding = .ok d) :=
  ⟨⟨parse_of_alike hws hws' h, parse_of_alike hws' hws h.symm⟩, parse_print⟩

/-- A byte and an aligned word, in decimal with single spaces, and in hexadecimal and octal with
other statements and other blanks. -/
theorem parse_spelling_byte_word :
    let d : Definition := ⟨[⟨"a", .constant, 1, 0, 16⟩, ⟨"b", .constant, 2, 2, -8⟩], 4⟩
    parse "a dc.b 16 b dc.w -8" .bits32 .int = .ok d ∧
      parse "\u3000a dc-x.b\t#10\u2028b dcdc.s -010\n" .bits32 .int = .ok d ∧
      parse (d.print .bits32) .bits32 .int = .ok d := by
  intro d
  have hws : Text.Spaced [['a'], "dc.b".toList, ['1', '6'], ['b'], "dc.w".toList, ['-', '8']]
      "a dc.b 16 b dc.w -8".toList := Text.words_eq_iff.mp (by decide +kernel)
  have hws' : Text.Spaced
      [['a'], "dc-x.b".toList, "#10".toList, ['b'], "dcdc.s".toList, "-010".toList]
      "\u3000a dc-x.b\t#10\u2028b dcdc.s -010\n".toList := Text.words_eq_iff.mp (by decide +kernel)
  have halike : Alike .bits32 [['a'], "dc.b".toList, ['1', '6'], ['b'], "dc.w".toList, ['-', '8']]
      [['a'], "dc-x.b".toList, "#10".toList, ['b'], "dcdc.s".toList, "-010".toList] :=
    .declaration ['a'] (v := 16) rfl (Literal.value?_eq_some_iff.mp (by decide +kernel))
      (Literal.value?_eq_some_iff.mp (by decide +kernel)) <|
    .declaration ['b'] (v := -8) rfl (Literal.value?_eq_some_iff.mp (by decide +kernel))
      (Literal.value?_eq_some_iff.mp (by decide +kernel)) .nil
  obtain ⟨hiff, hprint⟩ := @parse_spelling .bits32 .int _ _ _ _ hws hws' halike d
  have hd : parse "a dc.b 16 b dc.w -8" .bits32 .int = .ok d := by decide +kernel
  exact ⟨hd, hiff.mp hd, hprint hd⟩

end BinaryLayout.Definition
