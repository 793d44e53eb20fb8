import BinaryLayout.Proofs.Definition.Placement
import BinaryLayout.Proofs.Literal.Stages

/-!
# The first fault of a definition

A definition is read and placed in one pass, with the labels and the offset so far carried along.
This file states the outcome without the pass: the words are taken three at a time, each triple is
held against six rules, and what counts is the first triple that breaks a rule and the first rule
that it breaks. The rules speak of the text alone, and sizes are summed up without bounds.

## Main definitions

* `Triple`: three words that follow one another, with the field that they describe.
* `Rule`: the rules of a declaration in the order in which they are checked.
* `Definition.firstFault?`, `Definition.verdict`: the outcome for a whole text.

## Main results

* `Definition.parse_eq_verdict`: reading a definition gives this outcome.
-/

namespace BinaryLayout

/-! ### Triples of words -/

/-- Three words that follow one another: a label, a statement and a value or number of elements. -/
structure Triple where
  label : List Char
  statement : List Char
  datum : List Char
  deriving DecidableEq, Repr

namespace Triple

/-- The words, taken three at a time. -/
def ofWords : List (List Char) → List Triple
  | label :: statement :: datum :: rest => ⟨label, statement, datum⟩ :: ofWords rest
  | _ => []

/-- The words behind the last whole triple: none, one or two. -/
def leftover : List (List Char) → List (List Char)
  | _ :: _ :: _ :: rest => leftover rest
  | rest => rest

variable (width : Width) (padding : Padding) (t : Triple)

/-- What the first letters of the statement declare. -/
def kind : FieldKind := if ['d', 's'] <+: t.statement then .space else .constant

/-- The bytes of an element, by the last letter of the statement. -/
def unit : Nat :=
  match t.statement.getLast? with
  | some 'b' => 1
  | some 'i' => width.intSize
  | some 'l' => width.longSize
  | _ => 2

/-- The number that the third word denotes. -/
def value : Int64 := (Literal.value? t.datum).getD 0

/-- Where the field starts behind an offset: a space at once, a constant at the offset rounded up to
its alignment. -/
def start (offset : Nat) : Nat :=
  match t.kind with
  | .space => offset
  | .constant =>
    let alignment := padding.alignment (t.unit width)
    (offset + (alignment - 1)) / alignment * alignment

/-- The bytes of the field. -/
def size : Nat :=
  match t.kind with
  | .space => t.unit width * t.value.toInt.toNat
  | .constant => t.unit width

/-- Where the field ends behind an offset. -/
def stop (offset : Nat) : Nat := t.start width padding offset + t.size width

/-- The field behind an offset. -/
def field (offset : Nat) : Field :=
  ⟨String.ofList t.label, t.kind, t.unit width, t.start width padding offset, t.value⟩

/-- Where the last of the triples' fields ends. -/
def endOf (ts : List Triple) : Nat := ts.foldl (fun offset t => t.stop width padding offset) 0

end Triple

/-! ### Rules -/

/-- A rule of declarations. -/
inductive Rule
  /-- The statement begins with one of the two kinds of field. -/
  | kind
  /-- The statement ends with one of the five element types. -/
  | element
  /-- The third word is a literal of a signed 64-bit integer. -/
  | literal
  /-- The label is new. -/
  | label
  /-- A space has no negative number of elements. -/
  | count
  /-- The field ends within the largest buffer. -/
  | size
  deriving DecidableEq, Repr

namespace Rule

/-- The rules, in the order in which they are checked. -/
def all : List Rule := [kind, element, literal, label, count, size]

/-- What a statement that names an element type ends with. -/
def endings : List (List Char) := [['.', 'b'], ['.', 'w'], ['.', 's'], ['.', 'i'], ['.', 'l']]

/-- The fault of a triple behind earlier ones that breaks the rule. -/
def fault? (width : Width) (padding : Padding) (earlier : List Triple) (t : Triple) :
    Rule → Option DefinitionError
  | kind =>
    if ['d', 'c'] <+: t.statement ∨ ['d', 's'] <+: t.statement then none
    else some (.unknownKind (String.ofList t.statement))
  | element =>
    if ∃ ending ∈ endings, ending <:+ t.statement then none
    else some (.unknownElement (String.ofList t.statement))
  | literal =>
    if ∃ v : Int64, Literal.Denotes t.datum v.toInt then none
    else some (.invalidLiteral (String.ofList t.datum))
  | label =>
    if t.label ∈ earlier.map Triple.label then some (.duplicateLabel (String.ofList t.label))
    else none
  | count =>
    if t.kind = .space ∧ t.value.toInt < 0 then
      some (.negativeCount (String.ofList t.label) t.value)
    else none
  | size =>
    if t.stop width padding (Triple.endOf width padding earlier) < Word.half64 then none
    else some (.tooLarge (String.ofList t.label))

end Rule

/-- The fault of a triple behind earlier ones: that of the first rule that it breaks. -/
def Triple.fault? (width : Width) (padding : Padding) (t : Triple) (earlier : List Triple) :
    Option DefinitionError :=
  Rule.all.findSome? (Rule.fault? width padding earlier t)

namespace Definition

variable (width : Width) (padding : Padding)

/-- The first fault of the first faulty triple. -/
def firstFault? (ts : List Triple) : Option DefinitionError :=
  ts.zipIdx.findSome? fun (t, i) => t.fault? width padding (ts.take i)

/-- The fields of the triples, each behind the end of the ones before it. -/
def fieldsOf (ts : List Triple) : List Field :=
  ts.zipIdx.map fun (t, i) => t.field width padding (Triple.endOf width padding (ts.take i))

/-- A faulty triple is reported, or else the first of the words left over; without either the
fields make the definition. -/
def settle (fault : Option DefinitionError) (leftover : List (List Char)) (d : Definition) :
    Except DefinitionError Definition :=
  match fault, leftover with
  | some fault, _ => .error fault
  | none, label :: _ => .error (.incomplete (String.ofList label))
  | none, [] => .ok d

/-- What the words of a text amount to. -/
def verdict (words : List (List Char)) : Except DefinitionError Definition :=
  let ts := Triple.ofWords words
  settle (firstFault? width padding ts) (Triple.leftover words)
    ⟨fieldsOf width padding ts, Triple.endOf width padding ts⟩

end Definition

/-! ### One triple -/

namespace Statement

theorem kind?_eq_none_iff {s : List Char} :
    kind? s = none ↔ ¬ (['d', 'c'] <+: s ∨ ['d', 's'] <+: s) := by
  simp only [kind?, List.isPrefixOf_iff_prefix]
  split_ifs <;> simp [*]

theorem letters_of_kind? {s : List Char} {k : FieldKind} (h : kind? s = some k) :
    ['d', 'c'] <+: s ∨ ['d', 's'] <+: s := by
  by_contra hnone
  rw [kind?_eq_none_iff.mpr hnone] at h
  cases h

theorem kind?_eq_space_iff {s : List Char} : kind? s = some .space ↔ ['d', 's'] <+: s := by
  simp only [kind?, List.isPrefixOf_iff_prefix]
  split_ifs with hc hs
  · simp only [Option.some.injEq, reduceCtorEq, false_iff]
    rintro ⟨rest, rfl⟩
    simp at hc
  · simp [hs]
  · simp [hs]

theorem element?_eq_none_iff {s : List Char} :
    element? s = none ↔ ¬ ∃ ending ∈ Rule.endings, ending <:+ s := by
  simp only [element?, Rule.endings, List.isSuffixOf_iff_suffix, Bool.or_eq_true]
  split_ifs with hb hw hi hl
  · simp [hb]
  · rcases hw with hw | hw <;> simp [hw]
  · simp [hi]
  · simp [hl]
  · simp [hb, hi, hl, not_or.mp hw]

theorem letters_of_element? {s : List Char} {e : ElementType} (h : element? s = some e) :
    ∃ ending ∈ Rule.endings, ending <:+ s := by
  by_contra hnone
  rw [element?_eq_none_iff.mpr hnone] at h
  cases h

/-- The element type can be told from the last letter alone. -/
theorem size_of_element? {s : List Char} {e : ElementType} (width : Width)
    (h : element? s = some e) : e.size width = match s.getLast? with
      | some 'b' => 1
      | some 'i' => width.intSize
      | some 'l' => width.longSize
      | _ => 2 := by
  have hlast : ∀ {c : Char}, ['.', c] <:+ s → s.getLast? = some c := by
    rintro c ⟨front, rfl⟩
    simp
  simp only [element?, List.isSuffixOf_iff_suffix, Bool.or_eq_true] at h
  split_ifs at h with hb hw hi hl
  · cases h
    rw [hlast hb]
    rfl
  · cases h
    rcases hw with hw | hw <;> rw [hlast hw] <;> rfl
  · cases h
    rw [hlast hi]
    rfl
  · cases h
    rw [hlast hl]
    rfl

end Statement

/-- Rounding up adds the gap. -/
theorem Padding.roundUp_eq (padding : Padding) (offset unit : Nat) :
    (offset + (padding.alignment unit - 1)) / padding.alignment unit * padding.alignment unit =
      offset + padding.gap offset unit := by
  rw [Padding.gap]
  rcases padding.alignment_cases unit with h | h | h | h <;> rw [h] <;> omega

namespace Triple

variable {width : Width} {padding : Padding} {t : Triple}

theorem stop_eq (offset : Nat) :
    t.stop width padding offset = (t.field width padding offset).stop := by
  cases hk : t.kind <;>
    simp only [stop, size, field, Field.stop, Field.totalSize, Field.count, hk, Nat.mul_one]

theorem kind_eq {k : FieldKind} (h : Statement.kind? t.statement = some k) : t.kind = k := by
  have hiff := Statement.kind?_eq_space_iff (s := t.statement)
  rw [h, Option.some.injEq] at hiff
  rw [kind]
  split_ifs with hs
  · exact (hiff.mpr hs).symm
  · cases k with
    | constant => rfl
    | space => exact absurd (hiff.mp rfl) hs

/-- The number of a triple is the one that its third word denotes. -/
theorem value_eq {v : Int64} (h : Literal.Denotes t.datum v.toInt) : t.value = v := by
  rw [value, Literal.value?_eq_some_iff.mpr h, Option.getD_some]

/-- A triple that cannot be read breaks one of the first three rules, with the same fault. -/
theorem fault?_of_read_error {fault : DefinitionError} (earlier : List Triple)
    (h : Declaration.read t.label t.statement t.datum = .error fault) :
    t.fault? width padding earlier = some fault := by
  rw [Declaration.read, Declaration.readStatement, Statement.read] at h
  cases hk : Statement.kind? t.statement with
  | none =>
    have hkind := Statement.kind?_eq_none_iff.mp hk
    simp only [hk, Except.error.injEq] at h
    simp only [fault?, Rule.all, List.findSome?_cons, Rule.fault?, if_neg hkind, h]
  | some k =>
    have hkind := Statement.letters_of_kind? hk
    cases he : Statement.element? t.statement with
    | none =>
      have helement := Statement.element?_eq_none_iff.mp he
      simp only [hk, he, Except.error.injEq] at h
      simp only [fault?, Rule.all, List.findSome?_cons, Rule.fault?, if_pos hkind,
        if_neg helement, h]
    | some e =>
      have helement := Statement.letters_of_element? he
      simp only [hk, he, Declaration.readDatum, Literal.read?_eq_value?] at h
      cases hv : Literal.value? t.datum with
      | none =>
        have hliteral : ¬ ∃ v : Int64, Literal.Denotes t.datum v.toInt := by
          simp only [← Literal.value?_eq_some_iff, hv, reduceCtorEq, exists_false, not_false_iff]
        simp only [hv, Except.error.injEq] at h
        simp only [fault?, Rule.all, List.findSome?_cons, Rule.fault?, if_pos hkind,
          if_pos helement, if_neg hliteral, h]
      | some v => simp [hv] at h

theorem exists_of_read_ok {d : Declaration}
    (h : Declaration.read t.label t.statement t.datum = .ok d) :
    ∃ k e v, Statement.kind? t.statement = some k ∧ Statement.element? t.statement = some e ∧
      Literal.Denotes t.datum v.toInt ∧ d = ⟨String.ofList t.label, ⟨k, e⟩, v⟩ := by
  rw [Declaration.read, Declaration.readStatement, Statement.read] at h
  cases hk : Statement.kind? t.statement with
  | none => simp [hk] at h
  | some k =>
    cases he : Statement.element? t.statement with
    | none => simp [hk, he] at h
    | some e =>
      simp only [hk, he, Declaration.readDatum, Literal.read?_eq_value?] at h
      cases hv : Literal.value? t.datum with
      | none => simp [hv] at h
      | some v =>
        simp only [hv, Except.ok.injEq] at h
        exact ⟨k, e, v, rfl, rfl, Literal.value?_eq_some_iff.mp hv, h.symm⟩

variable {k : FieldKind} {e : ElementType} {v : Int64}
  (hk : Statement.kind? t.statement = some k) (he : Statement.element? t.statement = some e)
  (hv : Literal.Denotes t.datum v.toInt)

include hk he hv

/-- A readable triple describes the field that its declaration becomes. -/
theorem field_eq_placed (width : Width) (padding : Padding) (offset : Nat) :
    t.field width padding offset =
    Declaration.placed ⟨String.ofList t.label, ⟨k, e⟩, v⟩ width padding offset := by
  have hkind := kind_eq hk
  have hunit : t.unit width = e.size width := (Statement.size_of_element? width he).symm
  have hvalue : t.value = v := value_eq hv
  have hstart : t.start width padding offset =
      Declaration.start ⟨String.ofList t.label, ⟨k, e⟩, v⟩ width padding offset := by
    rw [start, Declaration.start, hkind, hunit]
    cases k with
    | constant => exact padding.roundUp_eq offset _
    | space => rfl
  rw [field, hkind, hunit, hvalue, hstart]
  rfl

/-- A readable triple can only break the other three rules. -/
theorem fault?_of_readable (earlier : List Triple) : t.fault? width padding earlier =
    if t.label ∈ earlier.map Triple.label then some (.duplicateLabel (String.ofList t.label))
    else if t.kind = .space ∧ t.value.toInt < 0 then
      some (.negativeCount (String.ofList t.label) t.value)
    else if t.stop width padding (endOf width padding earlier) < Word.half64 then none
    else some (.tooLarge (String.ofList t.label)) := by
  have hkind := Statement.letters_of_kind? hk
  have helement := Statement.letters_of_element? he
  have hliteral : ∃ v : Int64, Literal.Denotes t.datum v.toInt := ⟨v, hv⟩
  simp only [fault?, Rule.all, List.findSome?_cons, Rule.fault?, if_pos hkind, if_pos helement,
    if_pos hliteral, List.findSome?_nil]
  split_ifs <;> rfl

end Triple

namespace Definition

variable {width : Width} {padding : Padding}

/-- **One step.** A triple's first fault ends the pass; without a fault its field is the next one,
and the pass goes on behind it. -/
theorem place_triple {earlier : List Triple} {labels : List String} {offset : Nat} (t : Triple)
    (rest : List (List Char))
    (hlabels : ∀ s, String.ofList s ∈ labels ↔ s ∈ earlier.map Triple.label)
    (hoffset : offset = Triple.endOf width padding earlier) :
    place width padding labels offset (t.label :: t.statement :: t.datum :: rest) =
      match t.fault? width padding earlier with
      | some fault => .error fault
      | none =>
        match place width padding (String.ofList t.label :: labels)
          (t.stop width padding offset) rest with
        | .error fault => .error fault
        | .ok later =>
          .ok ⟨t.field width padding offset :: later.fields, later.totalSize⟩ := by
  have hmax (n : Nat) : n ≤ maxSize ↔ n < Word.half64 := Nat.lt_succ_iff.symm
  cases hread : Declaration.read t.label t.statement t.datum with
  | error fault =>
    rw [Triple.fault?_of_read_error earlier hread, place, hread]
  | ok d =>
    obtain ⟨k, e, v, hk, he, hv, rfl⟩ := Triple.exists_of_read_ok hread
    have hfield := Triple.field_eq_placed hk he hv width padding offset
    have hvalue : t.value = v := Triple.value_eq hv
    rw [Triple.fault?_of_readable hk he hv, ← hoffset, place, hread, Triple.stop_eq, hfield]
    have hneg : Declaration.hasNegativeCount ⟨String.ofList t.label, ⟨k, e⟩, v⟩ = true ↔
        t.kind = .space ∧ t.value.toInt < 0 := by
      simp [Declaration.hasNegativeCount, Triple.kind_eq hk, hvalue, Int64.lt_iff_toInt_lt]
    by_cases hlabel : t.label ∈ earlier.map Triple.label
    · simp only [if_pos hlabel, if_pos ((hlabels _).mpr hlabel)]
    simp only [if_neg hlabel, if_neg ((hlabels _).not.mpr hlabel), placeOne, slot?_eq, hneg, hmax]
    split_ifs
    · rw [hvalue]
    · rfl
    · rfl

/-- The pass over the rest of the words, behind the triples that have been placed. -/
theorem place_eq {ts : List Triple} : ∀ {words : List (List Char)} {earlier : List Triple}
    {labels : List String}, ts = earlier ++ Triple.ofWords words →
    (∀ s, String.ofList s ∈ labels ↔ s ∈ earlier.map Triple.label) →
    place width padding labels (Triple.endOf width padding earlier) words =
      settle (((Triple.ofWords words).zipIdx earlier.length).findSome? fun (t, i) =>
          t.fault? width padding (ts.take i)) (Triple.leftover words)
        ⟨((Triple.ofWords words).zipIdx earlier.length).map fun (t, i) =>
            t.field width padding (Triple.endOf width padding (ts.take i)),
          Triple.endOf width padding ts⟩
  | [], earlier, _, hts, _ => by
      obtain rfl : ts = earlier := hts.trans (List.append_nil earlier)
      rfl
  | [_], _, _, _, _ => rfl
  | [_, _], _, _, _, _ => rfl
  | label :: statement :: datum :: rest, earlier, labels, hts, hlabels => by
      set t : Triple := ⟨label, statement, datum⟩
      have hwords : Triple.ofWords (label :: statement :: datum :: rest) =
          t :: Triple.ofWords rest := rfl
      have hleftover : Triple.leftover (label :: statement :: datum :: rest) =
          Triple.leftover rest := rfl
      have htake : ts.take earlier.length = earlier := by rw [hts, List.take_left]
      have hts' : ts = earlier ++ [t] ++ Triple.ofWords rest := by
        rw [hts, hwords, List.append_assoc, List.singleton_append]
      have hend : Triple.endOf width padding (earlier ++ [t]) =
          t.stop width padding (Triple.endOf width padding earlier) :=
        List.foldl_append
      have hlabels' : ∀ s, String.ofList s ∈ String.ofList t.label :: labels ↔
          s ∈ (earlier ++ [t]).map Triple.label := by
        intro s
        rw [List.mem_cons, hlabels, List.map_append, List.mem_append, String.ofList_inj, or_comm]
        simp
      have hlength : (earlier ++ [t]).length = earlier.length + 1 := List.length_append
      rw [place_triple t rest hlabels rfl, ← hend, place_eq hts' hlabels', hlength, hwords,
        hleftover, List.zipIdx_cons, List.findSome?_cons, List.map_cons]
      simp only [htake]
      cases t.fault? width padding earlier with
      | some fault => rfl
      | none =>
        cases List.findSome? _ ((Triple.ofWords rest).zipIdx (earlier.length + 1)) with
        | some fault => rfl
        | none => cases Triple.leftover rest <;> rfl

theorem settle_eq_ok_iff {fault : Option DefinitionError} {leftover : List (List Char)}
    {d d' : Definition} :
    settle fault leftover d = .ok d' ↔ fault = none ∧ leftover = [] ∧ d = d' := by
  cases fault <;> cases leftover <;> simp [settle]

theorem settle_eq_error_iff {fault : Option DefinitionError} {leftover : List (List Char)}
    {d : Definition} {fault' : DefinitionError} :
    settle fault leftover d = .error fault' ↔ fault = some fault' ∨
      fault = none ∧ ∃ label rest, leftover = label :: rest ∧
        fault' = .incomplete (String.ofList label) := by
  cases fault <;> cases leftover <;> simp [settle, eq_comm]

/-- A definition that is read has the fields of its triples. -/
theorem eq_of_parse {text : String} {d : Definition} (h : parse text width padding = .ok d) :
    d = ⟨fieldsOf width padding (Triple.ofWords (Text.words text.toList)),
      Triple.endOf width padding (Triple.ofWords (Text.words text.toList))⟩ := by
  have hplace : parse text width padding = verdict width padding (Text.words text.toList) :=
    place_eq (List.nil_append _).symm fun s => by simp
  rw [hplace, verdict, settle_eq_ok_iff] at h
  exact h.2.2.symm

/-- **The first fault.** Every text is read as its words demand: cut at blanks and taken three at a
time, the first triple that breaks a rule decides with the first rule that it breaks; words left
over come next; else each triple has its field, and every end is an exact sum. -/
theorem parse_eq_verdict (text : String) (width : Width) (padding : Padding) :
    parse text width padding =
      verdict width padding ((text.toList.splitOnP Text.isBlank).filter (· ≠ [])) := by
  rw [← Text.words_eq_filter_splitOnP]
  exact place_eq (List.nil_append _).symm fun s => by simp

/-- A space may fill the largest buffer, but not go beyond it by one element. -/
example : Definition.verdict .bits16 .none
      (["a", "ds.b", "0x7fffffffffffffff", "b", "ds.b", "0"].map String.toList) =
        .ok ⟨[⟨"a", .space, 1, 0, Int64.maxValue⟩, ⟨"b", .space, 1, Word.half64 - 1, 0⟩],
          Word.half64 - 1⟩ ∧
    Definition.verdict .bits64 .none (["a", "ds.l", "#1000000000000000", "b"].map String.toList) =
      .error (.tooLarge "a") := by
  decide +kernel

end Definition

end BinaryLayout
