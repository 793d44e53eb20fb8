import BinaryLayout.Proofs.Definition.Reading
import BinaryLayout.Proofs.Literal.Grammar

/-!
# Printing definitions

A definition is printed with a line for each declaration: the label, the statement and the value or
number of elements, with a space between them. The words of what is printed are those that were
put in, so a printed definition is read as the fields that its lines describe. Every field that a
definition can have has a statement of its own kind and element size, and its datum in decimal, so
every definition can be printed.

## Main definitions

* `Triple.print`: the lines of triples of words.
* `Field.triple`: the canonical declaration of a field.
* `Definition.print`: a definition in canonical form.

## Main results

* `Triple.spaced_print`: the words of what is printed are those that were put in.
* `Definition.parse_print`: a definition in canonical form is read as itself.
-/

namespace BinaryLayout

/-! ### Canonical statements -/

/-- The letters that a statement of the kind begins with. -/
def FieldKind.letters : FieldKind → List Char
  | constant => ['d', 'c']
  | space => ['d', 's']

namespace ElementType

variable {width : Width}

/-- The letters that a statement of the element type ends with. -/
def letters : ElementType → List Char
  | byte => ['.', 'b']
  | word => ['.', 'w']
  | int => ['.', 'i']
  | long => ['.', 'l']

/-- An element type of the given size, if there is one on a machine of the width. -/
def ofSize (width : Width) (size : Nat) : ElementType :=
  if size = 1 then byte
  else if size = 2 then word
  else if size = width.intSize then int
  else long

theorem size_ofSize (width : Width) (e : ElementType) :
    (ofSize width (e.size width)).size width = e.size width := by
  cases e <;> cases width <;> rfl

end ElementType

theorem Statement.read_letters (kind : FieldKind) (e : ElementType) :
    read (kind.letters ++ e.letters) = .ok ⟨kind, e⟩ := by
  cases kind <;> cases e <;> rfl

theorem Statement.isWord_letters (kind : FieldKind) (e : ElementType) :
    Text.IsWord (kind.letters ++ e.letters) := by
  have hink : (kind.letters ++ e.letters).all Text.isInk = true := by
    cases kind <;> cases e <;> rfl
  exact ⟨by cases kind <;> exact List.cons_ne_nil _ _, Text.not_blank_of_all hink⟩

namespace Field

variable {width : Width} {f : Field}

/-- The canonical statement of a field. -/
def statement (width : Width) (f : Field) : List Char :=
  f.kind.letters ++ (ElementType.ofSize width f.unit).letters

theorem isWord_statement (width : Width) (f : Field) : Text.IsWord (f.statement width) :=
  Statement.isWord_letters _ _

theorem resolve_statement (h : ∃ e : ElementType, e.size width = f.unit) :
    Statement.resolve width (f.statement width) = .ok (f.kind, f.unit) := by
  obtain ⟨e, he⟩ := h
  rw [Statement.resolve, statement, Statement.read_letters, ← he]
  exact congrArg (fun size => Except.ok (f.kind, size)) (ElementType.size_ofSize width e)

/-- The canonical declaration of a field. -/
def triple (width : Width) (f : Field) : Triple :=
  ⟨f.label.toList, f.statement width, Text.signedDecimal f.datum.toInt⟩

theorem describes_triple (h : ∃ e : ElementType, e.size width = f.unit) :
    (f.triple width).Describes width f where
  label_eq := String.ofList_toList
  resolve_eq := resolve_statement h
  denotes := Literal.denotes_signedDecimal f.datum.toInt

end Field

/-! ### Lines -/

namespace Triple

variable {ts : List Triple}

/-- The line of a triple of words. -/
def line (t : Triple) : List Char :=
  t.label ++ ' ' :: (t.statement ++ ' ' :: (t.datum ++ ['\n']))

/-- The lines of triples of words. -/
def print (ts : List Triple) : String := String.ofList (ts.flatMap line)

theorem spaced_line_append {t : Triple} {ws : List (List Char)} {s : List Char}
    (ht : ∀ w ∈ t.words, Text.IsWord w) (h : Text.Spaced ws s) :
    Text.Spaced (t.words ++ ws) (t.line ++ s) := by
  simp only [words, List.forall_mem_cons] at ht
  obtain ⟨hlabel, hstatement, hdatum, -⟩ := ht
  simp only [line, words, List.append_assoc, List.cons_append, List.nil_append]
  exact ((h.word_append hdatum rfl).word_append hstatement rfl).word_append hlabel rfl

theorem spaced_print (h : ∀ t ∈ ts, ∀ w ∈ t.words, Text.IsWord w) :
    Text.Spaced (ts.flatMap words) (print ts).toList := by
  rw [print, String.toList_ofList]
  induction ts with
  | nil => exact .nil fun _ hc => absurd hc List.not_mem_nil
  | cons t ts ih =>
    obtain ⟨ht, hts⟩ := List.forall_mem_cons.mp h
    exact spaced_line_append ht (ih hts)

end Triple

namespace Definition

variable {width : Width} {padding : Padding} {d : Definition} {text : String}

/-! ### What is read can be printed -/

theorem exists_triple_of_parse (h : parse text width padding = .ok d) {f : Field}
    (hf : f ∈ d.fields) : ∃ t : Triple, t.Describes width f ∧ ∀ w ∈ t.words, Text.IsWord w := by
  obtain ⟨ts, hwords, hts, -, -⟩ := parse_eq_ok_iff.mp h
  obtain ⟨t, ht, hdescribes⟩ := Triple.exists_describes_of_mem hts hf
  refine ⟨t, hdescribes, fun w hw => ?_⟩
  exact Text.isWord_of_mem (Text.words_eq_iff.mp hwords) w (List.mem_flatMap_of_mem ht hw)

/-- A label that is read is a word. -/
theorem isWord_label_of_parse (h : parse text width padding = .ok d) {f : Field}
    (hf : f ∈ d.fields) : Text.IsWord f.label.toList := by
  obtain ⟨t, ht, hwords⟩ := exists_triple_of_parse h hf
  rw [← ht.label_eq, String.toList_ofList]
  exact hwords t.label List.mem_cons_self

/-- The elements of a field that is read are of a type. -/
theorem exists_size_eq_of_parse (h : parse text width padding = .ok d) {f : Field}
    (hf : f ∈ d.fields) : ∃ e : ElementType, e.size width = f.unit := by
  obtain ⟨t, ht, -⟩ := exists_triple_of_parse h hf
  obtain ⟨e, he, -⟩ := ht.exists_read
  exact ⟨e, he⟩

/-- A definition in canonical form. -/
def print (d : Definition) (width : Width) : String :=
  Triple.print (d.fields.map (Field.triple width))

theorem spaced_print (width : Width) (h : ∀ f ∈ d.fields, Text.IsWord f.label.toList) :
    Text.Spaced ((d.fields.map (Field.triple width)).flatMap Triple.words)
      (d.print width).toList := by
  refine Triple.spaced_print fun t ht => ?_
  obtain ⟨f, hf, rfl⟩ := List.mem_map.mp ht
  simp only [Triple.words, Field.triple, List.forall_mem_cons]
  exact ⟨h f hf, f.isWord_statement width, Literal.isWord_signedDecimal _,
    fun _ hw => absurd hw List.not_mem_nil⟩

/-- **Printing.** A definition that is read from some text is read from its canonical form. -/
theorem parse_print (h : parse text width padding = .ok d) :
    parse (d.print width) width padding = .ok d := by
  have hdescribes :
      List.Forall₂ (Triple.Describes width) (d.fields.map (Field.triple width)) d.fields := by
    rw [List.forall₂_map_left_iff, List.forall₂_same]
    exact fun f hf => Field.describes_triple (exists_size_eq_of_parse h hf)
  have hspaced := d.spaced_print width fun f hf => isWord_label_of_parse h hf
  exact parse_eq_ok_iff.mpr ⟨_, hspaced.words_eq, hdescribes, placed_of_parse h,
    nodup_labels_of_parse h⟩

example : print ⟨[⟨"a", .constant, 1, 0, 16⟩, ⟨"n", .space, 2, 1, 3⟩], 7⟩ .bits32 =
    "a dc.b 16\nn ds.w 3\n" := by
  decide +kernel

end Definition

end BinaryLayout
