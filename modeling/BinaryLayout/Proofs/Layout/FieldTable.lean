import BinaryLayout.Proofs.Definition.Printing
import BinaryLayout.Proofs.Layout.Accessors
import BinaryLayout.Proofs.Layout.Run

/-!
# The field table

The field table of a reachable layout has a line for each field, and a line shows a constant with
the value that reading it returns at the same time. The table is unambiguous although labels may
hold commas, brackets and signs of equality: no label holds a blank, since labels are words of a
definition, so a line can be cut at its spaces. A constant has five parts and a space four, and each
part is a known text around a number or a label, or a known text alone.

## Main definitions

* `Field.parts`: the parts of the line that shows a field.
* `Layout.Entry`, `Layout.entry`: what the table tells of a field.
* `Layout.Lists`, `Field.SameEntry`: what a line looks like, and what two equal lines tell.

## Main results

* `Field.describe_eq_intercalate`, `Field.splitOn_describe`: a line can be cut into its parts.
* `Layout.entry_eq_of_parts_eq`: the parts tell the entry.
* `Layout.display_unambiguous`: the field table is complete and unambiguous.
-/

namespace BinaryLayout

variable {f g : Field}

/-! ### The parts of a line -/

namespace Field

/-- The parts of the line that shows a field, which stand with spaces between them. -/
def parts (f : Field) (value : Int64) : List (List Char) :=
  match f.kind with
  | .constant =>
    [['['] ++ Text.decimal f.offset ++ [']'], "size=".toList ++ Text.decimal (f.unit * byteBits),
      "bits,".toList, "label=".toList ++ f.label.toList ++ [','],
      "value=".toList ++ Text.signedDecimal value.toInt]
  | .space =>
    [['['] ++ Text.decimal f.offset ++ [']'], "size=".toList ++ Text.decimal f.totalSize,
      "bytes,".toList, "label=".toList ++ f.label.toList]

theorem describe_eq_intercalate (f : Field) (value : Int64) :
    f.describe value = [' '].intercalate (f.parts value) := by
  cases hk : f.kind <;>
  · simp only [describe, parts, hk, List.intercalate_cons_cons, List.intercalate_singleton,
      List.append_assoc, List.cons_append, List.nil_append]
    rfl

/-- The line of a constant. -/
theorem describe_of_constant (hk : f.kind = .constant) (value : Int64) : f.describe value =
    (s!"[{f.offset}] size={f.unit * 8} bits, label={f.label}, value={value.toInt}").toList := by
  have hbracket : "] size=".toList = ']' :: " size=".toList := rfl
  have hstring (s : String) : toString s = s := rfl
  simp only [describe, hk, String.toList_append, Text.toList_toString_nat,
    Text.toList_toString_int, hstring, hbracket, List.append_assoc, List.cons_append,
    List.nil_append]
  rfl

/-- The line of a space. -/
theorem describe_of_space (hk : f.kind = .space) (value : Int64) : f.describe value =
    (s!"[{f.offset}] size={f.totalSize} bytes, label={f.label}").toList := by
  have hbracket : "] size=".toList = ']' :: " size=".toList := rfl
  have hstring (s : String) : toString s = s := rfl
  simp only [describe, hk, String.toList_append, Text.toList_toString_nat, hstring, hbracket,
    List.append_assoc, List.cons_append, List.nil_append]
  rfl

theorem isWord_of_mem_parts (hlabel : Text.IsWord f.label.toList) (value : Int64) :
    ∀ part ∈ f.parts value, Text.IsWord part := by
  have hdecimal (n : Nat) := (Text.numeral_decimal n).isWord
  have hvalue := Literal.isWord_signedDecimal value.toInt
  have hoffset : Text.IsWord (['['] ++ Text.decimal f.offset ++ [']']) :=
    ((hdecimal f.offset).append_left rfl).append_right rfl
  have hbits : Text.IsWord "bits,".toList := ⟨List.cons_ne_nil _ _, Text.not_blank_of_all rfl⟩
  have hbytes : Text.IsWord "bytes,".toList := ⟨List.cons_ne_nil _ _, Text.not_blank_of_all rfl⟩
  cases hk : f.kind with
  | constant =>
    simp only [parts, hk, List.forall_mem_cons]
    exact ⟨hoffset, (hdecimal _).append_left rfl, hbits,
      (hlabel.append_left rfl).append_right rfl, hvalue.append_left rfl,
      fun _ h => absurd h List.not_mem_nil⟩
  | space =>
    simp only [parts, hk, List.forall_mem_cons]
    exact ⟨hoffset, (hdecimal _).append_left rfl, hbytes, hlabel.append_left rfl,
      fun _ h => absurd h List.not_mem_nil⟩

/-- No part holds a blank. -/
theorem blank_notMem_part (hlabel : Text.IsWord f.label.toList) (value : Int64) {c : Char}
    (hc : Text.isBlank c = true) : ∀ part ∈ f.parts value, c ∉ part := by
  intro part hpart hmem
  rw [(isWord_of_mem_parts hlabel value part hpart).not_blank c hmem] at hc
  cases hc

/-- A line can be cut into its parts at its spaces. -/
theorem splitOn_describe (hlabel : Text.IsWord f.label.toList) (value : Int64) :
    (f.describe value).splitOn ' ' = f.parts value := by
  rw [describe_eq_intercalate, List.splitOn_intercalate ' ' (blank_notMem_part hlabel value rfl)]
  cases hk : f.kind <;> simp only [parts, hk, ne_eq, reduceCtorEq, not_false_eq_true]

theorem newline_notMem_describe (hlabel : Text.IsWord f.label.toList) (value : Int64) :
    '\n' ∉ f.describe value := by
  rw [describe_eq_intercalate]
  exact Text.notMem_intercalate (by decide) (blank_notMem_part hlabel value rfl)

end Field

/-! ### What a line tells -/

namespace Layout

variable {l l' : Layout}

/-- What the field table tells of a field: its kind, its label, its place, its size in bytes and the
value that it shows. -/
structure Entry where
  kind : FieldKind
  label : String
  offset : Nat
  size : Nat
  value : Int64
  deriving DecidableEq, Repr

/-- The entry of a field. -/
def entry (l : Layout) (f : Field) : Entry :=
  ⟨f.kind, f.label, f.offset, f.totalSize, l.current f⟩

/-- **Parts** tell the entry of a field. -/
theorem entry_eq_of_parts_eq (h : f.parts (l.current f) = g.parts (l'.current g)) :
    l.entry f = l'.entry g := by
  cases hf : f.kind with
  | constant =>
    cases hg : g.kind with
    | constant =>
      simp only [Field.parts, hf, hg, List.cons.injEq, List.append_cancel_left_eq,
        List.append_cancel_right_eq, String.toList_inj, and_true, true_and] at h
      obtain ⟨hoffset, hbits, hlabel, hvalue⟩ := h
      have hoffset := Text.decimal_injective hoffset
      have hbits := Text.decimal_injective hbits
      have hunit : f.unit = g.unit := Nat.eq_of_mul_eq_mul_right (by decide) hbits
      have hcurrent := congrArg Literal.value? hvalue
      rw [Literal.value?_signedDecimal, Literal.value?_signedDecimal, Option.some.injEq] at hcurrent
      simp only [entry, Field.totalSize, Field.count, hf, hg, hlabel, hoffset, hunit, hcurrent]
    | space => simp [Field.parts, hf, hg] at h
  | space =>
    cases hg : g.kind with
    | constant => simp [Field.parts, hf, hg] at h
    | space =>
      simp only [Field.parts, hf, hg, List.cons.injEq, List.append_cancel_left_eq,
        List.append_cancel_right_eq, String.toList_inj, and_true, true_and] at h
      obtain ⟨hoffset, hsize, hlabel⟩ := h
      have hoffset := Text.decimal_injective hoffset
      have hsize := Text.decimal_injective hsize
      have hzero {l : Layout} {f : Field} (hf : f.kind = .space) : l.current f = 0 := by
        simp only [current, Field.isConstant, hf]
        rfl
      simp only [entry, hf, hg, hlabel, hoffset, hsize, hzero]

theorem Reachable.isWord_label (hl : l.Reachable) (hf : f ∈ l.fields) :
    Text.IsWord f.label.toList := by
  obtain ⟨granted, text, config, built, operations, hbuilt, rfl⟩ := hl
  obtain ⟨d, hparse, rfl⟩ := exists_of_build hbuilt
  rw [fields_run] at hf
  exact Definition.isWord_label_of_parse hparse hf

/-! ### Whole tables -/

/-- The lines of the field table. -/
def tableLines (l : Layout) : List (List Char) :=
  l.fields.map fun f => f.describe (l.current f)

theorem Sound.display_eq_unlines (hl : l.Sound) :
    l.display = .ok (String.ofList (Text.unlines l.tableLines)) := by
  rw [hl.display_eq, tableLines, Text.unlines, List.flatMap_map]

/-- The lines can be cut into the parts of the fields. -/
theorem Reachable.map_splitOn_tableLines (hl : l.Reachable) :
    l.tableLines.map (·.splitOn ' ') = l.fields.map fun f => f.parts (l.current f) := by
  rw [tableLines, List.map_map]
  exact List.map_congr_left fun f hf => Field.splitOn_describe (hl.isWord_label hf) _

theorem Reachable.newline_notMem (hl : l.Reachable) : ∀ line ∈ l.tableLines, '\n' ∉ line := by
  rw [tableLines, List.forall_mem_map]
  exact fun f hf => Field.newline_notMem_describe (hl.isWord_label hf) _

/-- What a line of the field table looks like: a constant is shown with the value that reading it
returns. -/
def Lists (l : Layout) (f : Field) (line : List Char) : Prop :=
  match f.kind with
  | .constant => ∃ v, l.get f.label = .ok v ∧
    line = (s!"[{f.offset}] size={f.unit * 8} bits, label={f.label}, value={v.toInt}").toList
  | .space => line = (s!"[{f.offset}] size={f.totalSize} bytes, label={f.label}").toList

theorem Sound.lists_describe (hl : l.Sound) (hf : f ∈ l.fields) :
    l.Lists f (f.describe (l.current f)) := by
  cases hk : f.kind with
  | constant =>
    simp only [Lists, hk]
    exact ⟨l.current f, hl.get_eq hf, f.describe_of_constant hk _⟩
  | space =>
    simp only [Lists, hk]
    exact f.describe_of_space hk _

/-- Equal tables have the same entries. -/
theorem map_entry_eq (hl : l.Reachable) (hl' : l'.Reachable) (h : l.display = l'.display) :
    l.fields.map l.entry = l'.fields.map l'.entry := by
  rw [hl.sound.display_eq_unlines, hl'.sound.display_eq_unlines, Except.ok.injEq,
    String.ofList_inj] at h
  have hlines : l.tableLines = l'.tableLines := by
    rw [← Text.lines_unlines hl.newline_notMem, h, Text.lines_unlines hl'.newline_notMem]
  have hparts : (l.fields.map fun f => f.parts (l.current f)) =
      l'.fields.map fun f => f.parts (l'.current f) := by
    rw [← hl.map_splitOn_tableLines, hlines, hl'.map_splitOn_tableLines]
  rw [← List.forall₂_eq_eq_eq, List.forall₂_map_left_iff, List.forall₂_map_right_iff] at hparts ⊢
  exact hparts.imp fun _ _ => entry_eq_of_parts_eq

/-- Reading a field needs no more of a layout than its entries. -/
theorem Sound.get_eq_find (hl : l.Sound) (label : String) :
    l.get label = match (l.fields.map l.entry).find? fun e => e.label == label with
      | some e => .ok e.value
      | none => .error (.undefinedLabel label) := by
  have hentry : (fun e : Entry => e.label == label) ∘ l.entry = fun f => f.label == label := rfl
  rw [List.find?_map, hentry]
  cases hfind : l.fields.find? fun f => f.label == label with
  | none =>
    simp only [get, field, hfind]
    rfl
  | some f =>
    obtain rfl : f.label = label := beq_iff_eq.mp (List.find?_some hfind :)
    rw [hl.get_eq (List.mem_of_find?_eq_some hfind)]
    rfl

end Layout

/-- Two fields with the same entry in a field table, values aside. -/
structure Field.SameEntry (f g : Field) : Prop where
  kind_eq : f.kind = g.kind
  label_eq : f.label = g.label
  offset_eq : f.offset = g.offset
  totalSize_eq : f.totalSize = g.totalSize

namespace Layout

variable {l l' : Layout}

theorem sameEntry_of_entry_eq (h : l.entry f = l'.entry g) : f.SameEntry g := by
  obtain ⟨hkind, hlabel, hoffset, hsize, -⟩ := Entry.mk.injEq .. ▸ h
  exact ⟨hkind, hlabel, hoffset, hsize⟩

/-- **Field table** of a reachable layout: it is complete, as each field has a line of its own that
shows the value of a constant, and unambiguous, as layouts with equal tables have the same fields
and the same values. -/
theorem display_unambiguous (hl : l.Reachable) (hl' : l'.Reachable) :
    (∃ lines, l.display = .ok (String.ofList (Text.unlines lines)) ∧
      (∀ line ∈ lines, '\n' ∉ line) ∧ List.Forall₂ l.Lists l.fields lines) ∧
    (l.display = l'.display → List.Forall₂ Field.SameEntry l.fields l'.fields ∧
      ∀ label, l.get label = l'.get label) := by
  constructor
  · refine ⟨l.tableLines, hl.sound.display_eq_unlines, hl.newline_notMem, ?_⟩
    rw [tableLines, List.forall₂_map_right_iff, List.forall₂_same]
    exact fun f hf => hl.sound.lists_describe hf
  · intro h
    have hentries := map_entry_eq hl hl' h
    constructor
    · rw [← List.forall₂_eq_eq_eq, List.forall₂_map_left_iff, List.forall₂_map_right_iff]
        at hentries
      exact hentries.imp fun _ _ => sameEntry_of_entry_eq
    · intro label
      rw [hl.sound.get_eq_find, hl'.sound.get_eq_find, hentries]

/-- Two layouts of different definitions, architectures and byte orders with the same table, the
second after a request. A label with an equal sign and commas is read as a label. -/
theorem display_label_with_value :
    let l : Layout := ⟨⟨.bits16, .little, .none⟩, [⟨"x,value=1,", .constant, 2, 0, 1⟩,
      ⟨"s", .space, 2, 2, 3⟩], ⟨[1, 0, 0, 0, 0, 0, 0, 0]⟩⟩
    let built : Layout := ⟨⟨.bits64, .big, .none⟩, [⟨"x,value=1,", .constant, 2, 0, 9⟩,
      ⟨"s", .space, 1, 2, 6⟩], ⟨[0, 9, 0, 0, 0, 0, 0, 0]⟩⟩
    let l' := built.run [.set "x,value=1," 1]
    l.Reachable ∧ l'.Reachable ∧ l.display = l'.display ∧
      List.Forall₂ Field.SameEntry l.fields l'.fields ∧ ∀ label, l.get label = l'.get label := by
  intro l built l'
  have hbuilt : build (· ≤ 1024) "x,value=1, dc.w 1 s ds.w 3"
      ⟨.bits16, .little, .none⟩ = .ok l := by decide +kernel
  have hbuilt' : build (· ≤ 1024) "x,value=1, dc.s 9 s ds.b 6"
      ⟨.bits64, .big, .none⟩ = .ok built := by decide +kernel
  have hl : l.Reachable := ⟨_, _, _, l, [], hbuilt, rfl⟩
  have hl' : l'.Reachable := ⟨_, _, _, built, _, hbuilt', rfl⟩
  have hdisplay : l.display = l'.display := by decide +kernel
  exact ⟨hl, hl', hdisplay, (display_unambiguous hl hl').2 hdisplay⟩

end Layout

end BinaryLayout
