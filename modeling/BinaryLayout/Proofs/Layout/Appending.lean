import BinaryLayout.Proofs.Definition.Relocation
import BinaryLayout.Proofs.Layout.InitialImage

/-!
# Layouts of texts behind one another

Declarations that are appended to a text leave what is there as it is. The fields of the text keep
their places, and its initial image is the beginning of the new one, because the new constants are
stored behind it. If the text's size is a multiple of every alignment, the new declarations do not
notice what is before them either: their fields and their image are those that they have alone,
moved by that size.

## Main results

* `Layout.stored_append_bytes`, `Layout.stored_moved`: constants in one of two parts of a buffer.
* `Layout.bytes_initial_extendedBy`: the initial image of a definition behind another one.
* `Layout.declarations_appended`: appending declarations does not disturb those before them.
* `Layout.declarations_relocated`: behind an aligned end declarations are as they are alone.
-/

namespace BinaryLayout.Layout

variable {order : ByteOrder} {fields : List Field} {bytes : List UInt8} {config : Config}

/-! ### Constants in parts of a buffer -/

theorem stored_append (order : ByteOrder) (fields later : List Field) (bytes : List UInt8) :
    stored order (fields ++ later) bytes = stored order later (stored order fields bytes) := by
  induction fields generalizing bytes with
  | nil => rfl
  | cons f fields ih => exact ih _

/-- Constants in the front part leave the back part as it is. -/
theorem stored_append_bytes (h : ∀ f ∈ fields, f.stop ≤ bytes.length) (rest : List UInt8) :
    stored order fields (bytes ++ rest) = stored order fields bytes ++ rest := by
  induction fields generalizing bytes with
  | nil => rfl
  | cons f fields ih =>
    obtain ⟨hf, htail⟩ := List.forall_mem_cons.mp h
    rw [stored, stored]
    split_ifs with hc
    · have hfits := fits_of_isConstant order hc hf
      rw [Buffer.patched_append hfits]
      exact ih ((Buffer.length_patched hfits).symm ▸ htail)
    · exact ih htail

/-- Constants that are moved by the size of the front part are stored in the back part. -/
theorem stored_moved (order : ByteOrder) (fields : List Field) {front : List UInt8} {distance : Nat}
    (h : front.length = distance) (bytes : List UInt8) :
    stored order (fields.map (Field.moved distance)) (front ++ bytes) =
      front ++ stored order fields bytes := by
  subst h
  induction fields generalizing bytes with
  | nil => rfl
  | cons f fields ih =>
    rw [List.map_cons, stored, stored, Field.isConstant_moved, Field.offset_moved, Field.unit_moved,
      Field.datum_moved, Buffer.patched_append_right]
    split_ifs <;> exact ih _

/-- The initial image of a definition behind another one follows the image of that one. -/
theorem bytes_initial_extendedBy {d : Definition}
    (hp : Definition.Placed config.padding 0 d.fields d.totalSize) (e : Definition) :
    (initial config (d.extendedBy (e.moved d.totalSize))).bytes =
      (initial config d).bytes ++ (initial config e).bytes := by
  have hstop := stop_le_length_zeros hp
  change stored config.byteOrder (d.fields ++ e.fields.map (Field.moved d.totalSize))
    (List.replicate (d.totalSize + e.totalSize) 0) = _
  -- The first constants are stored in the front part of the zeros, the others behind it.
  rw [stored_append, List.replicate_add, stored_append_bytes hstop]
  exact stored_moved config.byteOrder e.fields (size_initial hp) _

/-! ### Appended declarations -/

/-- The image of a text is the beginning of its image with declarations behind it. -/
theorem bytes_prefix_of_build {text later : String} {granted granted' : Nat → Bool} {l l' : Layout}
    (h : build granted text config = .ok l)
    (h' : build granted' (text ++ "\n" ++ later) config = .ok l') : l.bytes <+: l'.bytes := by
  obtain ⟨d, hparse, rfl⟩ := exists_of_build h
  obtain ⟨d', hparse', rfl⟩ := exists_of_build h'
  obtain ⟨e, hplace, rfl⟩ := (Definition.parse_appended_eq_ok_iff hparse).mp hparse'
  -- Whatever the alignments, what is behind the first end can be seen as moved there.
  have hp := Definition.placed_of_place hplace
  obtain ⟨e, rfl⟩ := Definition.exists_moved_eq hp.offset_le_of_mem hp.offset_le
  rw [bytes_initial_extendedBy (Definition.placed_of_parse hparse)]
  exact List.prefix_append _ _

/-- **Appended declarations.** A text with a fault keeps it whatever stands behind the text, unless
the text only ends too early. A text that is read keeps its fields in front of those that the words
behind it describe, or the fault is one of these words. Its initial image is in any case the
beginning of the new one. -/
theorem declarations_appended (text later : String) (width : Width) (padding : Padding) :
    (∀ fault, Definition.parse text width padding = .error fault →
      (∀ label, fault ≠ .incomplete label) →
        Definition.parse (text ++ "\n" ++ later) width padding = .error fault) ∧
    (∀ d, Definition.parse text width padding = .ok d →
      (∃ more size, Definition.parse (text ++ "\n" ++ later) width padding =
          .ok ⟨d.fields ++ more, size⟩ ∧ d.totalSize ≤ size ∧
        List.Forall₂ (Triple.Describes width) (Triple.ofWords (Text.words later.toList)) more) ∨
      ∃ fault, Definition.parse (text ++ "\n" ++ later) width padding = .error fault ∧
        Definition.FaultBehind width padding (Triple.ofWords (Text.words text.toList))
          (Text.words later.toList) fault) ∧
    ∀ order granted granted' l l', build granted text ⟨width, order, padding⟩ = .ok l →
      build granted' (text ++ "\n" ++ later) ⟨width, order, padding⟩ = .ok l' →
        l.bytes <+: l'.bytes := by
  refine ⟨fun fault h hfault => Definition.parse_appended_of_error h hfault, fun d h => ?_,
    fun order granted granted' l l' h h' => bytes_prefix_of_build h h'⟩
  cases hjoined : Definition.parse (text ++ "\n" ++ later) width padding with
  | error fault => exact .inr ⟨fault, rfl, Definition.faultBehind_of_parse h hjoined⟩
  | ok d' =>
    obtain ⟨e, hplace, rfl⟩ := (Definition.parse_appended_eq_ok_iff h).mp hjoined
    obtain ⟨ts, hwords, hts, hp, -⟩ := Definition.place_eq_ok_iff.mp hplace
    rw [hwords, Triple.ofWords_flatMap_words]
    exact .inl ⟨e.fields, e.totalSize, rfl, hp.offset_le, hts⟩

/-- A faulty literal is reported although the words behind it complete the last declaration, a label
is refused for the second time, and a byte is the beginning of a byte with a word behind it. -/
theorem declarations_appended_behind_byte :
    Definition.parse ("a dc.b x b" ++ "\n" ++ "dc.w 1") .bits16 .none =
      .error (.invalidLiteral "x") ∧
    Definition.FaultBehind .bits64 .long (Triple.ofWords (Text.words "a dc.b 1".toList))
      (Text.words "a ds.w 2".toList) (.duplicateLabel "a") ∧
    ([1] : List UInt8) <+: [1, 0, 0, 2] := by
  have hfault : Definition.parse "a dc.b x b" .bits16 .none = .error (.invalidLiteral "x") := by
    decide +kernel
  have hbyte : Definition.parse "a dc.b 1" .bits64 .long =
      .ok ⟨[⟨"a", .constant, 1, 0, 1⟩], 1⟩ := by decide +kernel
  have htwice : Definition.parse ("a dc.b 1" ++ "\n" ++ "a ds.w 2") .bits64 .long =
      .error (.duplicateLabel "a") := by decide +kernel
  have hbuilt : build (· ≤ 1) "a dc.b 1" ⟨.bits16, .big, .short⟩ =
      .ok ⟨⟨.bits16, .big, .short⟩, [⟨"a", .constant, 1, 0, 1⟩], ⟨[1]⟩⟩ := by decide +kernel
  have hbuilt' : build (· ≤ 4) ("a dc.b 1" ++ "\n" ++ "b dc.w 2") ⟨.bits16, .big, .short⟩ =
      .ok ⟨⟨.bits16, .big, .short⟩, [⟨"a", .constant, 1, 0, 1⟩, ⟨"b", .constant, 2, 2, 2⟩],
        ⟨[1, 0, 0, 2]⟩⟩ := by decide +kernel
  refine ⟨(declarations_appended _ "dc.w 1" _ _).1 _ hfault (by simp), ?_,
    (declarations_appended _ _ _ _).2.2 _ _ _ _ _ hbuilt hbuilt'⟩
  obtain ⟨more, size, hok, -⟩ | ⟨fault, herror, hbehind⟩ :=
    (declarations_appended _ "a ds.w 2" _ _).2.1 _ hbyte
  · rw [htwice] at hok
    cases hok
  · rw [htwice] at herror
    cases herror
    exact hbehind

/-! ### Relocated declarations -/

/-- **Relocation.** Behind a text whose size is a multiple of eight, or behind any text without
padding, another text is read if it is read alone, shares no label with the first and fits in the
largest buffer behind it. Its fields are moved by the size of the first text, and its initial image
follows that of the first. -/
theorem declarations_relocated {text : String} {width : Width} {padding : Padding} {d : Definition}
    (h : Definition.parse text width padding = .ok d)
    (haligned : padding = .none ∨ 8 ∣ d.totalSize) (later : String) :
    (∀ d', Definition.parse (text ++ "\n" ++ later) width padding = .ok d' ↔
      ∃ e, Definition.parse later width padding = .ok e ∧
        (∀ f ∈ e.fields, ∀ g ∈ d.fields, f.label ≠ g.label) ∧
        d.totalSize + e.totalSize ≤ Definition.maxSize ∧
        d' = ⟨d.fields ++ e.fields.map (Field.moved d.totalSize), d.totalSize + e.totalSize⟩) ∧
    ∀ e d', Definition.parse later width padding = .ok e →
      Definition.parse (text ++ "\n" ++ later) width padding = .ok d' →
      ∀ order granted granted' granted'', granted d.totalSize = true →
        granted' e.totalSize = true → granted'' d'.totalSize = true →
        ∃ l l' l'', build granted text ⟨width, order, padding⟩ = .ok l ∧
          build granted' later ⟨width, order, padding⟩ = .ok l' ∧
          build granted'' (text ++ "\n" ++ later) ⟨width, order, padding⟩ = .ok l'' ∧
          l''.bytes = l.bytes ++ l'.bytes := by
  refine ⟨fun d' => Definition.parse_appended_eq_ok_iff_moved h haligned, ?_⟩
  intro e d' hlater hjoined order granted granted' granted'' hg hg' hg''
  obtain ⟨e', hlater', -, -, rfl⟩ :=
    (Definition.parse_appended_eq_ok_iff_moved h haligned).mp hjoined
  obtain rfl : e = e' := Except.ok.inj (hlater.symm.trans hlater')
  refine ⟨_, _, _, build_of_parse h hg, build_of_parse hlater hg',
    build_of_parse hjoined hg'', ?_⟩
  exact bytes_initial_extendedBy (Definition.placed_of_parse h) e

/-- A byte and a word behind a long have their gap where it is without the long. -/
theorem declarations_relocated_behind_long :
    let d : Definition := ⟨[⟨"a", .constant, 8, 0, 5⟩], 8⟩
    let e : Definition := ⟨[⟨"b", .constant, 1, 0, 1⟩, ⟨"c", .constant, 2, 2, -2⟩], 4⟩
    let joined : Definition := ⟨[⟨"a", .constant, 8, 0, 5⟩, ⟨"b", .constant, 1, 8, 1⟩,
      ⟨"c", .constant, 2, 10, -2⟩], 12⟩
    Definition.parse "a dc.l 5" .bits64 .long = .ok d ∧ 8 ∣ d.totalSize ∧
      Definition.parse "b dc.b 1 c dc.w -2" .bits64 .long = .ok e ∧
      Definition.parse ("a dc.l 5" ++ "\n" ++ "b dc.b 1 c dc.w -2") .bits64 .long = .ok joined ∧
      ∃ l l' l'', build (· ≤ 8) "a dc.l 5" ⟨.bits64, .big, .long⟩ = .ok l ∧
        build (· ≤ 4) "b dc.b 1 c dc.w -2" ⟨.bits64, .big, .long⟩ = .ok l' ∧
        build (· ≤ 12) ("a dc.l 5" ++ "\n" ++ "b dc.b 1 c dc.w -2") ⟨.bits64, .big, .long⟩ =
          .ok l'' ∧
        l''.bytes = l.bytes ++ l'.bytes := by
  intro d e joined
  have hd : Definition.parse "a dc.l 5" .bits64 .long = .ok d := by decide +kernel
  have he : Definition.parse "b dc.b 1 c dc.w -2" .bits64 .long = .ok e := by decide +kernel
  have haligned : 8 ∣ d.totalSize := by decide
  obtain ⟨hread, himage⟩ := declarations_relocated hd (.inr haligned) "b dc.b 1 c dc.w -2"
  have hjoined := (hread joined).mpr ⟨e, he, by decide, by decide, rfl⟩
  exact ⟨hd, haligned, he, hjoined, himage e joined he hjoined .big _ _ _ rfl rfl rfl⟩

end BinaryLayout.Layout
