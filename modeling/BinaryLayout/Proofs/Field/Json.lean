import BinaryLayout.Field.Json
import BinaryLayout.Proofs.Json.Compact

/-!
# Fields written and read

A field is read back from what is written of it, so that no two fields are written alike. It is also
read off every other object that has its five members once, in any order and among others. The
reader and the writer of JSON texts may be any that keep the laws of readers and writers of records.

## Main definitions

* `Field.memberValue`: the value that a member of a field is written as.

## Main results

* `Field.read_of_valuesOf`: the objects that a field is read off.
* `Field.json_roundtrip`: a field is read back, and off any object with its members.
-/

namespace BinaryLayout

/-! ### Kinds -/

theorem FieldKind.mem_all (kind : FieldKind) : kind ∈ all := by
  cases kind <;> decide

theorem FieldKind.name_injective : Function.Injective name :=
  Text.injective_of_nodup mem_all (by decide)

namespace Field

variable {ε : Type} {read : String → Except ε Field} {write : Field → String} {f g : Field}
  {ms : List (Json.Content × Json.Value)} {text : String}

/-! ### Members -/

/-- The value that a member of the field is written as. -/
def memberValue (f : Field) : Member → Json.Value
  | .label => .text (some f.label.toList)
  | .kind => .text (some f.kind.name.toList)
  | .unit => .integer f.unit
  | .offset => .integer f.offset
  | .datum => .integer f.datum.toInt

theorem value_type_eq (f : Field) (m : Member) : m.type.value (f.value m) = f.memberValue m := by
  cases m <;> rfl

theorem meaning_sizeWord {n : Nat} (hn : n < Word.count64) :
    Json.Kind.sizeWord.meaning (.integer n) = some n := by
  have hrange : Json.sizeWord.meaning (.integer n) = some (n : Int) :=
    if_pos ⟨Int.natCast_nonneg n, Int.le_sub_one_of_lt (Int.ofNat_lt.mpr hn)⟩
  rw [Json.Kind.sizeWord, Json.Kind.meaning, hrange, Option.map_some, Int.toNat_natCast]

theorem meaning_signedWord64 (v : Int64) :
    Json.Kind.signedWord64.meaning (.integer v.toInt) = some v := by
  have hrange : Json.signedWord64.meaning (.integer v.toInt) = some v.toInt :=
    if_pos ⟨v.le_toInt, Int.le_sub_one_of_lt v.toInt_lt⟩
  rw [Json.Kind.signedWord64, Json.Kind.meaning, hrange, Option.map_some, Int64.ofInt_toInt]

/-- The value that a member is written as means the member. -/
theorem meaning_memberValue (hunit : f.unit < Word.count64) (hoffset : f.offset < Word.count64)
    (m : Member) : m.type.meaning (f.memberValue m) = some (f.value m) := by
  cases m with
  | label => exact congrArg some String.ofList_toList
  | kind =>
    exact (Json.meaning_map_eq_some_iff FieldKind.mem_all FieldKind.name_injective).mpr
      (Or.inl rfl)
  | unit => exact meaning_sizeWord hunit
  | offset => exact meaning_sizeWord hoffset
  | datum => exact meaning_signedWord64 f.datum

/-- The values of a field can be written if its unit and its offset are 64-bit words. -/
theorem fits (hunit : f.unit < Word.count64) (hoffset : f.offset < Word.count64) :
    schema.Fits f := fun m : Member =>
  (congrArg m.type.meaning (f.value_type_eq m)).trans (meaning_memberValue hunit hoffset m)

/-! ### Objects -/

/-- **Objects of a field.** The field is read off an object whose names stand for texts and which
has each of its members once. -/
theorem read_of_valuesOf (hgrammar : Json.FollowsGrammar read) (hderives : schema.Derives read)
    (hunit : f.unit < Word.count64) (hoffset : f.offset < Word.count64)
    (h : Json.Written (.slot (.object ms)) text.toList) (hnames : ∀ member ∈ ms, member.1.isSome)
    (hvalues : ∀ m : Member, Json.valuesOf m.name.toList ms = [f.memberValue m]) :
    read text = .ok f :=
  (hderives.read_eq_ok_iff hgrammar h).mpr
    ⟨hnames, fun m => ⟨_, hvalues m, meaning_memberValue hunit hoffset m⟩⟩

/-- **Written and read.** A field whose unit and offset are 64-bit words is read back from its
written form, so that no other such field is written alike. The same field is read off every object
with its five members, in any order and among members of any other names. The reader follows the
grammar of JSON texts, what it does about the members of an object comes from the schema, and the
writer is compact. -/
theorem json_roundtrip (hgrammar : Json.FollowsGrammar read) (hderives : schema.Derives read)
    (hwrite : schema.WritesCompactly write) (hunit : f.unit < Word.count64)
    (hoffset : f.offset < Word.count64) :
    read (write f) = .ok f ∧
    (∀ g : Field, g.unit < Word.count64 → g.offset < Word.count64 → write g = write f → g = f) ∧
    ∀ (ms : List (Json.Content × Json.Value)) (text : String),
      Json.Written (.slot (.object ms)) text.toList → (∀ member ∈ ms, member.1.isSome) →
      (∀ m : Member, Json.valuesOf m.name.toList ms = [f.memberValue m]) → read text = .ok f := by
  have hread := hderives.read_write hwrite (fits hunit hoffset)
  refine ⟨hread, fun g hunit' hoffset' h => ?_, fun _ _ h hnames hvalues =>
    read_of_valuesOf hgrammar hderives hunit hoffset h hnames hvalues⟩
  have hother := hderives.read_write hwrite (fits hunit' hoffset')
  rw [h, hread] at hother
  exact (Except.ok.inj hother).symm

/-- A field with the largest offset and the least datum, and with characters in its label that are
escaped and one outside the basic plane; and its members backwards behind another one. -/
theorem json_roundtrip_backwards :
    let f : Field := ⟨"\"\\\n\x00😀", .space, 8, 18446744073709551615, Int64.minValue⟩
    let members := [Member.datum, .offset, .unit, .kind, .label]
    schema.read (schema.writeCompact f) = .ok f ∧
      schema.read (String.ofList ('\x7b' :: ("\"else\":[]".toList ++
        ',' :: [','].intercalate (members.map (schema.writeMember [':'] f)) ++ ['\x7d']))) =
          .ok f := by
  intro f members
  obtain ⟨hread, _, hmembers⟩ := json_roundtrip (f := f) schema.followsGrammar_read
    schema.derives_read schema.writesCompactly_writeCompact (by decide) (by decide)
  have helse : Json.Written (.member (some "else".toList) (.array [])) "\"else\":[]".toList :=
    .member_of_value (Json.spells_self rfl) (.emptyArray Json.isSpaced_nil)
  have hothers := (Json.Compact.members_intercalate (l := members)
    (schema.compact_writeMember f) (List.cons_ne_nil _ _)).written
  refine ⟨hread, hmembers ((some "else".toList, .array []) ::
    members.map fun m => (some m.name.toList, f.memberValue m)) _ ?_ ?_ ?_⟩
  · rw [String.toList_ofList (l := '\x7b' :: _)]
    exact .slot_of_value (.object (.members helse hothers))
  · decide
  · intro m
    cases m <;> rfl

end Field

end BinaryLayout
