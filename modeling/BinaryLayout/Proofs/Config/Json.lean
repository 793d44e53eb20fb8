import BinaryLayout.Config.Json
import BinaryLayout.Proofs.Config.FreeText
import BinaryLayout.Proofs.Json.Laws

/-!
# Configurations in objects

A configuration is read off any object that has each of the three settings once, however the object
is written. Where the settings stand in it does not count, and neither do the other members. The
reader of JSON texts may be any that follows the grammar and is derived from the schema.

## Main definitions

* `Config.settingValue`: the value that a setting is written as.
* `Config.Shows`: the value is one of those that a setting may be written as.

## Main results

* `Config.ofJson_eq_ok_iff`: the objects that a configuration is read off.
* `Config.objects_read`: what is read, and what is refused.
-/

namespace BinaryLayout.Config

variable {ε : Type} {read : String → Except ε Config} {ms : List (Json.Content × Json.Value)}
  {v : Json.Value} {w : Width} {c : Config} {text : String}

/-! ### Settings -/

/-- The value that a setting of the configuration is written as. -/
def settingValue (c : Config) : Setting → Json.Value
  | .width => .integer c.width.bits
  | .byteOrder => .text (some c.byteOrder.name.toList)
  | .padding => .text (some c.padding.name.toList)

/-- The value stands for the configuration's setting: the width as its number of bits, and the two
others as their names, in one of the forms of a name. -/
def Shows (c : Config) (v : Json.Value) : Setting → Prop
  | .width => v = .integer c.width.bits
  | .byteOrder => Json.IsNamed c.byteOrder.name v
  | .padding => Json.IsNamed c.padding.name v

theorem shows_settingValue (c : Config) (setting : Setting) :
    c.Shows (c.settingValue setting) setting := by
  cases setting with
  | width => rfl
  | byteOrder | padding => exact Or.inl rfl

theorem meaning_width_eq_some_iff :
    (Setting.kind .width).meaning v = some w ↔ v = .integer w.bits := by
  have hconvert (n : Nat) : ((Width.ofBits n).mapError ConfigError.message).toOption = some w ↔
      n = w.bits := by
    rw [← Width.ofBits_eq_ok_iff]
    cases Width.ofBits n <;> simp [Except.mapError, Except.toOption]
  cases v with
  | integer i =>
    have hbits := w.bits_lt_count32
    have hmost : Json.word32.most = Word.count32 - 1 := rfl
    have hleast : Json.word32.least = 0 := rfl
    simp only [Setting.kind, Json.Kind.word32, Json.Kind.meaning, Json.IntegerRange.meaning,
      Option.bind_eq_some_iff, Option.map_eq_some_iff, hconvert, Json.Value.integer.injEq]
    constructor
    · rintro ⟨_, ⟨j, hj, rfl⟩, hw⟩
      split_ifs at hj with hrange
      · obtain rfl := Option.some.inj hj
        omega
    · rintro rfl
      exact ⟨w.bits, ⟨_, if_pos (by omega), Int.toNat_natCast _⟩, rfl⟩
  | _ => simp [Setting.kind, Json.Kind.word32, Json.Kind.meaning, Json.IntegerRange.meaning]

/-- What the values of settings mean. -/
theorem meaning_eq_some_iff (setting : Setting) :
    setting.kind.meaning v = some (c.value setting) ↔ c.Shows v setting := by
  cases setting with
  | width => exact meaning_width_eq_some_iff
  | byteOrder => exact Json.meaning_map_eq_some_iff ByteOrder.mem_all ByteOrder.name_injective
  | padding => exact Json.meaning_map_eq_some_iff Padding.mem_all Padding.name_injective

/-! ### Objects -/

theorem ofJson_eq_ok_iff_read : ofJson read text = .ok c ↔ read text = .ok c := by
  rw [ofJson]
  cases read text <;> simp [Except.mapError]

theorem exists_fault (h : ∀ c, ofJson read text ≠ .ok c) :
    ∃ fault, ofJson read text = .error fault := by
  cases hread : ofJson read text with
  | error fault => exact ⟨fault, rfl⟩
  | ok c => exact absurd hread (h c)

theorem not_isNamed_text {name : String} {content : Json.Content}
    (h : content ≠ some name.toList) : ¬ Json.IsNamed name (.text content) := by
  rintro (heq | heq)
  · exact h (Json.Value.text.inj heq)
  · cases heq

section Objects

variable (hgrammar : Json.FollowsGrammar read) (hderives : schema.Derives read)

include hgrammar hderives

/-- **Objects of a configuration.** The configuration is read off an object whose names stand for
texts and which has one value for every setting, which is the configuration's. -/
theorem ofJson_eq_ok_iff (h : Json.Written (.slot (.object ms)) text.toList) :
    ofJson read text = .ok c ↔ (∀ member ∈ ms, member.1.isSome) ∧
      ∀ setting : Setting, ∃ v, Json.valuesOf setting.name.toList ms = [v] ∧ c.Shows v setting := by
  refine ofJson_eq_ok_iff_read.trans ((hderives.read_eq_ok_iff hgrammar h).trans ?_)
  exact and_congr_right' (forall_congr' fun setting => exists_congr fun v =>
    and_congr_right' (meaning_eq_some_iff setting))

/-- A text is refused if a setting in it has a value that shows no configuration. -/
theorem exists_fault_of_mem (h : Json.Written (.slot (.object ms)) text.toList) {setting : Setting}
    (hmem : (some setting.name.toList, v) ∈ ms) (hv : ∀ c : Config, ¬ c.Shows v setting) :
    ∃ fault, ofJson read text = .error fault := by
  refine exists_fault fun c hread => ?_
  obtain ⟨u, hvalues, hshows⟩ := ((ofJson_eq_ok_iff hgrammar hderives h).mp hread).2 setting
  obtain rfl : v = u := List.mem_singleton.mp (hvalues ▸ Json.mem_valuesOf hmem)
  exact hv c hshows

end Objects

/-- **Objects of any form.** However an object is written, and whatever else is in it, a
configuration is read off it if every setting stands in it once with the configuration's value. An
object is refused in which a setting is left out or comes again, or has a number or a string that is
none of its values. The reader follows the grammar of JSON texts, and what it does about the members
of an object comes from the schema. -/
theorem objects_read (hgrammar : Json.FollowsGrammar read) (hderives : schema.Derives read)
    (h : Json.Written (.slot (.object ms)) text.toList) :
    (∀ c : Config, (∀ member ∈ ms, member.1.isSome) →
      (∀ setting : Setting, Json.valuesOf setting.name.toList ms = [c.settingValue setting]) →
        ofJson read text = .ok c) ∧
    (∀ setting : Setting, (Json.valuesOf setting.name.toList ms).length ≠ 1 →
      ∃ fault, ofJson read text = .error fault) ∧
    (∀ i : Int, (some Setting.width.name.toList, Json.Value.integer i) ∈ ms →
      (∀ w : Width, i ≠ w.bits) → ∃ fault, ofJson read text = .error fault) ∧
    (∀ content, (some Setting.byteOrder.name.toList, Json.Value.text content) ∈ ms →
      (∀ order : ByteOrder, content ≠ some order.name.toList) →
        ∃ fault, ofJson read text = .error fault) ∧
    (∀ content, (some Setting.padding.name.toList, Json.Value.text content) ∈ ms →
      (∀ padding : Padding, content ≠ some padding.name.toList) →
        ∃ fault, ofJson read text = .error fault) := by
  refine ⟨fun c hnames hvalues => ?_, fun setting hlength => ?_, fun i hmem hi => ?_,
    fun content hmem hcontent => ?_, fun content hmem hcontent => ?_⟩
  · exact (ofJson_eq_ok_iff hgrammar hderives h).mpr
      ⟨hnames, fun setting => ⟨_, hvalues setting, c.shows_settingValue setting⟩⟩
  · refine exists_fault fun c hread => hlength ?_
    obtain ⟨v, hvalues, _⟩ := ((ofJson_eq_ok_iff hgrammar hderives h).mp hread).2 setting
    rw [hvalues, List.length_singleton]
  · exact exists_fault_of_mem hgrammar hderives h hmem fun c hshows =>
      hi c.width (Json.Value.integer.inj hshows)
  · exact exists_fault_of_mem hgrammar hderives h hmem fun c =>
      not_isNamed_text (hcontent c.byteOrder)
  · exact exists_fault_of_mem hgrammar hderives h hmem fun c =>
      not_isNamed_text (hcontent c.padding)

/-- The settings in another order, the name of one with an escape, among members of other names with
a nested value and one name twice. -/
theorem objects_read_mixed :
    ofJson schema.read ("\x7b \"a\":[1e5,\x7b\"width\":16\x7d] ,\"padding\":\"int\"," ++
      "\"or\\u0064ering\":\"big\",\"a\":null,\n\"width\" : 32\x7d") =
        .ok ⟨.bits32, .big, .int⟩ := by
  have hword (s : String) : s.toList.flatMap Json.writtenChar = s.toList →
      Json.Spells (some s.toList) s.toList := Json.spells_self
  have hkey : Json.Spells (some "ordering".toList) "or\\u0064ering".toList :=
    have hunit : Json.CodeUnit 'd'.toNat "\\u0064".toList :=
      .digits rfl (Text.numeral?_eq_some_iff.mp (by decide))
    .char (.plain (by decide) (by decide) (by decide))
      (.char (.plain (by decide) (by decide) (by decide))
        (.char (.codeUnit hunit) (hword "ering" rfl)))
  have hreal : Json.IsReal "1e5".toList :=
    have hexponent : Json.IsExponent ['e', '5'] :=
      @Json.IsExponent.digits 'e' [] ['5'] 5 (by decide) (by decide) (Text.numeral_decimal 5)
    @Json.IsReal.pointed false 1 ['1'] [] ['e', '5'] (Json.isWhole_decimal 1) .absent hexponent
      (by decide)
  have hnested : Json.Written (.member (some "a".toList)
      (.array [.real, .object [(some "width".toList, .integer 16)]]))
      " \"a\":[1e5,\x7b\"width\":16\x7d] ".toList :=
    @Json.Written.member _ _ [' '] ['a'] [] _ (by decide) (hword "a" rfl) (by decide)
      (@Json.Written.slot _ [] _ [' '] (by decide)
        (.array (.element (.slot_of_value (.real hreal)) (.lastElement (.slot_of_value
          (.object (.lastMember (.member_of_value (hword "width" rfl)
            (.integer (Json.writesInteger_decimal 16)))))))))
        (by decide))
  have hwidth : Json.Written (.member (some "width".toList) (.integer 32))
      "\n\"width\" : 32".toList :=
    @Json.Written.member _ _ ['\n'] "width".toList [' '] _ (by decide) (hword "width" rfl)
      (by decide) (@Json.Written.slot _ [' '] ['3', '2'] [] (by decide)
        (.integer (Json.writesInteger_decimal 32)) (by decide))
  have hobject := Json.Written.object (.members hnested
    (.members (.member_of_value (hword "padding" rfl) (.text (hword "int" rfl)))
      (.members (.member_of_value hkey (.text (hword "big" rfl)))
        (.members (.member_of_value (hword "a" rfl) .null) (.lastMember hwidth)))))
  exact (objects_read schema.followsGrammar_read schema.derives_read hobject.slot_of_value).1
    ⟨.bits32, .big, .int⟩ (by decide) (fun setting => by cases setting <;> rfl)

end BinaryLayout.Config
