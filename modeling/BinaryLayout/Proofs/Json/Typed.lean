import BinaryLayout.Json.Scalar
import BinaryLayout.Proofs.Json.Numbers
import BinaryLayout.Proofs.Json.Strings
import BinaryLayout.Proofs.Text.Names

/-!
# Values of a wanted type

Each type gives some values a meaning: an integer means itself to a range that has it, a string its
content, and a name is a string or an object with the name as its only member. A reader of the type
finds the meaning of every value, however the value is written, and refuses a value without one.

## Main definitions

* `Reads`: the reader finds what the values mean.
* `Kind.meaning`: what a value means to a type, by `IntegerRange.meaning`, `textMeaning` and
  `Names.meaning`.
* `Kind.value`: the value that is written for something of a type.

## Main results

* `Kind.reads_read`: the reader of every type finds the meanings.
-/

namespace BinaryLayout.Json

variable {α : Type} {v : Value} {c : Char} {s t before rest : List Char}

/-- The reader finds what a value means, with any space before it, and leaves the text behind it. A
value that means nothing is refused. -/
def Reads (read : List Char → Reading α) (meaning : Value → Option α) : Prop :=
  ∀ (v : Value) (s before rest : List Char), Written (.value v) s → IsSpaced before →
    EndsValue rest → (read (before ++ (s ++ rest))).toOption = (meaning v).map (·, rest)

/-! ### Readings without their faults -/

section Option

variable {ε β : Type} {x : Except ε α}

theorem toOption_ok (a : α) : (.ok a : Except ε α).toOption = some a := rfl

theorem toOption_bind (f : α → Except ε β) :
    (x.bind f).toOption = x.toOption.bind fun a => (f a).toOption := by
  cases x <;> rfl

theorem toOption_map (f : α → β) : (x.map f).toOption = x.toOption.map f := by
  cases x <;> rfl

theorem toOption_eq_some_iff {a : α} : x.toOption = some a ↔ x = .ok a := by
  cases x <;> simp [Except.toOption]

end Option

/-! ### Integers -/

/-- The integer of a value, if it is one of the range. -/
def IntegerRange.meaning (range : IntegerRange) : Value → Option Int
  | .integer i => if range.least ≤ i ∧ i ≤ range.most then some i else none
  | _ => none

theorem readInteger_of_startsNumber (range : IntegerRange) (hbefore : IsSpaced before)
    (hspace : c ∉ spaces) (hc : startsNumber c = true) (t : List Char) :
    (readInteger range (before ++ c :: t)).toOption =
      (Number.integer? (readNumber (c :: t))).bind fun found =>
        (range.meaning (.integer found.1)).map (·, found.2) := by
  rw [readInteger, skipSpace_append hbefore, skipSpace_cons hspace]
  simp only [hc, if_true]
  rcases readNumber (c :: t) with _ | ⟨_ | _, _⟩
  · rfl
  · simp only [integerIn, IntegerRange.meaning, Number.integer?, Option.bind_some]
    split_ifs <;> rfl
  · rfl

theorem readInteger_of_not_startsNumber (range : IntegerRange) (hbefore : IsSpaced before)
    (hspace : c ∉ spaces) (hc : startsNumber c = false) (t : List Char) :
    (readInteger range (before ++ c :: t)).toOption = none := by
  rw [readInteger, skipSpace_append hbefore, skipSpace_cons hspace]
  simp only [hc, Bool.false_eq_true, if_false]
  rfl

/-- **Integers.** The integers of a range are read, and nothing else is. -/
theorem reads_readInteger (range : IntegerRange) : Reads (readInteger range) range.meaning := by
  intro v s before rest h hbefore hrest
  obtain ⟨c, t, rfl, hc⟩ := h.exists_first
  have hspace := Value.notMem_spaces hc
  rw [List.cons_append]
  cases h with
  | integer h =>
    rw [readInteger_of_startsNumber range hbefore hspace (startsNumber_of_mem hc),
      ← List.cons_append, h.integer?_readNumber hrest]
    split_ifs with hword
    · rfl
    · have hbounded := range.bounded
      rw [IntegerRange.meaning, if_neg (by omega)]
      rfl
  | real h =>
    rw [readInteger_of_startsNumber range hbefore hspace (startsNumber_of_mem hc),
      ← List.cons_append, h.integer?_readNumber hrest]
    rfl
  | null | true | false | text | emptyArray | array | emptyObject | object =>
    exact readInteger_of_not_startsNumber range hbefore hspace (by decide) _

/-! ### Strings -/

/-- The content of a string. -/
def textMeaning : Value → Option (List Char)
  | .text content => content
  | _ => none

theorem readString_quote (wanted : String) (hbefore : IsSpaced before) (t : List Char) :
    readString wanted (before ++ '"' :: t) = readText t := by
  rw [readString, skipSpace_append hbefore, skipSpace_cons (by decide)]
  exact if_pos rfl

theorem readString_of_ne (wanted : String) (hbefore : IsSpaced before) (hspace : c ∉ spaces)
    (hc : c ≠ '"') (t : List Char) : (readString wanted (before ++ c :: t)).toOption = none := by
  rw [readString, skipSpace_append hbefore, skipSpace_cons hspace]
  simp only [if_neg hc]
  rfl

/-- **Strings.** The strings that stand for a text are read, and nothing else is. -/
theorem reads_readString (wanted : String) : Reads (readString wanted) textMeaning := by
  intro v s before rest h hbefore hrest
  obtain ⟨c, t, rfl, hc⟩ := h.exists_first
  have hspace := Value.notMem_spaces hc
  cases h with
  | @text content s h =>
    rw [List.cons_append, List.append_assoc, readString_quote wanted hbefore]
    exact h.readText_eq rest
  | integer | real =>
    have hquote : c ≠ '"' := by
      rintro rfl
      exact absurd (startsNumber_of_mem hc) (by decide)
    exact readString_of_ne wanted hbefore hspace hquote _
  | null | true | false | emptyArray | array | emptyObject | object =>
    exact readString_of_ne wanted hbefore hspace (by decide) _

/-! ### Names -/

/-- The value that has the name which a string stands for, or which is the only member of an object
and has nothing as its value. -/
def Names.meaning (names : Names α) : Value → Option α
  | .text content => content.bind names.value?
  | .object [(content, .null)] => content.bind names.value?
  | _ => none

variable {names : Names α} {content : Content}

theorem Names.toOption_valueOf (names : Names α) (name : List Char) :
    (names.valueOf name).toOption = names.value? name := by
  rw [Names.valueOf]
  cases names.value? name <;> rfl

/-- The word for nothing is taken with the space before it. -/
theorem takeNull_of_slot (h : Written (.slot .null) s) :
    ∃ after, IsSpaced after ∧ ∀ rest, takeNull (s ++ rest) = .ok (after ++ rest) := by
  cases h with
  | slot hbefore h hafter =>
    cases h
    refine ⟨_, hafter, fun rest => ?_⟩
    rw [takeNull, List.append_assoc, skipSpace_append hbefore, List.append_assoc]
    exact takeWord_append ['u', 'l', 'l'] _

/-- No other value is taken for nothing. -/
theorem takeNull_of_ne_null (h : Written (.slot v) s) (hv : v ≠ .null) (rest : List Char) :
    (takeNull (s ++ rest)).toOption = none := by
  obtain ⟨c, t, hc, hspace⟩ := h.exists_skipSpace
  have hne : c ≠ 'n' := by
    rintro rfl
    cases v with
    | null => exact hv rfl
    | integer | real => exact absurd (startsNumber_of_mem hc) (by decide)
    | boolean | text | array | object => simp [Value.firsts] at hc
  simp only [takeNull, hspace, if_neg hne]
  rfl

theorem readBoxedName_eq_bind (names : Names α) (s : List Char) :
    readBoxedName names s =
      (takeMark '"' s).bind fun s => (readText s).bind fun (name, s) =>
        (names.valueOf name).bind fun value => (takeMark ':' s).bind fun s =>
          (takeNull s).bind fun s => (takeMark '\x7d' s).map fun s => (value, s) := by
  rw [readBoxedName]
  rcases takeMark '"' s with _ | s
  · rfl
  dsimp only [Except.bind]
  rcases readText s with _ | ⟨name, s⟩
  · rfl
  dsimp only
  rcases names.valueOf name with _ | value
  · rfl
  dsimp only
  rcases takeMark ':' s with _ | s
  · rfl
  dsimp only
  rcases takeNull s with _ | s
  · rfl
  dsimp only
  rcases takeMark '\x7d' s with _ | s <;> rfl

/-- A name in an object is read with its value, which is to be nothing, and the closing bracket. -/
theorem readBoxedName_of_spells (hbefore : IsSpaced before) (hname : Spells content s)
    {between : List Char} (hbetween : IsSpaced between) (t : List Char) :
    (readBoxedName names (before ++ '"' :: (s ++ '"' :: (between ++ ':' :: t)))).toOption =
      (content.bind names.value?).bind fun value => (takeNull t).toOption.bind fun s =>
        (takeMark '\x7d' s).toOption.map fun s => (value, s) := by
  simp only [readBoxedName_eq_bind, takeMark_append hbefore (by decide : '"' ∉ spaces),
    takeMark_append hbetween (by decide : ':' ∉ spaces), toOption_bind, toOption_map, toOption_ok,
    names.toOption_valueOf, hname.readText_eq, Option.bind_some, Option.bind_map, Option.bind_assoc,
    Function.comp_def]

/-- A member is read if its value is nothing and the closing bracket follows. -/
theorem readBoxedName_of_member (names : Names α) (h : Written (.member content v) s)
    (rest : List Char) : (readBoxedName names (s ++ rest)).toOption =
      (names.meaning (.object [(content, v)])).bind fun value =>
        (takeMark '\x7d' rest).toOption.map fun s => (value, s) := by
  cases h with
  | @member _ _ before s between t hbefore hname hbetween h =>
    simp only [List.append_assoc, List.cons_append,
      readBoxedName_of_spells hbefore hname hbetween]
    by_cases hv : v = .null
    · subst hv
      obtain ⟨after, hafter, hnull⟩ := takeNull_of_slot h
      simp only [hnull, toOption_ok, Option.bind_some, takeMark_skip hafter]
      rfl
    · have hmeaning : names.meaning (.object [(content, v)]) = none := by
        cases v with
        | null => exact absurd rfl hv
        | _ => rfl
      simp only [takeNull_of_ne_null h hv, hmeaning, Option.bind_none, Option.bind_fun_none]

theorem readName_quote (names : Names α) (hbefore : IsSpaced before) (t : List Char) :
    (readName names (before ++ '"' :: t)).toOption =
      (readText t).toOption.bind fun (name, s) => (names.value? name).map (·, s) := by
  simp only [readName, skipSpace_append hbefore, skipSpace_cons (by decide : '"' ∉ spaces), if_true,
    ← names.toOption_valueOf]
  rcases readText t with _ | ⟨name, s⟩
  · rfl
  · dsimp only [toOption_ok, Option.bind_some]
    cases names.valueOf name <;> rfl

theorem readName_object (names : Names α) (hbefore : IsSpaced before) (t : List Char) :
    readName names (before ++ '\x7b' :: t) = readBoxedName names t := by
  simp only [readName, skipSpace_append hbefore, skipSpace_cons (by decide : '\x7b' ∉ spaces),
    (by decide : '\x7b' ≠ '"'), if_false, if_true]

theorem readName_other (names : Names α) (hbefore : IsSpaced before) (hspace : c ∉ spaces)
    (hquote : c ≠ '"') (hbrace : c ≠ '\x7b') (t : List Char) :
    (readName names (before ++ c :: t)).toOption = none := by
  simp only [readName, skipSpace_append hbefore, skipSpace_cons hspace, if_neg hquote,
    if_neg hbrace]
  rfl

/-- **Names.** A name is read in both of its forms, and nothing else is. -/
theorem reads_readName (names : Names α) : Reads (readName names) names.meaning := by
  intro v s before rest h hbefore hrest
  obtain ⟨c, t, rfl, hc⟩ := h.exists_first
  have hspace := Value.notMem_spaces hc
  cases h with
  | @text content s h =>
    rw [List.cons_append, List.append_assoc, readName_quote names hbefore]
    simp only [List.singleton_append, h.readText_eq, Option.bind_map, Names.meaning,
      Option.map_bind, Function.comp_def]
  | @emptyObject s hs =>
    have hfault : takeMark '"' (s ++ '\x7d' :: rest) = .error .malformed :=
      takeMark_append_ne hs (by decide) (by decide) rest
    rw [List.cons_append, List.append_assoc, readName_object names hbefore, readBoxedName_eq_bind,
      List.singleton_append, hfault]
    rfl
  | @object ms s h =>
    rw [List.cons_append, List.append_assoc, readName_object names hbefore]
    cases h with
    | lastMember h =>
      have hclosed : takeMark '\x7d' ('\x7d' :: rest) = .ok rest := rfl
      rw [readBoxedName_of_member names h, List.singleton_append, hclosed]
      exact Option.map_eq_bind.symm
    | @members name v ms s t h ht =>
      -- a comma stands where the closing bracket is wanted, and a second member takes the meaning
      have hopen : takeMark '\x7d' (',' :: (t ++ (['\x7d'] ++ rest))) = .error .malformed := rfl
      have hmeaning : names.meaning (.object ((name, v) :: ms)) = none := by
        cases ht <;> cases v <;> rfl
      rw [List.append_assoc, List.cons_append, readBoxedName_of_member names h, hopen, hmeaning]
      exact Option.bind_fun_none _
  | integer | real =>
    have hne : c ≠ '"' ∧ c ≠ '\x7b' := by
      constructor <;>
      · rintro rfl
        exact absurd (startsNumber_of_mem hc) (by decide)
    exact readName_other names hbefore hspace hne.1 hne.2 _
  | null | true | false | emptyArray | array =>
    exact readName_other names hbefore hspace (by decide) (by decide) _

/-- The value is the name, in one of its forms. -/
def IsNamed (name : String) (v : Value) : Prop :=
  v = .text (some name.toList) ∨ v = .object [(some name.toList, .null)]

section Named

variable {name : α → String} {all : List α} {a : α}

theorem value?_map_eq_some_iff (hall : ∀ a, a ∈ all) (hname : Function.Injective name)
    {n : List Char} : Names.value? (all.map fun a => (name a, a)) n = some a ↔
      (name a).toList = n := by
  have hlist : Function.Injective fun a => (name a).toList := fun _ _ h =>
    hname (String.toList_inj.mp h)
  rw [Names.value?, List.find?_map, Option.map_map, ← Text.find?_name_eq_some_iff hall hlist]
  simp only [Function.comp_def, Option.map_id']

/-- **Forms of a name.** If no two values have the same name, a value is meant by its name alone. -/
theorem meaning_map_eq_some_iff (hall : ∀ a, a ∈ all) (hname : Function.Injective name) :
    Names.meaning (all.map fun a => (name a, a)) v = some a ↔ IsNamed (name a) v := by
  have hcontent (content : Content) :
      content.bind (Names.value? (all.map fun a => (name a, a))) = some a ↔
        content = some (name a).toList := by
    cases content with
    | none => simp
    | some n => rw [Option.bind_some, value?_map_eq_some_iff hall hname, Option.some.injEq, eq_comm]
  unfold Names.meaning
  split
  · simp [IsNamed, hcontent]
  · simp [IsNamed, hcontent]
  · next htext hobject =>
    refine iff_of_false (by simp) ?_
    rintro (rfl | rfl)
    · exact htext _ rfl
    · exact hobject _ rfl

end Named

/-! ### Types -/

namespace Kind

/-- What a value means to a type. -/
def meaning : {α : Type} → Kind α → Value → Option α
  | _, text, v => (textMeaning v).map String.ofList
  | _, integer range ofInt _, v => (range.meaning v).map ofInt
  | _, named all name, v => Names.meaning (all.map fun a => (name a, a)) v
  | _, converted kind convert _, v => (kind.meaning v).bind fun a => (convert a).toOption

/-- The value that is written for something of a type. -/
def value : {α : Type} → Kind α → α → Value
  | _, text, s => .text (some s.toList)
  | _, integer _ _ toInt, a => .integer (toInt a)
  | _, named _ name, a => .text (some (name a).toList)
  | _, converted kind _ back, b => kind.value (back b)

/-- **Types.** The values that mean something to a type are read as that, and nothing else is. -/
theorem reads_read (kind : Kind α) : Reads kind.read kind.meaning := by
  intro v s before rest h hbefore hrest
  induction kind with
  | text =>
    rw [read, toOption_map, reads_readString textName v s before rest h hbefore hrest, meaning,
      Option.map_map, Option.map_map]
    rfl
  | integer range ofInt toInt =>
    rw [read, toOption_map, reads_readInteger range v s before rest h hbefore hrest, meaning,
      Option.map_map, Option.map_map]
    rfl
  | named all name => exact reads_readName _ v s before rest h hbefore hrest
  | converted kind convert back ih =>
    have hconvert (t : List Char) : (read (converted kind convert back) t).toOption =
        (kind.read t).toOption.bind fun found =>
          (convert found.1).toOption.map (·, found.2) := by
      rw [read]
      rcases kind.read t with _ | ⟨a, t⟩
      · rfl
      · dsimp only [toOption_ok, Option.bind_some]
        cases convert a <;> rfl
    rw [hconvert, ih, meaning, Option.bind_map, Option.map_bind]
    rfl

end Kind

end BinaryLayout.Json
