import BinaryLayout.Json.Scan
import BinaryLayout.Proofs.Text.Numerals

/-!
# The grammar of JSON texts

Which texts stand for which values, said without a reader. Space may stand around every value and
every name. A character of a string may be written as itself or by one of its escapes, and a
character outside the basic plane by the two halves of a surrogate pair. A half that stands alone is
well formed, but then the string stands for no text. An object has its members in their order, and
nothing is said of names that come twice.

## Main definitions

* `Content`, `Spells`: what a string stands for, and the texts between its quotes.
* `WritesInteger`, `IsReal`: the two kinds of number.
* `Value`: what a JSON text stands for.
* `Written`: the texts of values, elements and members.

## Main results

* `Written.exists_first`: the first character of a value tells its kind.
* `takeMark_append`, `takeWord_append`: marks and words are taken off the front of a text.
-/

namespace BinaryLayout.Json

open Text (Numeral)

variable {c : Char} {s t : List Char} {n : Nat} {i : Int}

/-- What holds of each character of a list, looked at one by one. -/
theorem forall_mem_of_all {p : Char → Prop} [DecidablePred p] (h : s.all (p ·) = true) :
    ∀ c ∈ s, p c := by
  simpa only [List.all_eq_true, decide_eq_true_eq] using h

/-! ### Space -/

/-- The characters that may stand around values and names. -/
def spaces : List Char := [' ', '\t', '\n', '\r']

/-- The text has nothing but space. -/
def IsSpaced (s : List Char) : Prop := ∀ c ∈ s, c ∈ spaces

instance (s : List Char) : Decidable (IsSpaced s) :=
  decidable_of_iff (s.all (· ∈ spaces) = true) (by simp [IsSpaced])

theorem isSpaced_nil : IsSpaced [] := fun _ h => absurd h List.not_mem_nil

theorem isSpace_iff : isSpace c = true ↔ c ∈ spaces := by
  simp [isSpace, spaces, or_assoc]

theorem skipSpace_append (hs : IsSpaced s) (t : List Char) : skipSpace (s ++ t) = skipSpace t :=
  List.dropWhile_append_of_pos fun c hc => isSpace_iff.mpr (hs c hc)

theorem skipSpace_cons (hc : c ∉ spaces) (s : List Char) : skipSpace (c :: s) = c :: s :=
  List.dropWhile_cons_of_neg (isSpace_iff.not.mpr hc)

theorem takeMark_skip (hs : IsSpaced s) (mark : Char) (t : List Char) :
    takeMark mark (s ++ t) = takeMark mark t := by
  rw [takeMark, takeMark, skipSpace_append hs]

/-- A mark is taken with the space before it. -/
theorem takeMark_append (hs : IsSpaced s) (hc : c ∉ spaces) (t : List Char) :
    takeMark c (s ++ c :: t) = .ok t := by
  rw [takeMark, skipSpace_append hs, skipSpace_cons hc]
  exact if_pos rfl

/-- Another character is not taken for the mark. -/
theorem takeMark_append_ne {mark : Char} (hs : IsSpaced s) (hc : c ∉ spaces) (hne : c ≠ mark)
    (t : List Char) : takeMark mark (s ++ c :: t) = .error .malformed := by
  rw [takeMark, skipSpace_append hs, skipSpace_cons hc]
  exact if_neg hne

theorem takeWord_append (word s : List Char) : takeWord word (word ++ s) = .ok s := by
  induction word with
  | nil => rfl
  | cons w word ih =>
    rw [List.cons_append, takeWord, if_pos rfl]
    exact ih

/-! ### Ends -/

/-- The characters that can stand behind a value with the space around it. -/
def closers : List Char := [',', ']', '\x7d']

/-- A value with the space around it can end here. -/
def EndsSlot (rest : List Char) : Prop := ∀ c ∈ rest.head?, c ∈ closers

/-- A value can end here. -/
def EndsValue (rest : List Char) : Prop := ∀ c ∈ rest.head?, c ∈ spaces ++ closers

theorem endsSlot_cons (hc : c ∈ closers) (s : List Char) : EndsSlot (c :: s) :=
  fun _ h => Option.some.inj h ▸ hc

theorem EndsSlot.endsValue_append (h : EndsSlot t) (hs : IsSpaced s) : EndsValue (s ++ t) := by
  intro c hc
  cases s with
  | nil => exact List.mem_append_right _ (h c hc)
  | cons d s =>
    obtain rfl : d = c := Option.some.inj hc
    exact List.mem_append_left _ (hs d List.mem_cons_self)

/-- What holds of no character at which a value can end does not hold of the next one. -/
theorem EndsValue.head?_any_eq_false (h : EndsValue s) {p : Char → Bool}
    (hp : ∀ c ∈ spaces ++ closers, p c = false) : s.head?.any p = false := by
  cases s with
  | nil => rfl
  | cons c s => exact hp c (h c rfl)

/-! ### Strings -/

/-- What a string stands for: a text, or nothing if half a surrogate pair stands alone in it. -/
abbrev Content := Option (List Char)

/-- The letters that stand behind a backslash, each with the character that is meant. -/
def escapes : List (Char × Char) :=
  [('"', '"'), ('\\', '\\'), ('/', '/'), ('b', '\x08'), ('f', '\x0c'), ('n', '\n'), ('r', '\r'),
    ('t', '\t')]

/-- The text is the escape of a code unit: four hexadecimal digits behind their mark. -/
inductive CodeUnit : Nat → List Char → Prop
  | digits {n : Nat} {s : List Char} (hlength : s.length = 4) (h : Numeral 16 s n) :
      CodeUnit n ('\\' :: 'u' :: s)

/-- The code unit is the first half of a surrogate pair. -/
def Leading (n : Nat) : Prop := 0xD800 ≤ n ∧ n < 0xDC00

/-- The code unit is the second half of a surrogate pair. -/
def Trailing (n : Nat) : Prop := 0xDC00 ≤ n ∧ n < 0xE000

instance (n : Nat) : Decidable (Leading n) := inferInstanceAs (Decidable (_ ∧ _))

instance (n : Nat) : Decidable (Trailing n) := inferInstanceAs (Decidable (_ ∧ _))

/-- The text is one of the ways to write the character in a string. -/
inductive SpellsChar (c : Char) : List Char → Prop
  | plain (hquote : c ≠ '"') (hbackslash : c ≠ '\\') (hcontrol : 0x20 ≤ c.toNat) : SpellsChar c [c]
  | letter {d : Char} (h : (d, c) ∈ escapes) : SpellsChar c ['\\', d]
  | codeUnit {s : List Char} (h : CodeUnit c.toNat s) : SpellsChar c s
  | pair {n m : Nat} {s t : List Char} (hs : CodeUnit n s) (ht : CodeUnit m t) (hn : Leading n)
      (hm : Trailing m) (hc : c.toNat = 0x10000 + (n - 0xD800) * 0x400 + (m - 0xDC00)) :
      SpellsChar c (s ++ t)

/-- The text between the quotes of a string spells its content. Without the last rule the content
is a text; the last rule is for half a pair that stands alone, which is a second half, or a first
half with no second half behind it. -/
inductive Spells : Content → List Char → Prop
  | nil : Spells (some []) []
  | char {c : Char} {content : Content} {s t : List Char} (hc : SpellsChar c s)
      (h : Spells content t) : Spells (content.map (c :: ·)) (s ++ t)
  | half {n : Nat} {content : Content} {s t : List Char} (hs : CodeUnit n s)
      (hn : Trailing n ∨ Leading n ∧ ∀ m u, CodeUnit m u → u <+: t → ¬ Trailing m)
      (h : Spells content t) : Spells none (s ++ t)

/-! ### Numbers -/

/-- The text is the number without a sign, a point and an exponent: decimal digits, the first of
which is no zero unless it is the only one. -/
structure IsWhole (n : Nat) (s : List Char) : Prop where
  numeral : Numeral 10 s n
  zero_alone : s.length = 1 ∨ s.head? ≠ some '0'

/-- The text is the integer, in digits alone. Zero has no sign. -/
inductive WritesInteger : Int → List Char → Prop
  | nonneg {n : Nat} {s : List Char} (h : IsWhole n s) : WritesInteger n s
  | neg {n : Nat} {s : List Char} (h : IsWhole n s) (hn : 0 < n) : WritesInteger (-n) ('-' :: s)

/-- A point with digits, or nothing. -/
inductive IsFraction : List Char → Prop
  | absent : IsFraction []
  | digits {s : List Char} {n : Nat} (h : Numeral 10 s n) : IsFraction ('.' :: s)

/-- The marks of an exponent. -/
def exponentMarks : List Char := ['e', 'E']

/-- The signs of an exponent, which may be left out. -/
def exponentSigns : List (List Char) := [[], ['+'], ['-']]

/-- An exponent of ten, or nothing. -/
inductive IsExponent : List Char → Prop
  | absent : IsExponent []
  | digits {mark : Char} {sign s : List Char} {n : Nat} (hmark : mark ∈ exponentMarks)
      (hsign : sign ∈ exponentSigns) (h : Numeral 10 s n) : IsExponent (mark :: (sign ++ s))

/-- The text is a number that has a point or an exponent, or it is minus zero. -/
inductive IsReal : List Char → Prop
  | minusZero : IsReal ['-', '0']
  | pointed {negative : Bool} {n : Nat} {whole fraction exponent : List Char}
      (hwhole : IsWhole n whole) (hfraction : IsFraction fraction)
      (hexponent : IsExponent exponent) (h : fraction ++ exponent ≠ []) :
      IsReal ((if negative then ['-'] else []) ++ (whole ++ (fraction ++ exponent)))

/-! ### Values -/

/-- What a JSON text stands for. Of a number that is no integer nothing is kept. -/
inductive Value
  | null
  | boolean (value : Bool)
  | integer (value : Int)
  | real
  | text (content : Content)
  | array (elements : List Value)
  | object (members : List (Content × Value))

/-- The parts of a text: a value, a value with space around it, the elements between the brackets of
an array, a member with its name, and the members between the brackets of an object. -/
inductive Part
  | value (v : Value)
  | slot (v : Value)
  | elements (vs : List Value)
  | member (name : Content) (v : Value)
  | members (ms : List (Content × Value))

/-- **The grammar.** The text is a way to write the part. A whole document is a value with space
around it. -/
inductive Written : Part → List Char → Prop
  | null : Written (.value .null) "null".toList
  | true : Written (.value (.boolean true)) "true".toList
  | false : Written (.value (.boolean false)) "false".toList
  | integer {i : Int} {s : List Char} (h : WritesInteger i s) : Written (.value (.integer i)) s
  | real {s : List Char} (h : IsReal s) : Written (.value .real) s
  | text {content : Content} {s : List Char} (h : Spells content s) :
      Written (.value (.text content)) ('"' :: (s ++ ['"']))
  | emptyArray {s : List Char} (hs : IsSpaced s) :
      Written (.value (.array [])) ('[' :: (s ++ [']']))
  | array {vs : List Value} {s : List Char} (h : Written (.elements vs) s) :
      Written (.value (.array vs)) ('[' :: (s ++ [']']))
  | emptyObject {s : List Char} (hs : IsSpaced s) :
      Written (.value (.object [])) ('\x7b' :: (s ++ ['\x7d']))
  | object {ms : List (Content × Value)} {s : List Char} (h : Written (.members ms) s) :
      Written (.value (.object ms)) ('\x7b' :: (s ++ ['\x7d']))
  | slot {v : Value} {before s after : List Char} (hbefore : IsSpaced before)
      (h : Written (.value v) s) (hafter : IsSpaced after) :
      Written (.slot v) (before ++ (s ++ after))
  | lastElement {v : Value} {s : List Char} (h : Written (.slot v) s) : Written (.elements [v]) s
  | element {v : Value} {vs : List Value} {s t : List Char} (h : Written (.slot v) s)
      (ht : Written (.elements vs) t) : Written (.elements (v :: vs)) (s ++ ',' :: t)
  | member {name : Content} {v : Value} {before s between t : List Char}
      (hbefore : IsSpaced before) (hname : Spells name s) (hbetween : IsSpaced between)
      (h : Written (.slot v) t) :
      Written (.member name v) (before ++ '"' :: (s ++ '"' :: (between ++ ':' :: t)))
  | lastMember {name : Content} {v : Value} {s : List Char} (h : Written (.member name v) s) :
      Written (.members [(name, v)]) s
  | members {name : Content} {v : Value} {ms : List (Content × Value)} {s t : List Char}
      (h : Written (.member name v) s) (ht : Written (.members ms) t) :
      Written (.members ((name, v) :: ms)) (s ++ ',' :: t)

/-- A value may stand without space around it. -/
theorem Written.slot_of_value {v : Value} (h : Written (.value v) s) : Written (.slot v) s :=
  List.append_nil s ▸ Written.slot isSpaced_nil h isSpaced_nil

/-- A member may be written without space. -/
theorem Written.member_of_value {name : Content} {v : Value} (hname : Spells name s)
    (h : Written (.value v) t) : Written (.member name v) ('"' :: (s ++ '"' :: ':' :: t)) :=
  Written.member isSpaced_nil hname isSpaced_nil h.slot_of_value

/-! ### First characters -/

/-- The decimal digits. -/
def decimalDigits : List Char := "0123456789".toList

/-- The characters that a value can begin with. -/
def Value.firsts : Value → List Char
  | null => ['n']
  | boolean _ => ['t', 'f']
  | integer _ | real => '-' :: decimalDigits
  | text _ => ['"']
  | array _ => ['[']
  | object _ => ['\x7b']

/-- The digits of a decimal numeral. -/
theorem mem_decimalDigits_of_numeral (h : Numeral 10 s n) : ∀ c ∈ s, c ∈ decimalDigits := by
  have hdigits : ∀ d < 10, Char.ofNat ('0'.toNat + d) ∈ decimalDigits := by decide
  have hdigit {c : Char} {d : Nat} (hc : Text.Digit c d) (hd : d < 10) : c ∈ decimalDigits := by
    cases hc with
    | decimal h => exact hdigits _ h
    | lower h | upper h => omega
  induction h with
  | digit hc hd => exact List.forall_mem_singleton.mpr (hdigit hc hd)
  | snoc _ hc hd ih =>
    exact List.forall_mem_append.mpr ⟨ih, List.forall_mem_singleton.mpr (hdigit hc hd)⟩

/-- A numeral has a first digit. -/
theorem exists_cons_of_numeral (h : Numeral 10 s n) :
    ∃ c t, s = c :: t ∧ c ∈ decimalDigits := by
  obtain ⟨c, t, rfl⟩ := List.exists_cons_of_ne_nil h.isWord.ne_nil
  exact ⟨c, t, rfl, mem_decimalDigits_of_numeral h c List.mem_cons_self⟩

/-- **First characters.** A value is not empty, and its first character tells its kind. -/
theorem Written.exists_first {v : Value} (h : Written (.value v) s) :
    ∃ c t, s = c :: t ∧ c ∈ v.firsts := by
  cases h with
  | null | true | false => exact ⟨_, _, rfl, by decide⟩
  | text | emptyArray | array | emptyObject | object => exact ⟨_, _, rfl, List.mem_cons_self⟩
  | integer h =>
    cases h with
    | nonneg h =>
      obtain ⟨c, t, rfl, hc⟩ := exists_cons_of_numeral h.numeral
      exact ⟨c, t, rfl, List.mem_cons_of_mem _ hc⟩
    | neg => exact ⟨_, _, rfl, List.mem_cons_self⟩
  | real h =>
    cases h with
    | minusZero => exact ⟨_, _, rfl, List.mem_cons_self⟩
    | @pointed negative _ _ _ _ hwhole =>
      cases negative with
      | true => exact ⟨_, _, rfl, List.mem_cons_self⟩
      | false =>
        obtain ⟨c, t, rfl, hc⟩ := exists_cons_of_numeral hwhole.numeral
        exact ⟨c, _, rfl, List.mem_cons_of_mem _ hc⟩

/-- No value begins with space or with a closing bracket. -/
theorem Value.first_notMem {v : Value} (h : c ∈ v.firsts) : c ∉ spaces ++ closers :=
  have hplain : ∀ c ∈ v.firsts, c ∉ spaces ++ closers :=
    forall_mem_of_all (by cases v <;> rfl)
  hplain c h

theorem Value.notMem_spaces {v : Value} (h : c ∈ v.firsts) : c ∉ spaces :=
  fun hspace => Value.first_notMem h (List.mem_append_left _ hspace)

/-- The space before a value is passed over up to its first character. -/
theorem Written.exists_skipSpace {v : Value} (h : Written (.slot v) s) :
    ∃ c t, c ∈ v.firsts ∧ ∀ rest, skipSpace (s ++ rest) = c :: (t ++ rest) := by
  cases h with
  | @slot _ before s after hbefore h hafter =>
    obtain ⟨c, t, rfl, hc⟩ := h.exists_first
    refine ⟨c, t ++ after, hc, fun rest => ?_⟩
    rw [List.append_assoc, skipSpace_append hbefore, List.append_assoc, List.cons_append,
      skipSpace_cons (Value.notMem_spaces hc), List.append_assoc]

/-- No elements begin with a closing bracket. -/
theorem Written.exists_skipSpace_elements {vs : List Value} (h : Written (.elements vs) s) :
    ∃ c t, c ∉ closers ∧ ∀ rest, skipSpace (s ++ rest) = c :: (t ++ rest) := by
  have hslot {v : Value} {s : List Char} (h : Written (.slot v) s) :
      ∃ c t, c ∉ closers ∧ ∀ rest, skipSpace (s ++ rest) = c :: (t ++ rest) := by
    obtain ⟨c, t, hc, hspace⟩ := h.exists_skipSpace
    exact ⟨c, t, fun h => Value.first_notMem hc (List.mem_append_right _ h), hspace⟩
  cases h with
  | lastElement h => exact hslot h
  | @element _ _ s t h =>
    obtain ⟨c, u, hc, hspace⟩ := hslot h
    refine ⟨c, u ++ ',' :: t, hc, fun rest => ?_⟩
    rw [List.append_assoc, hspace, List.append_assoc]

/-- A member begins with a quote. -/
theorem Written.exists_skipSpace_member {name : Content} {v : Value}
    (h : Written (.member name v) s) : ∃ t, ∀ rest, skipSpace (s ++ rest) = '"' :: (t ++ rest) := by
  cases h with
  | @member _ _ before s between t hbefore =>
    refine ⟨s ++ '"' :: (between ++ ':' :: t), fun rest => ?_⟩
    rw [List.append_assoc, skipSpace_append hbefore, List.cons_append,
      skipSpace_cons (by decide)]

/-- Members begin with a quote. -/
theorem Written.exists_skipSpace_members {ms : List (Content × Value)}
    (h : Written (.members ms) s) : ∃ t, ∀ rest, skipSpace (s ++ rest) = '"' :: (t ++ rest) := by
  cases h with
  | lastMember h => exact h.exists_skipSpace_member
  | @members _ _ _ s t h =>
    obtain ⟨u, hspace⟩ := h.exists_skipSpace_member
    refine ⟨u ++ ',' :: t, fun rest => ?_⟩
    rw [List.append_assoc, hspace, List.append_assoc]

end BinaryLayout.Json
