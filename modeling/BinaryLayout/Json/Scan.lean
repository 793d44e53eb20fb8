import BinaryLayout.Binary64
import BinaryLayout.Text.Quoted

/-!
# Scanning a JSON text

A text is read from left to right and the first problem met is reported. It is of one of three
kinds: the text ends too early, it is malformed, or it is well formed so far but does not describe
a value of the wanted type.

A reader takes a beginning of the text and returns what it read with the rest of the text, or the
first fault that it met. No reader returns more text than it was given; the lemmas on lengths say
so, and every recursion over a text rests on them.
-/

namespace BinaryLayout.Json

/-! ### Faults -/

/-- What stands in a text where something else was wanted. -/
inductive Found
  | null
  | boolean (value : Bool)
  | integer (value : Int)
  | real (negative : Bool) (magnitude : Binary64)
  | text (value : List Char)
  | array
  | object
  deriving DecidableEq, Repr

/-- How a well-formed text fails to describe a value of the wanted type. -/
inductive Mismatch
  /-- A value of another kind stands where one of the wanted kind should. -/
  | wrongType (found : Found) (wanted : String)
  /-- An integer is outside the wanted range. -/
  | outOfRange (value : Int) (wanted : String)
  /-- A name is none of those that the type has. -/
  | unknownVariant (name : List Char) (known : List String)
  /-- A member that every such object has is absent. -/
  | missingField (name : String)
  /-- A member occurs for the second time. -/
  | duplicateField (name : String)
  /-- An array ends before it has an element for every member. -/
  | tooShort (length : Nat) (wanted : String)
  /-- The value is of the right kind, but the type's own rules refuse it. -/
  | refused (reason : String)
  deriving DecidableEq, Repr

/-- Why a text does not describe a value. -/
inductive Fault
  /-- The text ends too early. -/
  | truncated
  /-- The text is no JSON text. -/
  | malformed
  /-- The text describes something else. -/
  | mismatch (reason : Mismatch)
  deriving DecidableEq, Repr

/-- An integer between back quotes, after the word for it. -/
def integerPhrase (value : Int) : String :=
  "integer `" ++ String.ofList (Text.signedDecimal value) ++ "`"

/-- The words for what was found. -/
def Found.phrase : Found → String
  | null => "null"
  | boolean value => "boolean `" ++ (if value then "true" else "false") ++ "`"
  | integer value => integerPhrase value
  | real negative magnitude =>
    "floating point `" ++ (if negative then "-" else "") ++ String.ofList magnitude.text
      ++ "`"
  | text value => "string " ++ String.ofList (Text.quoted value)
  | array => "sequence"
  | object => "map"

/-- A name between back quotes. -/
def ticked (name : String) : String := "`" ++ name ++ "`"

/-- The words for a choice among names. -/
def choicePhrase : List String → String
  | [one] => ticked one
  | [one, other] => ticked one ++ " or " ++ ticked other
  | names => "one of " ++ String.intercalate ", " (names.map ticked)

/-- The mismatch in words. -/
def Mismatch.message : Mismatch → String
  | wrongType found wanted => "invalid type: " ++ found.phrase ++ ", expected " ++ wanted
  | outOfRange value wanted => "invalid value: " ++ integerPhrase value ++ ", expected " ++ wanted
  | unknownVariant name known =>
    "unknown variant " ++ ticked (String.ofList name) ++ ", expected " ++ choicePhrase known
  | missingField name => "missing field " ++ ticked name
  | duplicateField name => "duplicate field " ++ ticked name
  | tooShort length wanted =>
    "invalid length " ++ String.ofList (Text.decimal length) ++ ", expected " ++ wanted
  | refused reason => reason

/-- The fault in words. -/
def Fault.message : Fault → String
  | truncated => "the text ends too early"
  | malformed => "the text is malformed"
  | mismatch reason => reason.message

/-! ### Readings -/

/-- The result of reading a value off the front of a text. -/
abbrev Reading (α : Type) := Except Fault (α × List Char)

/-- The characters that may stand between the parts of a text. -/
def isSpace (c : Char) : Bool := c == ' ' || c == '\t' || c == '\n' || c == '\r'

/-- The text after the space at its front. -/
def skipSpace (s : List Char) : List Char := s.dropWhile isSpace

/-- Skipping space makes no text longer. -/
theorem length_skipSpace_le (s : List Char) : (skipSpace s).length ≤ s.length :=
  (List.dropWhile_sublist _).length_le

/-- What follows a character found after space is shorter than the text. -/
theorem length_lt_of_skipSpace {s rest : List Char} {c : Char} (h : skipSpace s = c :: rest) :
    rest.length < s.length := by
  have := length_skipSpace_le s
  simp only [h, List.length_cons] at this
  omega

/-- Takes one wanted character after any space. -/
def takeMark (mark : Char) (s : List Char) : Except Fault (List Char) :=
  match skipSpace s with
  | [] => .error .truncated
  | c :: rest => if c = mark then .ok rest else .error .malformed

/-- What follows a mark is shorter than the text. -/
theorem length_takeMark {mark : Char} {s rest : List Char} (h : takeMark mark s = .ok rest) :
    rest.length < s.length := by
  unfold takeMark at h
  split at h
  · cases h
  · next c tail opening =>
    split at h
    · cases h
      exact length_lt_of_skipSpace opening
    · cases h

/-- Takes the given characters, which must come next. -/
def takeWord : List Char → List Char → Except Fault (List Char)
  | [], s => .ok s
  | _ :: _, [] => .error .truncated
  | w :: word, c :: rest => if c = w then takeWord word rest else .error .malformed

/-- What follows a word is no longer than the text. -/
theorem length_takeWord {word s rest : List Char} (h : takeWord word s = .ok rest) :
    rest.length ≤ s.length := by
  induction word generalizing s with
  | nil => cases h; exact Nat.le_refl _
  | cons w word ih =>
    cases s with
    | nil => cases h
    | cons c tail =>
      unfold takeWord at h
      split at h
      · exact Nat.le_succ_of_le (ih h)
      · cases h

end BinaryLayout.Json
