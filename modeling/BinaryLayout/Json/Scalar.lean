import BinaryLayout.Json.Number
import BinaryLayout.Json.Text

/-!
# Typed values in a JSON text

Reading a value of a wanted type: an integer of a range, a string, one of a type's names, or a value
that is made out of one of another type. A value of another kind is described in the fault, after as
much of it has been read as the description needs. The written forms have nothing that could be left
out.
-/

namespace BinaryLayout.Json

/-- The fault of a value that stands where something else was wanted. -/
def describing (wanted : String) (found : Found) : Fault :=
  .mismatch (.wrongType found wanted)

/-- The fault that a word gives which stands where something else was wanted. -/
def refuseWord (wanted : String) (found : Found) (word rest : List Char) : Fault :=
  match takeWord word rest with
  | .error fault => fault
  | .ok _ => describing wanted found

/-- The fault that a text gives which begins with something other than what was wanted. -/
def refuse (wanted : String) : List Char → Fault
  | [] => .truncated
  | c :: rest =>
    if c = 'n' then refuseWord wanted .null ['u', 'l', 'l'] rest
    else if c = 't' then refuseWord wanted (.boolean true) ['r', 'u', 'e'] rest
    else if c = 'f' then refuseWord wanted (.boolean false) ['a', 'l', 's', 'e'] rest
    else if startsNumber c then
      match readNumber (c :: rest) with
      | .error fault => fault
      | .ok (number, _) => describing wanted number.found
    else if c = '"' then
      match readText rest with
      | .error fault => fault
      | .ok (text, _) => describing wanted (.text text)
    else if c = '[' then describing wanted .array
    else if c = '{' then describing wanted .object
    else .malformed

/-! ### Integers -/

/-- A range of integers and its name in messages. Its integers are 64-bit words, signed or not. -/
structure IntegerRange where
  name : String
  least : Int
  most : Int
  bounded : -Word.half64 ≤ least ∧ most < Word.count64
  deriving DecidableEq, Repr

/-- Unsigned 32-bit words. -/
def word32 : IntegerRange := ⟨"u32", 0, Word.count32 - 1, by decide⟩

/-- Unsigned 64-bit words that measure memory. -/
def sizeWord : IntegerRange := ⟨"usize", 0, Word.count64 - 1, by decide⟩

/-- Signed 64-bit words. -/
def signedWord64 : IntegerRange := ⟨"i64", -Word.half64, Word.half64 - 1, by decide⟩

/-- The integer of a number, if it is one of the range. -/
def integerIn (range : IntegerRange) (number : Number) : Except Fault Int :=
  match number with
  | .integer value =>
    if range.least ≤ value ∧ value ≤ range.most then .ok value
    else .error (.mismatch (.outOfRange value range.name))
  | .real .. => .error (describing range.name number.found)

/-- Reads an integer of a range. -/
def readInteger (range : IntegerRange) (s : List Char) : Reading Int :=
  match skipSpace s with
  | [] => .error .truncated
  | c :: rest =>
    if startsNumber c then
      match readNumber (c :: rest) with
      | .error fault => .error fault
      | .ok (number, rest) =>
        match integerIn range number with
        | .error fault => .error fault
        | .ok value => .ok (value, rest)
    else .error (refuse range.name (c :: rest))

/-- What follows an integer is no longer than the text. -/
theorem length_readInteger_le {range : IntegerRange} {s rest : List Char} {value : Int}
    (h : readInteger range s = .ok (value, rest)) : rest.length ≤ s.length := by
  unfold readInteger at h
  split at h
  · cases h
  · next c tail found =>
    split at h
    · split at h
      · cases h
      · next number =>
        split at h
        · cases h
        · cases h
          exact Nat.le_trans (length_readNumber_le number) (found ▸ length_skipSpace_le s)
    · cases h

/-! ### Strings -/

/-- The name of strings in messages. -/
def textName : String := "a string"

/-- Reads a string; anything else is described as standing for the wanted thing. -/
def readString (wanted : String) (s : List Char) : Reading (List Char) :=
  match skipSpace s with
  | [] => .error .truncated
  | c :: rest => if c = '"' then readText rest else .error (refuse wanted (c :: rest))

/-- What follows a string is no longer than the text. -/
theorem length_readString_le {wanted : String} {s rest text : List Char}
    (h : readString wanted s = .ok (text, rest)) : rest.length ≤ s.length := by
  unfold readString at h
  split at h
  · cases h
  · next found =>
    split at h
    · exact Nat.le_of_lt (Nat.lt_trans (length_readText h) (length_lt_of_skipSpace found))
    · cases h

/-! ### Names -/

/-- The names that the values of a type have, each with its value, in the order of messages. -/
abbrev Names (α : Type) := List (String × α)

/-- The value with exactly this name. -/
def Names.value? {α : Type} (names : Names α) (name : List Char) : Option α :=
  (names.find? fun entry => entry.1.toList == name).map Prod.snd

/-- The value with the name that was read. -/
def Names.valueOf {α : Type} (names : Names α) (name : List Char) : Except Fault α :=
  match names.value? name with
  | some value => .ok value
  | none => .error (.mismatch (.unknownVariant name (names.map Prod.fst)))

/-- The name of what stands behind a name that is an object's only member. -/
def unitName : String := "unit"

/-- Takes the word for nothing. -/
def takeNull (s : List Char) : Except Fault (List Char) :=
  match skipSpace s with
  | [] => .error .truncated
  | c :: rest =>
    if c = 'n' then takeWord ['u', 'l', 'l'] rest else .error (refuse unitName (c :: rest))

/-- Reads a name that is the only member of an object and has nothing as its value, behind the
object's opening bracket. -/
def readBoxedName {α : Type} (names : Names α) (s : List Char) : Reading α :=
  match takeMark '"' s with
  | .error fault => .error fault
  | .ok rest =>
    match readText rest with
    | .error fault => .error fault
    | .ok (name, rest) =>
      match names.valueOf name with
      | .error fault => .error fault
      | .ok value =>
        match takeMark ':' rest with
        | .error fault => .error fault
        | .ok rest =>
          match takeNull rest with
          | .error fault => .error fault
          | .ok rest =>
            match takeMark '\x7d' rest with
            | .error fault => .error fault
            | .ok rest => .ok (value, rest)

/-- Reads one of a type's names: a string, or an object that has the name as its only member. -/
def readName {α : Type} (names : Names α) (s : List Char) : Reading α :=
  match skipSpace s with
  | [] => .error .truncated
  | c :: rest =>
    if c = '"' then
      match readText rest with
      | .error fault => .error fault
      | .ok (name, rest) =>
        match names.valueOf name with
        | .error fault => .error fault
        | .ok value => .ok (value, rest)
    else if c = '\x7b' then readBoxedName names rest
    else .error .malformed

theorem length_takeNull_le {s rest : List Char} (h : takeNull s = .ok rest) :
    rest.length ≤ s.length := by
  unfold takeNull at h
  split at h
  · cases h
  · next found =>
    split at h
    · exact Nat.le_trans (length_takeWord h) (Nat.le_of_lt (length_lt_of_skipSpace found))
    · cases h

theorem length_readBoxedName_le {α : Type} {names : Names α} {s rest : List Char} {value : α}
    (h : readBoxedName names s = .ok (value, rest)) : rest.length ≤ s.length := by
  unfold readBoxedName at h
  split at h
  · cases h
  · next opened =>
    split at h
    · cases h
    · next name =>
      split at h
      · cases h
      · split at h
        · cases h
        · next colon =>
          split at h
          · cases h
          · next nothing =>
            split at h
            · cases h
            · next closed =>
              cases h
              have := length_takeMark opened
              have := length_readText name
              have := length_takeMark colon
              have := length_takeNull_le nothing
              have := length_takeMark closed
              omega

/-- What follows a name is no longer than the text. -/
theorem length_readName_le {α : Type} {names : Names α} {s rest : List Char} {value : α}
    (h : readName names s = .ok (value, rest)) : rest.length ≤ s.length := by
  unfold readName at h
  split at h
  · cases h
  · next found =>
    have shorter := Nat.le_of_lt (length_lt_of_skipSpace found)
    split at h
    · split at h
      · cases h
      · next name =>
        split at h
        · cases h
        · cases h
          exact Nat.le_trans (Nat.le_of_lt (length_readText name)) shorter
    · split at h
      · exact Nat.le_trans (length_readBoxedName_le h) shorter
      · cases h

/-! ### Types -/

/-- The types that a value can have. -/
inductive Kind : Type → Type 1
  /-- A string. -/
  | text : Kind String
  /-- An integer of a range, held as a number of another type. -/
  | integer {α : Type} (range : IntegerRange) (ofInt : Int → α) (toInt : α → Int) : Kind α
  /-- One of some values, by its name. -/
  | named {α : Type} (all : List α) (name : α → String) : Kind α
  /-- What is made out of a value of another type, if that can be done, and can be turned back. -/
  | converted {α β : Type} (kind : Kind α) (convert : α → Except String β) (back : β → α) : Kind β

namespace Kind

variable {α : Type}

/-- Unsigned 32-bit words. -/
def word32 : Kind Nat := integer Json.word32 Int.toNat Int.ofNat

/-- Unsigned 64-bit words that measure memory. -/
def sizeWord : Kind Nat := integer Json.sizeWord Int.toNat Int.ofNat

/-- Signed 64-bit words. -/
def signedWord64 : Kind Int64 := integer Json.signedWord64 Int64.ofInt Int64.toInt

/-- Reads a value of the type. -/
def read : {α : Type} → Kind α → List Char → Reading α
  | _, text, s => (readString textName s).map fun (content, rest) => (String.ofList content, rest)
  | _, integer range ofInt _, s => (readInteger range s).map fun (i, rest) => (ofInt i, rest)
  | _, named all name, s => readName (all.map fun a => (name a, a)) s
  | _, converted kind convert _, s =>
    match kind.read s with
    | .error fault => .error fault
    | .ok (a, rest) =>
      match convert a with
      | .ok b => .ok (b, rest)
      | .error reason => .error (.mismatch (.refused reason))

/-- The written form of a value of the type. -/
def write : {α : Type} → Kind α → α → List Char
  | _, text, s => writeText s.toList
  | _, integer _ _ toInt, a => Text.signedDecimal (toInt a)
  | _, named _ name, a => writeText (name a).toList
  | _, converted kind _ back, b => kind.write (back b)

/-- What follows a value is no longer than the text. -/
theorem length_read_le {kind : Kind α} {s rest : List Char} {a : α}
    (h : kind.read s = .ok (a, rest)) : rest.length ≤ s.length := by
  induction kind with
  | text =>
    rw [read] at h
    cases hread : readString textName s with
    | error fault => simp only [hread, Except.map, reduceCtorEq] at h
    | ok found =>
      simp only [hread, Except.map, Except.ok.injEq, Prod.mk.injEq] at h
      exact h.2 ▸ length_readString_le hread
  | integer range ofInt toInt =>
    rw [read] at h
    cases hread : readInteger range s with
    | error fault => simp only [hread, Except.map, reduceCtorEq] at h
    | ok found =>
      simp only [hread, Except.map, Except.ok.injEq, Prod.mk.injEq] at h
      exact h.2 ▸ length_readInteger_le hread
  | named all name =>
    rw [read] at h
    exact length_readName_le h
  | converted kind convert back ih =>
    rw [read] at h
    split at h
    · cases h
    · next hread =>
      split at h
      · cases h
        exact ih hread
      · cases h

end Kind

end BinaryLayout.Json
