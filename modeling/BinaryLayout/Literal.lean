import BinaryLayout.Word

/-!
# Integer literals

A literal is a numeral with an optional sign. It is hexadecimal behind `0x`, `0X` or `#`, octal
behind a zero that is not its only digit, and decimal otherwise. It denotes a signed 64-bit value;
one beyond that range is no literal.

A literal is read by a reader that is put together from smaller ones. Of two readers to choose from
the first one that succeeds is taken, and the choice is not changed if the text does not end where
that reader stops. The number without its sign is a 64-bit word; only the integer with its sign is
held against the signed range.
-/

namespace BinaryLayout

/-! ### Readers -/

/-- A reader takes what it reads off the front of a text and leaves the rest, or it fails. -/
abbrev Reader (α : Type) := List Char → Option (α × List Char)

namespace Reader

variable {α β : Type}

/-- Reads one of the given characters. -/
def oneOf (set : List Char) : Reader Char
  | [] => none
  | c :: rest => if c ∈ set then some (c, rest) else none

/-- Reads the given word. -/
def word (w : List Char) : Reader (List Char) := fun s =>
  if w.isPrefixOf s then some (w, s.drop w.length) else none

/-- Reads digits of the base, at least one and as many as there are. -/
def digits (base : Nat) : Reader (List Char) := fun s =>
  match s.takeWhile (Text.isDigitOf base) with
  | [] => none
  | d :: ds => some (d :: ds, s.dropWhile (Text.isDigitOf base))

/-- Reads nothing where the reader fails. -/
def optional (r : Reader α) : Reader (Option α) := fun s =>
  match r s with
  | some (a, rest) => some (some a, rest)
  | none => some (none, s)

/-- Reads with the first reader, and with the second one where the first one fails. -/
def orElse (r r' : Reader α) : Reader α := fun s =>
  match r s with
  | some result => some result
  | none => r' s

/-- Reads with the second reader behind what the first one takes. -/
def behind (r : Reader α) (r' : Reader β) : Reader β := fun s =>
  match r s with
  | some (_, rest) => r' rest
  | none => none

/-- Turns what is read into something else, and fails where that is not possible. -/
def convert (r : Reader α) (f : α → Option β) : Reader β := fun s =>
  match r s with
  | some (a, rest) => (f a).map (·, rest)
  | none => none

/-- What is read off a text of which nothing is to be left. -/
def whole (r : Reader α) (s : List Char) : Option α :=
  match r s with
  | some (a, []) => some a
  | _ => none

end Reader

/-! ### Literals -/

namespace Literal

/-- Reads what a hexadecimal literal begins with. -/
def hexMark : Reader (List Char) :=
  (Reader.word ['0', 'x']).orElse ((Reader.word ['0', 'X']).orElse (Reader.word ['#']))

/-- The number that digits without a mark stand for. They are octal behind a leading zero. -/
def unmarked? (digits : List Char) : Option Nat :=
  if 1 < digits.length ∧ digits.head? = some '0' then Word.ofNumeral? Word.count64 8 digits.tail
  else Word.ofNumeral? Word.count64 10 digits

/-- Reads a number without a sign. -/
def magnitude : Reader Nat :=
  ((hexMark.behind (Reader.digits 16)).convert (Word.ofNumeral? Word.count64 16)).orElse
    ((Reader.digits 10).convert unmarked?)

/-- Reads a sign, if there is one, and the number behind it. -/
def signed : Reader (Option Char × Nat) := fun s =>
  match Reader.optional (Reader.oneOf ['+', '-']) s with
  | some (sign, rest) => magnitude.convert (fun n => some (sign, n)) rest
  | none => none

/-- The integer of a number behind a sign. -/
def withSign (sign : Option Char) (n : Nat) : Int := if sign = some '-' then -n else n

/-- Reads a text that is a literal as a whole. -/
def read? (s : List Char) : Option Int64 :=
  match signed.whole s with
  | some (sign, n) =>
    if Word.isSigned64 (withSign sign n) then some (Int64.ofInt (withSign sign n)) else none
  | none => none

end Literal

end BinaryLayout
