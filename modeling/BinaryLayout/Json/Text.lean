import BinaryLayout.Json.Scan

/-!
# Strings in a JSON text

Reading and writing a string between double quotes. A reader starts behind the opening quote. An
escape names one character; a character outside the basic plane is named by the two halves of a
surrogate pair, and no half may stand alone. Writing escapes the quote, the backslash and the
control characters, and nothing else.
-/

namespace BinaryLayout.Json

/-! ### Escapes -/

/-- The number of hexadecimal digits after `\u`. -/
def escapeDigits : Nat := 4

/-- Reads the four hexadecimal digits of an escape. A text that ends within them is truncated,
unless what is left of it has four bytes, of which not all can be digits. -/
def readHex (s : List Char) : Reading Nat :=
  let digits := s.take escapeDigits
  if (String.ofList digits).utf8ByteSize < escapeDigits then .error .truncated
  else
    match Text.numeral? 16 digits with
    | some n => .ok (n, s.drop escapeDigits)
    | none => .error .malformed

/-- What follows the digits of an escape is no longer than the text. -/
theorem length_readHex {s rest : List Char} {n : Nat} (h : readHex s = .ok (n, rest)) :
    rest.length ≤ s.length := by
  unfold readHex at h
  simp only at h
  repeat' split at h
  all_goals first
    | cases h; simp
    | cases h

/-- Whether a code unit is the first half of a surrogate pair. -/
def isLeading (n : Nat) : Bool := 0xD800 ≤ n && n < 0xDC00

/-- Whether a code unit is the second half of a surrogate pair. -/
def isTrailing (n : Nat) : Bool := 0xDC00 ≤ n && n < 0xE000

/-- The character that a surrogate pair names. -/
def pairedChar (leading trailing : Nat) : Char :=
  Char.ofNat (0x10000 + (leading - 0xD800) * 0x400 + (trailing - 0xDC00))

/-- Reads the second half of a surrogate pair, with its own escape mark. -/
def readTrailing (leading : Nat) (s : List Char) : Reading Char :=
  match takeWord ['\\', 'u'] s with
  | .error fault => .error fault
  | .ok rest =>
    match readHex rest with
    | .error fault => .error fault
    | .ok (trailing, rest) =>
      if isTrailing trailing then .ok (pairedChar leading trailing, rest) else .error .malformed

/-- Reads the character named behind `\u`. -/
def readCodeUnit (s : List Char) : Reading Char :=
  match readHex s with
  | .error fault => .error fault
  | .ok (n, rest) =>
    if isTrailing n then .error .malformed
    else if isLeading n then readTrailing n rest
    else .ok (Char.ofNat n, rest)

/-- The character that a letter behind a backslash stands for, the code unit escape aside. -/
def escapeLetter? (c : Char) : Option Char :=
  match c with
  | '"' => some '"'
  | '\\' => some '\\'
  | '/' => some '/'
  | 'b' => some '\x08'
  | 'f' => some '\x0c'
  | 'n' => some '\n'
  | 'r' => some '\r'
  | 't' => some '\t'
  | _ => none

/-- Reads the character that is named behind a backslash. -/
def readEscape : List Char → Reading Char
  | [] => .error .truncated
  | c :: rest =>
    if c = 'u' then readCodeUnit rest
    else
      match escapeLetter? c with
      | some d => .ok (d, rest)
      | none => .error .malformed

/-- What follows a second half is no longer than the text. -/
theorem length_readTrailing {leading : Nat} {s rest : List Char} {c : Char}
    (h : readTrailing leading s = .ok (c, rest)) : rest.length ≤ s.length := by
  unfold readTrailing at h
  split at h
  · cases h
  · next mid marked =>
    split at h
    · cases h
    · next n tail digits =>
      split at h
      · injection h with h
        injection h with _ h
        subst h
        exact Nat.le_trans (length_readHex digits) (length_takeWord marked)
      · cases h

/-- What follows a code unit escape is no longer than the text. -/
theorem length_readCodeUnit {s rest : List Char} {c : Char}
    (h : readCodeUnit s = .ok (c, rest)) : rest.length ≤ s.length := by
  unfold readCodeUnit at h
  split at h
  · cases h
  · next n mid digits =>
    have fewer := length_readHex digits
    split at h
    · cases h
    · split at h
      · exact Nat.le_trans (length_readTrailing h) fewer
      · injection h with h
        injection h with _ h
        exact h ▸ fewer

/-- What follows an escape is shorter than the text. -/
theorem length_readEscape {s rest : List Char} {c : Char} (h : readEscape s = .ok (c, rest)) :
    rest.length < s.length := by
  unfold readEscape at h
  split at h
  · cases h
  · split at h
    · exact Nat.lt_succ_of_le (length_readCodeUnit h)
    · split at h
      · cases h
        exact Nat.lt_succ_self _
      · cases h

/-! ### Reading -/

/-- Whether a character may only stand in a string as an escape. -/
def isControl (c : Char) : Bool := c.toNat < 0x20

/-- Puts a character before a text that was read. -/
def Reading.push (c : Char) : Reading (List Char) → Reading (List Char)
  | .ok (text, rest) => .ok (c :: text, rest)
  | .error fault => .error fault

/-- Reads a string up to its closing quote. -/
def readText (s : List Char) : Reading (List Char) :=
  match s with
  | [] => .error .truncated
  | c :: rest =>
    if c = '"' then .ok ([], rest)
    else if c = '\\' then
      match _escape : readEscape rest with
      | .error fault => .error fault
      | .ok (d, rest) => (readText rest).push d
    else if isControl c then .error .malformed
    else (readText rest).push c
termination_by s.length
decreasing_by
  · exact Nat.lt_succ_of_lt (length_readEscape _escape)
  · exact Nat.lt_succ_self _

/-- Putting a character before a text leaves the rest as it was. -/
theorem Reading.of_push {r : Reading (List Char)} {c : Char} {text rest : List Char}
    (h : r.push c = .ok (text, rest)) : ∃ tail, r = .ok (tail, rest) := by
  unfold Reading.push at h
  split at h
  · cases h
    exact ⟨_, rfl⟩
  · cases h

/-- What follows a string is shorter than the text. -/
theorem length_readText {s rest text : List Char} (h : readText s = .ok (text, rest)) :
    rest.length < s.length := by
  fun_induction readText s generalizing text with
  | case1 => cases h
  | case2 => cases h; exact Nat.lt_succ_self _
  | case3 => cases h
  | case4 _ _ _ escape _ ih =>
    obtain ⟨_, h⟩ := Reading.of_push h
    exact Nat.lt_trans (ih h) (Nat.lt_succ_of_lt (length_readEscape escape))
  | case5 => cases h
  | case6 _ _ _ _ _ ih =>
    obtain ⟨_, h⟩ := Reading.of_push h
    exact Nat.lt_succ_of_lt (ih h)

/-- Passes over a string up to its closing quote. Nothing is made of its characters, so that the
halves of surrogate pairs may stand alone in it. -/
def skipText (s : List Char) : Except Fault (List Char) :=
  match s with
  | [] => .error .truncated
  | c :: rest =>
    if c = '"' then .ok rest
    else if c = '\\' then
      match rest with
      | [] => .error .truncated
      | d :: rest =>
        if d = 'u' then
          match _digits : readHex rest with
          | .error fault => .error fault
          | .ok (_, rest) => skipText rest
        else if (escapeLetter? d).isSome then skipText rest
        else .error .malformed
    else if isControl c then .error .malformed
    else skipText rest
termination_by s.length
decreasing_by
  · exact Nat.lt_succ_of_le (Nat.le_succ_of_le (length_readHex _digits))
  · exact Nat.lt_succ_of_lt (Nat.lt_succ_self _)
  · exact Nat.lt_succ_self _

/-- What follows a string that was passed over is shorter than the text. -/
theorem length_skipText {s rest : List Char} (h : skipText s = .ok rest) :
    rest.length < s.length := by
  fun_induction skipText s with
  | case1 => cases h
  | case2 => cases h; exact Nat.lt_succ_self _
  | case3 => cases h
  | case4 => cases h
  | case5 _ _ _ digits _ ih =>
    have := ih h
    have := length_readHex digits
    simp only [List.length_cons]
    omega
  | case6 _ _ _ _ _ ih =>
    have := ih h
    simp only [List.length_cons]
    omega
  | case7 => cases h
  | case8 => cases h
  | case9 _ _ _ _ _ ih => exact Nat.lt_succ_of_lt (ih h)

/-! ### Writing -/

/-- The written form of a character inside a string. -/
def writtenChar (c : Char) : List Char :=
  match c with
  | '"' => ['\\', '"']
  | '\\' => ['\\', '\\']
  | '\x08' => ['\\', 'b']
  | '\t' => ['\\', 't']
  | '\n' => ['\\', 'n']
  | '\x0c' => ['\\', 'f']
  | '\r' => ['\\', 'r']
  | _ =>
    if isControl c then ['\\', 'u'] ++ Text.hexadecimal escapeDigits c.toNat else [c]

/-- The written form of a string, with its quotes. -/
def writeText (s : List Char) : List Char := '"' :: (s.flatMap writtenChar ++ ['"'])

end BinaryLayout.Json
