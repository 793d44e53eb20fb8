import BinaryLayout.Json.Scan
import BinaryLayout.Word

/-!
# Numbers in a JSON text

A numeral without point and exponent that fits in 64 bits is an integer; every other one is a real
number, and so is minus zero. The significand of a real number takes digits as long as it fits in
an unsigned 64-bit word, and the power of ten is applied to it in binary floating point. A numeral
beyond the format's range is malformed.
-/

namespace BinaryLayout.Json

/-- A number as it is read. -/
inductive Number
  | integer (value : Int)
  | real (negative : Bool) (magnitude : Binary64)
  deriving DecidableEq, Repr

/-- What was found when a number was read. -/
def Number.found : Number → Found
  | integer value => .integer value
  | real negative magnitude => .real negative magnitude

/-- Whether a character is a decimal digit. -/
def isDigit (c : Char) : Bool := Text.isDigitOf 10 c

/-- The largest significand. -/
def significandMax : Nat := Word.count64 - 1

/-- The largest exponent that is read; beyond it only zero or a fault is left. -/
def exponentMax : Nat := 2147483647

/-- A significand, how many digits it took and the text behind them. -/
structure Gathered where
  value : Nat
  count : Nat
  rest : List Char
  deriving DecidableEq, Repr

/-- Takes digits onto a significand until they end or the next one does not fit. -/
def gather (value : Nat) : List Char → Gathered
  | [] => ⟨value, 0, []⟩
  | c :: rest =>
    let next := value * 10 + (Text.digit? c).getD 0
    if isDigit c && next ≤ significandMax then
      let more := gather next rest
      { more with count := more.count + 1 }
    else ⟨value, 0, c :: rest⟩

/-- Whether a text begins with a digit. -/
def startsWithDigit (s : List Char) : Bool := s.head?.any isDigit

/-- The text after its leading digits. -/
def dropDigits (s : List Char) : List Char := s.dropWhile isDigit

/-- The number with a significand and a power of ten. -/
def realNumber (negative : Bool) (significand : Nat) (exponent : Int) (rest : List Char) :
    Reading Number :=
  match Binary64.ofDecimal? significand exponent with
  | some magnitude => .ok (.real negative magnitude, rest)
  | none => .error .malformed

/-- The sign in front of an exponent and the text behind it. -/
def takeSign : List Char → Bool × List Char
  | '-' :: rest => (true, rest)
  | '+' :: rest => (false, rest)
  | s => (false, s)

/-- Reads an exponent, behind its mark, and completes the number. -/
def readExponent (negative : Bool) (significand : Nat) (exponent : Int) (s : List Char) :
    Reading Number :=
  let (below, s) := takeSign s
  if s.isEmpty then .error .truncated
  else if startsWithDigit s then
    let size := Text.numeralValue 10 (s.takeWhile isDigit)
    let rest := dropDigits s
    if size ≤ exponentMax then
      realNumber negative significand (if below then exponent - size else exponent + size) rest
    else if significand ≠ 0 && !below then .error .malformed
    else .ok (.real negative ⟨0⟩, rest)
  else .error .malformed

/-- Whether a character marks an exponent. -/
def isExponentMark (c : Char) : Bool := c == 'e' || c == 'E'

/-- Completes a real number behind its digits: an exponent may follow. -/
def finishReal (negative : Bool) (significand : Nat) (exponent : Int) (s : List Char) :
    Reading Number :=
  match s with
  | c :: rest =>
    if isExponentMark c then readExponent negative significand exponent rest
    else realNumber negative significand exponent s
  | [] => realNumber negative significand exponent s

/-- Reads the digits behind a point and completes the number. -/
def readFraction (negative : Bool) (significand : Nat) (exponent : Int) (s : List Char) :
    Reading Number :=
  let digits := gather significand s
  if startsWithDigit digits.rest then
    finishReal negative digits.value (exponent - digits.count) (dropDigits digits.rest)
  else if digits.count = 0 then
    .error (if s.isEmpty then .truncated else .malformed)
  else finishReal negative digits.value (exponent - digits.count) digits.rest

/-- Completes a real number behind its integer part: a point or an exponent may follow. -/
def readReal (negative : Bool) (significand : Nat) (exponent : Int) (s : List Char) :
    Reading Number :=
  match s with
  | '.' :: rest => readFraction negative significand exponent rest
  | _ => finishReal negative significand exponent s

/-- The number that an integral numeral stands for. -/
def integralNumber (negative : Bool) (n : Nat) : Number :=
  if negative then
    if n = 0 ∨ Word.half64 < n then .real true (.ofNat n) else .integer (-n)
  else .integer n

/-- Whether what follows an integral part makes the number real. -/
def continuesReal (s : List Char) : Bool := s.head?.any fun c => c == '.' || isExponentMark c

/-- Completes a number behind the integer part that fits in a word. -/
def readRest (negative : Bool) (n : Nat) (s : List Char) : Reading Number :=
  if continuesReal s then readReal negative n 0 s else .ok (integralNumber negative n, s)

/-- Reads a number without its sign. -/
def readMagnitude (negative : Bool) (s : List Char) : Reading Number :=
  match s with
  | [] => .error .truncated
  | c :: rest =>
    if c = '0' then
      if startsWithDigit rest then .error .malformed else readRest negative 0 rest
    else if isDigit c then
      let digits := gather 0 s
      if startsWithDigit digits.rest then
        let rest := dropDigits digits.rest
        readReal negative digits.value (digits.rest.length - rest.length) rest
      else readRest negative digits.value digits.rest
    else .error .malformed

/-- Reads a number. -/
def readNumber (s : List Char) : Reading Number :=
  match s with
  | '-' :: rest => readMagnitude true rest
  | _ => readMagnitude false s

/-- Whether a number begins with the character. -/
def startsNumber (c : Char) : Bool := c == '-' || isDigit c

/-! ### Passing over numbers -/

/-- Passes over digits, of which there is at least one. -/
def skipDigits (s : List Char) : Except Fault (List Char) :=
  if startsWithDigit s then .ok (dropDigits s) else .error .malformed

/-- Passes over an exponent, if there is one. -/
def skipExponent (s : List Char) : Except Fault (List Char) :=
  match s with
  | c :: rest => if isExponentMark c then skipDigits (takeSign rest).2 else .ok s
  | [] => .ok s

/-- Passes over a point with digits and over an exponent, if they are there. -/
def skipFraction (s : List Char) : Except Fault (List Char) :=
  match s with
  | '.' :: rest =>
    match skipDigits rest with
    | .ok rest => skipExponent rest
    | .error fault => .error fault
  | _ => skipExponent s

/-- Passes over a number without its sign. Where it ends too early it is malformed. -/
def skipMagnitude (s : List Char) : Except Fault (List Char) :=
  match s with
  | '0' :: rest => if startsWithDigit rest then .error .malformed else skipFraction rest
  | _ =>
    match skipDigits s with
    | .ok rest => skipFraction rest
    | .error fault => .error fault

/-- Passes over a number. -/
def skipNumber (s : List Char) : Except Fault (List Char) :=
  match s with
  | '-' :: rest => skipMagnitude rest
  | _ => skipMagnitude s

/-! ### Lengths

Each part of a number leaves no more text than it was given.
-/

/-- Dropping digits makes no text longer. -/
theorem length_dropDigits_le (s : List Char) : (dropDigits s).length ≤ s.length :=
  (List.dropWhile_sublist _).length_le

/-- Dropping digits makes a text shorter that begins with one. -/
theorem length_dropDigits_lt {s : List Char} (h : startsWithDigit s = true) :
    (dropDigits s).length < s.length := by
  cases s with
  | nil => cases h
  | cons c rest =>
    have digit : isDigit c = true := by simpa [startsWithDigit] using h
    simp only [dropDigits, List.dropWhile_cons, digit, if_true]
    exact Nat.lt_succ_of_le (length_dropDigits_le rest)

/-- Gathering digits makes no text longer. -/
theorem length_gather_le (value : Nat) (s : List Char) :
    (gather value s).rest.length ≤ s.length := by
  fun_induction gather value s with
  | case1 => exact Nat.le_refl _
  | case2 _ _ _ _ _ _ ih => exact Nat.le_succ_of_le ih
  | case3 => exact Nat.le_refl _

/-- Taking a sign makes no text longer. -/
theorem length_takeSign_le (s : List Char) : (takeSign s).2.length ≤ s.length := by
  unfold takeSign
  split
  · exact Nat.le_succ _
  · exact Nat.le_succ _
  · exact Nat.le_refl _

/-- A real number leaves the text behind its digits. -/
theorem rest_of_realNumber {negative : Bool} {significand : Nat} {exponent : Int}
    {s rest : List Char} {x : Number}
    (h : realNumber negative significand exponent s = .ok (x, rest)) : rest = s := by
  unfold realNumber at h
  split at h
  · injection h with h
    injection h with _ h
    exact h.symm
  · cases h

theorem length_readExponent_le {negative : Bool} {significand : Nat} {exponent : Int}
    {s rest : List Char} {x : Number}
    (h : readExponent negative significand exponent s = .ok (x, rest)) :
    rest.length ≤ s.length := by
  have bound := Nat.le_trans (length_dropDigits_le (takeSign s).2) (length_takeSign_le s)
  simp only [readExponent] at h
  split at h
  · cases h
  · split at h
    · split at h
      · exact rest_of_realNumber h ▸ bound
      · split at h
        · cases h
        · injection h with h
          injection h with _ h
          exact h ▸ bound
    · cases h

theorem length_finishReal_le {negative : Bool} {significand : Nat} {exponent : Int}
    {s rest : List Char} {x : Number}
    (h : finishReal negative significand exponent s = .ok (x, rest)) :
    rest.length ≤ s.length := by
  unfold finishReal at h
  split at h
  · split at h
    · exact Nat.le_succ_of_le (length_readExponent_le h)
    · exact Nat.le_of_eq (congrArg List.length (rest_of_realNumber h))
  · exact Nat.le_of_eq (congrArg List.length (rest_of_realNumber h))

theorem length_readFraction_le {negative : Bool} {significand : Nat} {exponent : Int}
    {s rest : List Char} {x : Number}
    (h : readFraction negative significand exponent s = .ok (x, rest)) :
    rest.length ≤ s.length := by
  have bound := length_gather_le significand s
  simp only [readFraction] at h
  split at h
  · exact Nat.le_trans (length_finishReal_le h) (Nat.le_trans (length_dropDigits_le _) bound)
  · split at h
    · cases h
    · exact Nat.le_trans (length_finishReal_le h) bound

theorem length_readReal_le {negative : Bool} {significand : Nat} {exponent : Int}
    {s rest : List Char} {x : Number}
    (h : readReal negative significand exponent s = .ok (x, rest)) :
    rest.length ≤ s.length := by
  unfold readReal at h
  split at h
  · exact Nat.le_succ_of_le (length_readFraction_le h)
  · exact length_finishReal_le h

theorem length_readRest_le {negative : Bool} {n : Nat} {s rest : List Char} {x : Number}
    (h : readRest negative n s = .ok (x, rest)) : rest.length ≤ s.length := by
  unfold readRest at h
  split at h
  · exact length_readReal_le h
  · injection h with h
    injection h with _ h
    exact h ▸ Nat.le_refl _

theorem length_readMagnitude_le {negative : Bool} {s rest : List Char} {x : Number}
    (h : readMagnitude negative s = .ok (x, rest)) : rest.length ≤ s.length := by
  unfold readMagnitude at h
  split at h
  · cases h
  · next c tail =>
    split at h
    · split at h
      · cases h
      · exact Nat.le_succ_of_le (length_readRest_le h)
    · split at h
      · have bound := length_gather_le 0 (c :: tail)
        simp only at h
        split at h
        · exact Nat.le_trans (length_readReal_le h)
            (Nat.le_trans (length_dropDigits_le _) bound)
        · exact Nat.le_trans (length_readRest_le h) bound
      · cases h

/-- What follows a number is no longer than the text. -/
theorem length_readNumber_le {s rest : List Char} {x : Number}
    (h : readNumber s = .ok (x, rest)) : rest.length ≤ s.length := by
  unfold readNumber at h
  split at h
  · exact Nat.le_succ_of_le (length_readMagnitude_le h)
  · exact length_readMagnitude_le h

theorem length_skipDigits_lt {s rest : List Char} (h : skipDigits s = .ok rest) :
    rest.length < s.length := by
  unfold skipDigits at h
  split at h
  · next digit =>
    cases h
    exact length_dropDigits_lt digit
  · cases h

theorem length_skipExponent_le {s rest : List Char} (h : skipExponent s = .ok rest) :
    rest.length ≤ s.length := by
  unfold skipExponent at h
  split at h
  · split at h
    · exact Nat.le_succ_of_le
        (Nat.le_trans (Nat.le_of_lt (length_skipDigits_lt h)) (length_takeSign_le _))
    · cases h
      exact Nat.le_refl _
  · cases h
    exact Nat.le_refl _

theorem length_skipFraction_le {s rest : List Char} (h : skipFraction s = .ok rest) :
    rest.length ≤ s.length := by
  unfold skipFraction at h
  split at h
  · split at h
    · next digits =>
      exact Nat.le_succ_of_le
        (Nat.le_trans (length_skipExponent_le h) (Nat.le_of_lt (length_skipDigits_lt digits)))
    · cases h
  · exact length_skipExponent_le h

theorem length_skipMagnitude_lt {s rest : List Char} (h : skipMagnitude s = .ok rest) :
    rest.length < s.length := by
  unfold skipMagnitude at h
  split at h
  · split at h
    · cases h
    · exact Nat.lt_succ_of_le (length_skipFraction_le h)
  · split at h
    · next digits =>
      exact Nat.lt_of_le_of_lt (length_skipFraction_le h) (length_skipDigits_lt digits)
    · cases h

/-- What follows a number that was passed over is shorter than the text. -/
theorem length_skipNumber_lt {s rest : List Char} (h : skipNumber s = .ok rest) :
    rest.length < s.length := by
  unfold skipNumber at h
  split at h
  · exact Nat.lt_succ_of_lt (length_skipMagnitude_lt h)
  · exact length_skipMagnitude_lt h

end BinaryLayout.Json
