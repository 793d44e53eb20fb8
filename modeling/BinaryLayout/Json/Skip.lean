import BinaryLayout.Json.Number
import BinaryLayout.Json.Text

/-!
# Passing over a JSON value

A value of any kind is passed over without a result. The brackets that are still open are kept in
a list, the innermost first, so that the depth to which values are nested has no bound.
-/

namespace BinaryLayout.Json

/-- A bracket that a value opens. -/
inductive Bracket
  | array
  | object
  deriving DecidableEq, Repr

namespace Bracket

/-- The character that closes the bracket. -/
def closing : Bracket → Char
  | array => ']'
  | object => '}'

/-- The bracket that a character opens. -/
def opened? (c : Char) : Option Bracket :=
  if c = '[' then some array else if c = '{' then some object else none

end Bracket

/-- Passes over a string, a number or one of the three words. -/
def skipScalar : List Char → Except Fault (List Char)
  | [] => .error .truncated
  | c :: rest =>
    if c = '"' then skipText rest
    else if c = 'n' then takeWord ['u', 'l', 'l'] rest
    else if c = 't' then takeWord ['r', 'u', 'e'] rest
    else if c = 'f' then takeWord ['a', 'l', 's', 'e'] rest
    else if startsNumber c then skipNumber (c :: rest)
    else .error .malformed

/-- Passes over a member's name and the colon behind it, if the bracket is an object's. -/
def skipName (bracket : Bracket) (s : List Char) : Except Fault (List Char) :=
  match bracket with
  | .array => .ok s
  | .object =>
    match takeMark '"' s with
    | .error fault => .error fault
    | .ok rest =>
      match skipText rest with
      | .error fault => .error fault
      | .ok rest => takeMark ':' rest

/-- What a text must go on with. -/
inductive Awaiting
  /-- A value. -/
  | value
  /-- A comma or the closing bracket, unless no bracket is open. -/
  | next
  deriving DecidableEq, Repr

theorem length_skipScalar_lt {s rest : List Char} (h : skipScalar s = .ok rest) :
    rest.length < s.length := by
  unfold skipScalar at h
  split at h
  · cases h
  · repeat' split at h
    · exact Nat.lt_succ_of_lt (length_skipText h)
    · exact Nat.lt_succ_of_le (length_takeWord h)
    · exact Nat.lt_succ_of_le (length_takeWord h)
    · exact Nat.lt_succ_of_le (length_takeWord h)
    · exact length_skipNumber_lt h
    · cases h

theorem length_skipName_le {bracket : Bracket} {s rest : List Char}
    (h : skipName bracket s = .ok rest) : rest.length ≤ s.length := by
  unfold skipName at h
  split at h
  · cases h
    exact Nat.le_refl _
  · split at h
    · cases h
    · next opened =>
      split at h
      · cases h
      · next text =>
        exact Nat.le_of_lt (Nat.lt_trans (length_takeMark h)
          (Nat.lt_trans (length_skipText text) (length_takeMark opened)))

/-- Passes over what the open brackets still await. -/
def skipFrom (awaiting : Awaiting) (stack : List Bracket) (s : List Char) :
    Except Fault (List Char) :=
  match awaiting, stack with
  | .next, [] => .ok s
  | .next, bracket :: outer =>
    match _found : skipSpace s with
    | [] => .error .truncated
    | c :: rest =>
      if c = ',' then
        match _name : skipName bracket rest with
        | .error fault => .error fault
        | .ok rest => skipFrom .value (bracket :: outer) rest
      else if c = bracket.closing then skipFrom .next outer rest
      else .error .malformed
  | .value, stack =>
    match _found : skipSpace s with
    | [] => .error .truncated
    | c :: rest =>
      match Bracket.opened? c with
      | none =>
        match _scalar : skipScalar (c :: rest) with
        | .error fault => .error fault
        | .ok rest => skipFrom .next stack rest
      | some bracket =>
        match _inside : skipSpace rest with
        | [] => .error .truncated
        | d :: inner =>
          if d = bracket.closing then skipFrom .next stack inner
          else
            match _name : skipName bracket rest with
            | .error fault => .error fault
            | .ok rest => skipFrom .value (bracket :: stack) rest
termination_by s.length
decreasing_by
  · exact Nat.lt_of_le_of_lt (length_skipName_le _name) (length_lt_of_skipSpace _found)
  · exact length_lt_of_skipSpace _found
  · exact Nat.lt_of_lt_of_le (length_skipScalar_lt _scalar) (_found ▸ length_skipSpace_le s)
  · exact Nat.lt_trans (length_lt_of_skipSpace _inside) (length_lt_of_skipSpace _found)
  · exact Nat.lt_of_le_of_lt (length_skipName_le _name) (length_lt_of_skipSpace _found)

/-- Passes over one value and the space before it. -/
def skipValue (s : List Char) : Except Fault (List Char) := skipFrom .value [] s

/-- What follows the awaited text is no longer than the text. -/
theorem length_skipFrom_le {awaiting : Awaiting} {stack : List Bracket} {s rest : List Char}
    (h : skipFrom awaiting stack s = .ok rest) : rest.length ≤ s.length := by
  fun_induction skipFrom awaiting stack s with
  | case1 => cases h; exact Nat.le_refl _
  | case2 => cases h
  | case3 => cases h
  | case4 _ _ _ _ _ name found ih =>
    exact Nat.le_trans (ih h) (Nat.le_of_lt
      (Nat.lt_of_le_of_lt (length_skipName_le name) (length_lt_of_skipSpace found)))
  | case5 _ _ _ _ found _ ih =>
    exact Nat.le_trans (ih h) (Nat.le_of_lt (length_lt_of_skipSpace found))
  | case6 => cases h
  | case7 => cases h
  | case8 => cases h
  | case9 _ _ _ _ found _ after scalar ih =>
    exact Nat.le_trans (ih h) (Nat.le_of_lt
      (Nat.lt_of_lt_of_le (length_skipScalar_lt scalar) (found ▸ length_skipSpace_le _)))
  | case10 => cases h
  | case11 _ _ _ _ found _ _ _ inside ih =>
    exact Nat.le_trans (ih h) (Nat.le_of_lt
      (Nat.lt_trans (length_lt_of_skipSpace inside) (length_lt_of_skipSpace found)))
  | case12 => cases h
  | case13 _ _ _ _ found _ _ _ _ _ _ after name ih =>
    exact Nat.le_trans (ih h) (Nat.le_of_lt
      (Nat.lt_of_le_of_lt (length_skipName_le name) (length_lt_of_skipSpace found)))

/-- What follows a value is no longer than the text. -/
theorem length_skipValue_le {s rest : List Char} (h : skipValue s = .ok rest) :
    rest.length ≤ s.length :=
  length_skipFrom_le h

end BinaryLayout.Json
