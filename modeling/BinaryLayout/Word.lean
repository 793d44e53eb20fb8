import BinaryLayout.Text.Basic

/-!
# Machine words

The numbers of values that machine words have. They are written out, so that arithmetic with them
is arithmetic with numerals. A sum, a product and a numeral are words only within these numbers.
-/

namespace BinaryLayout.Word

/-- The number of 32-bit words. -/
def count32 : Nat := 4294967296

/-- The number of 64-bit words. -/
def count64 : Nat := 18446744073709551616

/-- Half the number of 64-bit words: in two's complement as many stand for negative integers as for
the others. -/
def half64 : Nat := 9223372036854775808

/-- Whether an integer is a signed 64-bit word. -/
def isSigned64 (i : Int) : Bool := -half64 ≤ i && i < half64

/-- The sum of two 64-bit words, if it is one as well. -/
def add? (a b : Nat) : Option Nat := if a + b < count64 then some (a + b) else none

/-- The product of two 64-bit words, if it is one as well. -/
def mul? (a b : Nat) : Option Nat := if a * b < count64 then some (a * b) else none

/-- The number that a numeral stands for, if it is one of so many words. -/
def ofNumeral? (count base : Nat) (digits : List Char) : Option Nat :=
  (Text.numeral? base digits).filter (· < count)

/-- The value of a 64-bit word is a signed word. -/
theorem isSigned64_toInt (v : Int64) : isSigned64 v.toInt = true := by
  have low : -(half64 : Int) ≤ v.toInt := v.le_toInt
  have high : v.toInt < half64 := v.toInt_lt
  rw [isSigned64]
  rw [decide_eq_true low, decide_eq_true high]
  rfl

end BinaryLayout.Word
