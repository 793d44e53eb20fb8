import BinaryLayout.Text.Basic

/-!
# Binary floating-point magnitudes

The nonnegative numbers of the 64-bit binary format, each held as the natural number of smallest
steps `2 ^ -1074` that it consists of, so that every rule about them is one about naturals. A real
number is rounded to the nearest of them, a tie going to the even significand.

The text of a number has the fewest decimal digits that read back as the number and, among those,
the digits nearest to it; a tie goes to the even digit. Numbers from `10 ^ -5` up to, but not
including, `10 ^ 16` are written positionally, with at least one digit after the point; all others
with a signed exponent.
-/

namespace BinaryLayout

/-- A nonnegative number of the binary format as a multiple of the smallest positive one. -/
structure Binary64 where
  steps : Nat
  deriving DecidableEq, Repr

namespace Binary64

/-- The exponent of the smallest step, as a power of two in a denominator. -/
def stepBits : Nat := 1074

/-- The bits of a significand. -/
def significandBits : Nat := 53

/-- The power of two at which finite numbers end. -/
def overflowBits : Nat := 1024

/-- A power of two. -/
def twoPower (k : Nat) : Nat := Nat.pow 2 k

/-- A power of ten. -/
def tenPower (k : Nat) : Nat := Nat.pow 10 k

/-- The quotient rounded to the nearest natural, a tie going to the even one. -/
def roundedQuotient (n d : Nat) : Nat :=
  let down := n / d
  let twice := 2 * (n % d)
  if d < twice ∨ (twice = d ∧ down % 2 = 1) then down + 1 else down

/-- The nearest number to the quotient `n / d`, with no bound on its size. -/
def nearest (n d : Nat) : Binary64 :=
  let scaled := n * twoPower stepBits
  let spacing := twoPower ((scaled / d).log2 + 1 - significandBits)
  ⟨roundedQuotient scaled (d * spacing) * spacing⟩

/-- Whether the number is below the point at which the format ends. -/
def isFinite (x : Binary64) : Bool := x.steps < twoPower (overflowBits + stepBits)

/-- Whether the number is zero. -/
def isZero (x : Binary64) : Bool := x.steps == 0

/-- The nearest number to a natural. -/
def ofNat (n : Nat) : Binary64 := nearest n 1

/-- The rounded product. -/
def mul (x y : Binary64) : Binary64 := nearest (x.steps * y.steps) (twoPower (2 * stepBits))

/-- The rounded quotient by a number that is not zero. -/
def div (x y : Binary64) : Binary64 := nearest x.steps y.steps

/-- The largest power of ten that the format holds. -/
def maxPowerOfTen : Nat := 308

/-- The nearest number to a power of ten. -/
def powerOfTen (k : Nat) : Binary64 := ofNat (tenPower k)

/-- The number times a power of ten; `none` if that is out of the format's range. -/
def scaleUp? (x : Binary64) (k : Nat) : Option Binary64 :=
  if k ≤ maxPowerOfTen then
    let product := x.mul (powerOfTen k)
    if product.isFinite then some product else none
  else if x.isZero then some x else none

/-- The number divided by a power of ten, in steps of the largest one that the format holds. -/
def scaleDown (x : Binary64) (k : Nat) : Binary64 :=
  if k ≤ maxPowerOfTen then x.div (powerOfTen k)
  else if x.isZero then x
  else scaleDown (x.div (powerOfTen maxPowerOfTen)) (k - maxPowerOfTen)
termination_by k
decreasing_by simp only [maxPowerOfTen] at *; omega

/-- The number that a significand and a decimal exponent stand for; `none` if it is out of range. -/
def ofDecimal? (significand : Nat) (exponent : Int) : Option Binary64 :=
  match exponent with
  | .ofNat k => (ofNat significand).scaleUp? k
  | .negSucc k => some ((ofNat significand).scaleDown (k + 1))

/-! ### The shortest text -/

/-- A decimal number `digits * 10 ^ exponent`. -/
structure Decimal where
  digits : Nat
  exponent : Int
  deriving DecidableEq, Repr

/-- The number as a quotient of naturals, multiplied by a power of ten. -/
def scaledQuotient (n d : Nat) (k : Int) : Nat × Nat :=
  match k with
  | .ofNat k => (n * tenPower k, d)
  | .negSucc k => (n, d * tenPower (k + 1))

/-- Whether a decimal number is nearer to the binary number than to any other. -/
def Decimal.readsAs (x : Decimal) (y : Binary64) : Bool :=
  let q := scaledQuotient x.digits 1 x.exponent
  nearest q.1 q.2 == y

/-- The exponent of ten at which the number's first decimal digit stands. -/
def leadingExponent (x : Binary64) : Int :=
  let whole := x.steps / twoPower stepBits
  if 0 < whole then (Nat.toDigits 10 whole).length - 1
  else
    let shift := (List.range (stepBits + 1)).find? fun k => twoPower stepBits ≤ x.steps * tenPower k
    Int.neg (shift.getD 0)

/-- The decimals of `count` digits that are next to the number, the nearer one first. -/
def neighbours (x : Binary64) (count : Nat) : List Decimal :=
  let exponent := x.leadingExponent + 1 - count
  let (n, d) := scaledQuotient x.steps (twoPower stepBits) (-exponent)
  let down := n / d
  let nearer := roundedQuotient n d
  let other := if nearer = down then down + 1 else down
  [⟨nearer, exponent⟩, ⟨other, exponent⟩]

/-- Seventeen digits tell any two numbers of the format apart. -/
def maxDigits : Nat := 17

/-- The decimal with the fewest digits that reads as the number, the nearest such. -/
def shortest (x : Binary64) : Decimal :=
  let counts := (List.range maxDigits).map (· + 1)
  ((counts.flatMap x.neighbours).find? fun y => 0 < y.digits && y.readsAs x).getD ⟨0, 0⟩

/-- The digits of a decimal number without the zeros at their end, and the place of the point
counted from their beginning. -/
def Decimal.significant (x : Decimal) : List Char × Int :=
  let all := Text.decimal x.digits
  let kept := (all.reverse.dropWhile (· == '0')).reverse
  (kept, x.exponent + all.length)

/-- Up to this place of the point a number is written without an exponent. -/
def lastPositionalPoint : Int := 16

/-- From the place after this one a number is written without an exponent. -/
def beforePositionalPoint : Int := -5

/-- The text of an exponent, which always has a sign. -/
def exponentText (exponent : Int) : List Char :=
  'e' :: (if exponent < 0 then '-' else '+') :: Text.decimal exponent.natAbs

/-- The text of a number from its significant digits and the place of the point. -/
def layOut (digits : List Char) (point : Int) : List Char :=
  if digits.length ≤ point ∧ point ≤ lastPositionalPoint then
    digits ++ List.replicate (point.toNat - digits.length) '0' ++ ['.', '0']
  else if 0 < point ∧ point ≤ lastPositionalPoint then
    digits.take point.toNat ++ '.' :: digits.drop point.toNat
  else if beforePositionalPoint < point ∧ point ≤ 0 then
    ['0', '.'] ++ List.replicate (-point).toNat '0' ++ digits
  else
    let tail := digits.drop 1
    digits.take 1 ++ (if tail.isEmpty then [] else '.' :: tail) ++
      exponentText (point - 1)

/-- The shortest text of a number. -/
def text (x : Binary64) : List Char :=
  if x.isZero then ['0', '.', '0']
  else
    let (digits, point) := x.shortest.significant
    layOut digits point

end Binary64

end BinaryLayout
