import BinaryLayout.Text.Basic

/-!
# Hex dumps

A dump has a line for every sixteen bytes: the address of the first of them, the bytes in two
columns of eight, and a gutter that shows the bytes as characters. A line with fewer bytes has
blanks in the place of those that are missing, so that the gutters stand below each other.
-/

namespace BinaryLayout.HexDump

/-- The bytes of a full line. -/
def lineSize : Nat := 16

/-- The bytes before the wider gap in the middle of a line. -/
def columnSize : Nat := 8

/-- The digits that an address has at least. -/
def addressWidth : Nat := 8

/-- The lines' bytes, in order. -/
def rows (bytes : List UInt8) : List (List UInt8) :=
  match bytes with
  | [] => []
  | b :: rest => (b :: rest.take (lineSize - 1)) :: rows (rest.drop (lineSize - 1))
termination_by bytes.length
decreasing_by exact Nat.lt_succ_of_le (by rw [List.length_drop]; exact Nat.sub_le _ _)

/-- Every row begins at an address of the bytes. -/
theorem lineSize_mul_lt {bytes : List UInt8} {i : Nat} (hi : i < (rows bytes).length) :
    lineSize * i < bytes.length := by
  induction bytes using rows.induct generalizing i with
  | case1 => exact absurd hi (by simp [rows])
  | case2 b rest ih =>
    rw [rows, List.length_cons] at hi
    cases i with
    | zero => exact Nat.succ_pos _
    | succ i =>
      have hrest := ih (Nat.lt_of_succ_lt_succ hi)
      simp only [lineSize, List.length_drop, List.length_cons] at hrest ⊢
      omega

/-- The character that stands for a byte in the gutter. -/
def gutterChar (b : UInt8) : Char :=
  if 0x20 ≤ b.toNat ∧ b.toNat ≤ 0x7e then Char.ofNat b.toNat else '.'

/-- The blank before the second column, which widens the gap. -/
def columnGap (i : Nat) : List Char := if i = columnSize then [' '] else []

/-- The bytes of a line, each with a blank behind it. -/
def shownBytes (row : List UInt8) : List Char :=
  row.zipIdx.flatMap fun (b, i) => columnGap i ++ Text.hexadecimal 2 b.toNat ++ [' ']

/-- Blanks in the place of the bytes that are missing in a line. -/
def missingBytes (row : List UInt8) : List Char :=
  (List.range' row.length (lineSize - row.length)).flatMap fun i => columnGap i ++ [' ', ' ', ' ']

/-- The line of some bytes, with the address of the first. -/
def line (address : Nat) (row : List UInt8) : List Char :=
  Text.hexadecimal addressWidth address ++ [' ', ' '] ++ shownBytes row ++ missingBytes row ++
    [' ', '|'] ++ row.map gutterChar ++ ['|', '\n']

/-- The dump of a sequence of bytes. -/
def dump (bytes : List UInt8) : List Char :=
  (rows bytes).zipIdx.flatMap fun entry => line (lineSize * entry.2) entry.1

end BinaryLayout.HexDump
