import BinaryLayout.HexDump
import BinaryLayout.Proofs.Text.Numerals
import BinaryLayout.Text.Basic
import Mathlib.Data.List.Forall2

/-!
# Reading hex dumps

A dump loses nothing: its lines can be told from the text, and in each line the words before the
first bar are the address and the bytes. Nothing before the gutter is a bar, and what the gutter
shows does not matter for reading. The place of a missing byte is as wide as that of a byte, so the
gutters of all lines stand below each other as long as their addresses have eight digits.

## Main definitions

* `readLine?`, `read?`: the bytes that a line and a dump show in hexadecimal.
* `ShowsRow`, `IsDumpOf`: what a line and a dump should look like.

## Main results

* `spaced_front`: what stands before the gutter has the address and the bytes as its words.
* `isDumpOf_dump`: a dump looks as it should.
* `dump_lossless`: and so different bytes have different dumps.
-/

namespace BinaryLayout.HexDump

open Text (hexadecimal IsHexadecimal Spaced IsGap)

variable {bytes row : List UInt8} {address i : Nat} {c : Char}

/-! ### Reading back -/

/-- The byte that two hexadecimal digits stand for. -/
def byte? (w : List Char) : Option UInt8 :=
  if w.length = 2 then (Text.numeral? 16 w).map UInt8.ofNat else none

/-- The bytes that a line shows in hexadecimal: the words before the first bar but for the first of
them, which is the address. -/
def readLine? (line : List Char) : Option (List UInt8) :=
  (Text.words (line.takeWhile (· ≠ '|'))).tail.mapM byte?

/-- The bytes that the lines of a dump show in hexadecimal. -/
def read? (text : List Char) : Option (List UInt8) :=
  ((Text.lines text).mapM readLine?).map List.flatten

/-! ### What a dump should look like -/

/-- The number of lines for so many bytes. -/
def lineCount (size : Nat) : Nat := (size + 15) / 16

/-- The column of the bar that opens the gutter, as long as the address has eight digits. -/
def gutterColumn : Nat := 60

/-- The gutter shows printable ASCII characters as themselves and all other bytes as a dot. -/
def ShownAs (b : UInt8) (c : Char) : Prop :=
  if 0x20 ≤ b.toNat ∧ b.toNat ≤ 0x7e then c.toNat = b.toNat else c = '.'

/-- A line shows some bytes and the address of the first: it begins with the address, the bytes can
be read back, and the gutter has a character for each. As long as the address has eight digits, the
gutter stands in its column. -/
structure ShowsRow (address : Nat) (row : List UInt8) (line : List Char) : Prop where
  no_newline : '\n' ∉ line
  starts : ∃ digits rest, line = digits ++ ' ' :: rest ∧ IsHexadecimal 8 address digits
  readLine?_eq : readLine? line = some row
  gutter : ∃ front shown, line = front ++ '|' :: shown ++ ['|'] ∧ '|' ∉ front ∧
    List.Forall₂ ShownAs row shown ∧ (address < 2 ^ 32 → front.length = gutterColumn)

/-- A text is a dump of bytes: it consists of as many lines as there are rows of sixteen bytes, the
last of them perhaps shorter, each shows its row, and all bytes can be read back. -/
structure IsDumpOf (bytes : List UInt8) (text : List Char) : Prop where
  lines : ∃ ls : List (List Char), text = Text.unlines ls ∧ ls.length = lineCount bytes.length ∧
    ∀ i line, ls[i]? = some line → ShowsRow (16 * i) ((bytes.drop (16 * i)).take 16) line
  read?_eq : read? text = some bytes

/-! ### Rows -/

theorem flatten_rows (bytes : List UInt8) : (rows bytes).flatten = bytes := by
  induction bytes using rows.induct with
  | case1 => simp [rows]
  | case2 b rest ih =>
    rw [rows, List.flatten_cons, ih, List.cons_append, List.take_append_drop]

theorem length_rows (bytes : List UInt8) : (rows bytes).length = lineCount bytes.length := by
  induction bytes using rows.induct with
  | case1 => simp [rows, lineCount]
  | case2 b rest ih =>
    rw [rows, List.length_cons, ih]
    simp only [lineCount, lineSize, List.length_drop, List.length_cons]
    omega

theorem getElem?_rows (hi : (rows bytes)[i]? = some row) :
    row = (bytes.drop (lineSize * i)).take lineSize := by
  induction bytes using rows.induct generalizing i with
  | case1 => simp [rows] at hi
  | case2 b rest ih =>
    rw [rows] at hi
    cases i with
    | zero =>
      rw [List.getElem?_cons_zero, Option.some.injEq] at hi
      rw [← hi]
      rfl
    | succ i =>
      rw [List.getElem?_cons_succ] at hi
      have hstart : lineSize * (i + 1) = lineSize - 1 + lineSize * i + 1 := by
        rw [lineSize]
        omega
      rw [ih hi, List.drop_drop, hstart, List.drop_succ_cons]

/-! ### Places of bytes -/

/-- The place of a byte in a line, whether there is a byte or not. -/
def cell (row : List UInt8) (i : Nat) : List Char :=
  columnGap i ++ match row[i]? with
    | some b => hexadecimal 2 b.toNat ++ [' ']
    | none => [' ', ' ', ' ']

theorem flatMap_cell_eq_shownBytes (row : List UInt8) :
    (List.range row.length).flatMap (cell row) = shownBytes row := by
  rw [shownBytes, List.flatMap_def, List.flatMap_def]
  refine congrArg List.flatten (List.ext_getElem (by simp) fun i hi _ => ?_)
  have hrow : i < row.length := by simpa using hi
  simp [cell, hrow, List.append_assoc]

theorem flatMap_cell_eq_missingBytes (row : List UInt8) :
    (List.range' row.length (lineSize - row.length)).flatMap (cell row) = missingBytes row := by
  rw [missingBytes, List.flatMap_def, List.flatMap_def]
  refine congrArg List.flatten (List.map_congr_left fun i hi => ?_)
  have hnone : row[i]? = none := List.getElem?_eq_none (List.left_le_of_mem_range' hi)
  rw [cell, hnone]

/-- The bytes of a line and the blanks behind them fill the sixteen places. -/
theorem shownBytes_append_missingBytes (h : row.length ≤ lineSize) :
    shownBytes row ++ missingBytes row = (List.range lineSize).flatMap (cell row) := by
  have hrange : List.range lineSize =
      List.range row.length ++ List.range' row.length (lineSize - row.length) := by
    have happend := List.range'_append_1 (s := 0) (m := row.length) (n := lineSize - row.length)
    rw [Nat.zero_add, Nat.add_sub_cancel' h] at happend
    rw [List.range_eq_range', List.range_eq_range', happend]
  rw [hrange, List.flatMap_append, flatMap_cell_eq_shownBytes, flatMap_cell_eq_missingBytes]

theorem length_le_of_mem_rows (h : row ∈ rows bytes) : row.length ≤ lineSize := by
  obtain ⟨i, hi⟩ := List.getElem?_of_mem h
  rw [getElem?_rows hi]
  exact List.length_take_le _ _

/-! ### Lines -/

/-- What stands in a line before the gutter. -/
def front (address : Nat) (row : List UInt8) : List Char :=
  hexadecimal addressWidth address ++
    (' ' :: ' ' :: (List.range lineSize).flatMap (cell row) ++ [' '])

/-- A line without its newline. -/
def unended (address : Nat) (row : List UInt8) : List Char :=
  front address row ++ '|' :: row.map gutterChar ++ ['|']

theorem line_eq (address : Nat) (h : row.length ≤ lineSize) :
    line address row = unended address row ++ ['\n'] := by
  simp only [line, unended, front, ← shownBytes_append_missingBytes h, List.append_assoc,
    List.cons_append, List.nil_append]

theorem dump_eq_unlines (bytes : List UInt8) :
    dump bytes =
      Text.unlines ((rows bytes).zipIdx.map fun e => unended (lineSize * e.2) e.1) := by
  rw [dump, Text.unlines, List.flatMap_map, List.flatMap_def, List.flatMap_def]
  refine congrArg List.flatten (List.map_congr_left fun e he => ?_)
  exact line_eq _ (length_le_of_mem_rows (List.fst_mem_of_mem_zipIdx he))

theorem length_digits (b : UInt8) : (hexadecimal 2 b.toNat).length = 2 :=
  Text.length_hexadecimal (by decide) b.toNat_lt

theorem isWord_digits (b : UInt8) : Text.IsWord (hexadecimal 2 b.toNat) :=
  (Text.numeral_hexadecimal 2 b.toNat).isWord

theorem byte?_digits (b : UInt8) : byte? (hexadecimal 2 b.toNat) = some b := by
  have hvalue := Text.numeral?_eq_some_iff.mpr (Text.numeral_hexadecimal 2 b.toNat)
  rw [byte?, if_pos (length_digits b), hvalue, Option.map_some, UInt8.ofNat_toNat]

theorem isGap_columnGap (i : Nat) : IsGap (columnGap i) := by
  intro c hc
  rw [columnGap] at hc
  split_ifs at hc
  · rw [List.mem_singleton.mp hc]
    decide
  · exact absurd hc List.not_mem_nil

/-- The place of a byte is three characters wide, whether there is a byte or not. -/
theorem length_cell (row : List UInt8) (i : Nat) :
    (cell row i).length = if i = columnSize then 4 else 3 := by
  rw [cell, columnGap, List.length_append]
  cases row[i]? with
  | none => split_ifs <;> rfl
  | some b =>
    simp only [List.length_append, length_digits]
    split_ifs <;> rfl

theorem length_front (h : address < 2 ^ 32) (row : List UInt8) :
    (front address row).length = gutterColumn := by
  have haddress : (hexadecimal addressWidth address).length = 8 :=
    Text.length_hexadecimal (by decide) h
  have hcells : ((List.range lineSize).flatMap (cell row)).length = 49 := by
    rw [List.length_flatMap]
    simp only [length_cell]
    decide
  simp only [front, List.length_append, List.length_cons, List.length_nil, haddress, hcells]
  rfl

/-- Before the gutter there are but hexadecimal digits and blanks. -/
theorem mem_front (h : c ∈ front address row) : c = ' ' ∨ c ∈ Text.hexDigits := by
  rw [front, List.mem_append] at h
  rcases h with h | h
  · exact Or.inr (Text.mem_hexDigits_of_mem_hexadecimal h)
  · simp only [List.mem_append, List.mem_cons, List.mem_flatMap, cell, columnGap,
      List.not_mem_nil, or_false] at h
    rcases h with (h | h | ⟨i, -, h | h⟩) | h
    · exact Or.inl h
    · exact Or.inl h
    · split_ifs at h
      · exact Or.inl (List.mem_singleton.mp h)
      · exact absurd h List.not_mem_nil
    · cases hi : row[i]? with
      | none =>
        simp only [hi, List.mem_cons, List.not_mem_nil, or_false, or_self] at h
        exact Or.inl h
      | some b =>
        simp only [hi, List.mem_append, List.mem_singleton] at h
        exact h.symm.imp_right Text.mem_hexDigits_of_mem_hexadecimal
    · exact Or.inl h

theorem notMem_front (hblank : c ≠ ' ') (hdigit : c ∉ Text.hexDigits) :
    c ∉ front address row := fun h => (mem_front h).elim hblank hdigit

theorem shownAs_gutterChar (b : UInt8) : ShownAs b (gutterChar b) := by
  rw [ShownAs, gutterChar]
  split_ifs with h
  · exact Text.Latin.toNat_ofNat_byte b
  · rfl

theorem gutterChar_ne_newline (b : UInt8) : gutterChar b ≠ '\n' := by
  intro h
  have hshown := shownAs_gutterChar b
  rw [h, ShownAs] at hshown
  split_ifs at hshown with hprintable
  · have hvalue : '\n'.toNat = 10 := rfl
    omega
  · exact absurd hshown (by decide)

/-! ### Reading the columns -/

/-- The bytes of a row from a place on are the words of their places. -/
theorem spaced_cells (row : List UInt8) (k m : Nat) :
    Spaced (((row.drop k).take m).map fun b => hexadecimal 2 b.toNat)
      ((List.range' k m).flatMap (cell row) ++ [' ']) := by
  induction m generalizing k with
  | zero =>
    rw [List.take_zero, List.map_nil, List.range'_zero, List.flatMap_nil, List.nil_append]
    exact .nil (List.forall_mem_singleton.mpr rfl)
  | succ m ih =>
    have hrest := ih (k + 1)
    rw [List.range'_succ, List.flatMap_cons, cell, List.append_assoc, List.append_assoc]
    cases hk : row[k]? with
    | none =>
      -- Behind the last byte there is no other, so the rest of the line is blank too.
      have hlength : row.length ≤ k := List.getElem?_eq_none_iff.mp hk
      rw [List.drop_eq_nil_of_le hlength]
      rw [List.drop_eq_nil_of_le (Nat.le_succ_of_le hlength)] at hrest
      have hblanks : IsGap [' ', ' ', ' '] := List.all_eq_true.mp rfl
      rw [List.take_nil] at hrest ⊢
      exact (hrest.gap_append hblanks).gap_append (isGap_columnGap k)
    | some b =>
      obtain ⟨hlt, rfl⟩ := List.getElem?_eq_some_iff.mp hk
      rw [List.drop_eq_getElem_cons hlt, List.take_succ_cons, List.map_cons]
      simp only [List.append_assoc, List.singleton_append]
      exact (hrest.word_append (isWord_digits _) rfl).gap_append (isGap_columnGap k)

/-- **Columns.** What stands before the gutter has the address and the bytes as its words. -/
theorem spaced_front (address : Nat) (h : row.length ≤ lineSize) :
    Spaced (hexadecimal addressWidth address :: row.map fun b => hexadecimal 2 b.toNat)
      (front address row) := by
  have hcells := spaced_cells row 0 lineSize
  rw [List.drop_zero, List.take_of_length_le h, ← List.range_eq_range'] at hcells
  have hblank : IsGap [' '] := List.forall_mem_singleton.mpr rfl
  have haddress := (Text.numeral_hexadecimal addressWidth address).isWord
  exact (hcells.gap_append hblank).word_append haddress rfl

theorem mapM_eq_some {α β : Type} {f : α → Option β} {g : α → β} {l : List α}
    (h : ∀ x ∈ l, f x = some (g x)) : l.mapM f = some (l.map g) := by
  induction l with
  | nil => rfl
  | cons x l ih =>
    obtain ⟨hx, hl⟩ := List.forall_mem_cons.mp h
    rw [List.mapM_cons, hx, ih hl]
    rfl

theorem readLine?_unended (address : Nat) (h : row.length ≤ lineSize) :
    readLine? (unended address row) = some row := by
  have hbar : ∀ c ∈ front address row, decide (c ≠ '|') = true := by
    intro c hc
    rw [decide_eq_true_eq]
    rintro rfl
    exact notMem_front (by decide) (by decide) hc
  have hfront : (unended address row).takeWhile (· ≠ '|') = front address row := by
    rw [unended, List.append_assoc, List.takeWhile_append_of_pos hbar, List.cons_append,
      List.takeWhile_cons_of_neg (by decide), List.append_nil]
  have hbytes : row.mapM (byte? ∘ fun b => hexadecimal 2 b.toNat) = some (row.map id) :=
    mapM_eq_some fun b _ => by rw [Function.comp_apply, byte?_digits, id]
  rw [readLine?, hfront, (spaced_front address h).words_eq, List.tail_cons, List.mapM_map, hbytes,
    List.map_id]

/-- **One line** shows its bytes and the address of the first. -/
theorem showsRow_unended (address : Nat) (h : row.length ≤ lineSize) :
    ShowsRow address row (unended address row) where
  no_newline := by
    simp only [unended, List.mem_append, List.mem_cons, List.mem_map, List.not_mem_nil, or_false]
    rintro ((hfront | hbar | ⟨b, -, hb⟩) | hbar)
    · exact notMem_front (by decide) (by decide) hfront
    · exact absurd hbar (by decide)
    · exact gutterChar_ne_newline b hb
    · exact absurd hbar (by decide)
  starts := by
    simp only [unended, front, List.append_assoc, List.cons_append]
    exact ⟨_, _, rfl, Text.isHexadecimal_hexadecimal (by decide) address⟩
  readLine?_eq := readLine?_unended address h
  gutter := by
    refine ⟨front address row, row.map gutterChar, rfl, ?_, ?_, fun h => length_front h row⟩
    · exact notMem_front (by decide) (by decide)
    · rw [List.forall₂_map_right_iff, List.forall₂_same]
      exact fun b _ => shownAs_gutterChar b

/-! ### Whole dumps -/

theorem read?_dump (bytes : List UInt8) : read? (dump bytes) = some bytes := by
  have hrow : ∀ e ∈ (rows bytes).zipIdx, e.1.length ≤ lineSize := fun e he =>
    length_le_of_mem_rows (List.fst_mem_of_mem_zipIdx he)
  have hnewline : ∀ line ∈ (rows bytes).zipIdx.map fun e => unended (lineSize * e.2) e.1,
      '\n' ∉ line := by
    rw [List.forall_mem_map]
    exact fun e he => (showsRow_unended _ (hrow e he)).no_newline
  have hread : (rows bytes).zipIdx.mapM (readLine? ∘ fun e => unended (lineSize * e.2) e.1) =
      some ((rows bytes).zipIdx.map Prod.fst) :=
    mapM_eq_some fun e he => readLine?_unended (lineSize * e.2) (hrow e he)
  rw [read?, dump_eq_unlines, Text.lines_unlines hnewline, List.mapM_map, hread, Option.map_some,
    List.zipIdx_map_fst, flatten_rows]

/-- A dump looks as it should. -/
theorem isDumpOf_dump (bytes : List UInt8) : IsDumpOf bytes (dump bytes) where
  lines := by
    refine ⟨_, dump_eq_unlines bytes, ?_, fun i line hline => ?_⟩
    · rw [List.length_map, List.length_zipIdx, length_rows]
    · rw [List.getElem?_map, List.getElem?_zipIdx, Option.map_map, Option.map_eq_some_iff] at hline
      obtain ⟨row, hrow, rfl⟩ := hline
      have hshows := showsRow_unended (lineSize * i)
        (length_le_of_mem_rows (List.mem_of_getElem? hrow))
      rw [getElem?_rows hrow] at hshows ⊢
      rw [Nat.zero_add]
      exact hshows
  read?_eq := read?_dump bytes

/-- **Nothing is lost.** The dump of any bytes has a line for every sixteen of them, with the
address of the first in at least eight digits, all of them, and a gutter that shows printable
characters, and all bytes can be read back from it. So different bytes have different dumps. -/
theorem dump_lossless :
    (∀ bytes, IsDumpOf bytes (dump bytes)) ∧ Function.Injective dump := by
  refine ⟨isDumpOf_dump, fun bytes bytes' h => ?_⟩
  have hread := (isDumpOf_dump bytes).read?_eq
  rw [h, (isDumpOf_dump bytes').read?_eq] at hread
  exact (Option.some.inj hread).symm

/-- A bar among the bytes, which is not the one that opens the gutter. -/
example : dump [0x41, 0x7c, 0x0a] =
    "00000000  41 7c 0a                                          |A|.|\n".toList := by
  decide +kernel

end BinaryLayout.HexDump
