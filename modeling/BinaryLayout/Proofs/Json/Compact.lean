import BinaryLayout.Proofs.Json.Laws

/-!
# Compact texts

A compact writer puts no space between the parts of a text, and of the characters of a string it
escapes but the quote, the backslash and the control characters. Which of its escapes stands for a
character is left open. What it writes follows the grammar, so that a record is read back from it.

## Main definitions

* `Compact`: the compact texts of records and their parts.
* `Schema.Fits`: a record whose values can be written.
* `Schema.WritesCompactly`: the law of a compact writer of records.

## Main results

* `Compact.written`: compact texts follow the grammar.
* `Schema.Derives.read_write`: a record is read back from what is written of it.
* `Schema.writesCompactly_writeCompact`: the writer of records keeps the law.
-/

namespace BinaryLayout.Json

variable {ε R α : Type} {c : Char} {s t text : List Char} {part : Part}

/-! ### Strings -/

/-- The character is written as itself, or by one of its escapes if it is a quote, a backslash or a
control character. -/
def WritesChar (c : Char) (s : List Char) : Prop :=
  if c = '"' ∨ c = '\\' ∨ c.toNat < 0x20 then SpellsChar c s else s = [c]

/-- The text is written character by character. -/
def WritesText (text s : List Char) : Prop :=
  ∃ parts, List.Forall₂ WritesChar text parts ∧ s = parts.flatten

theorem WritesChar.spellsChar (h : WritesChar c s) : SpellsChar c s := by
  rw [WritesChar] at h
  split_ifs at h with hescaped
  · exact h
  · obtain ⟨hquote, hrest⟩ := not_or.mp hescaped
    obtain ⟨hbackslash, hcontrol⟩ := not_or.mp hrest
    exact h ▸ .plain hquote hbackslash (not_lt.mp hcontrol)

theorem WritesText.spells (h : WritesText text s) : Spells (some text) s := by
  obtain ⟨parts, hparts, rfl⟩ := h
  induction hparts with
  | nil => exact .nil
  | @cons c _ text _ hc _ ih => exact @Spells.char c (some text) _ _ hc.spellsChar ih

theorem writesChar_writtenChar (c : Char) : WritesChar c (writtenChar c) := by
  rw [WritesChar]
  split_ifs with hescaped
  · exact spellsChar_writtenChar c
  · have hcontrol : ¬ isControl c = true := by
      simpa [isControl] using (not_or.mp (not_or.mp hescaped).2).2
    unfold writtenChar
    split
    all_goals first | exact absurd (by decide) hescaped | exact if_neg hcontrol

theorem writesText_flatMap_writtenChar (text : List Char) :
    WritesText text (text.flatMap writtenChar) :=
  ⟨text.map writtenChar, List.forall₂_map_right_iff.mpr
    (List.forall₂_same.mpr fun c _ => writesChar_writtenChar c), List.flatMap_def⟩

/-! ### Objects -/

/-- The text is a compact way to write the part: an integer, a string, or an object of such
values. -/
inductive Compact : Part → List Char → Prop
  | integer {i : Int} {s : List Char} (h : WritesInteger i s) : Compact (.value (.integer i)) s
  | text {text s : List Char} (h : WritesText text s) :
      Compact (.value (.text (some text))) ('"' :: (s ++ ['"']))
  | emptyObject : Compact (.value (.object [])) ['\x7b', '\x7d']
  | object {ms : List (Content × Value)} {s : List Char} (h : Compact (.members ms) s) :
      Compact (.value (.object ms)) ('\x7b' :: (s ++ ['\x7d']))
  | member {name s t : List Char} {v : Value} (hname : WritesText name s)
      (h : Compact (.value v) t) : Compact (.member (some name) v) ('"' :: (s ++ '"' :: ':' :: t))
  | lastMember {name : Content} {v : Value} {s : List Char} (h : Compact (.member name v) s) :
      Compact (.members [(name, v)]) s
  | members {name : Content} {v : Value} {ms : List (Content × Value)} {s t : List Char}
      (h : Compact (.member name v) s) (ht : Compact (.members ms) t) :
      Compact (.members ((name, v) :: ms)) (s ++ ',' :: t)

/-- **Compact texts follow the grammar.** -/
theorem Compact.written (h : Compact part s) : Written part s := by
  induction h with
  | integer h => exact .integer h
  | text h => exact .text h.spells
  | emptyObject => exact .emptyObject isSpaced_nil
  | object _ ih => exact .object ih
  | member hname _ ih => exact .member_of_value hname.spells ih
  | lastMember _ ih => exact .lastMember ih
  | members _ _ ih ih' => exact .members ih ih'

/-- Members with commas between them are the members of an object. -/
theorem Compact.members_intercalate {α : Type} {name : α → Content} {value : α → Value}
    {text : α → List Char} (h : ∀ a, Compact (.member (name a) (value a)) (text a)) {l : List α}
    (hl : l ≠ []) :
    Compact (.members (l.map fun a => (name a, value a))) ([','].intercalate (l.map text)) := by
  induction l with
  | nil => exact absurd rfl hl
  | cons a l ih =>
    cases l with
    | nil => exact List.intercalate_singleton ▸ Compact.lastMember (h a)
    | cons b l =>
      have hmore := Compact.members (h a) (ih (List.cons_ne_nil b l))
      simpa only [List.map_cons, List.intercalate_cons_cons, List.append_assoc,
        List.singleton_append] using hmore

/-- What is written for something of a type is compact. -/
theorem Kind.compact_write (kind : Kind α) (a : α) :
    Compact (.value (kind.value a)) (kind.write a) := by
  induction kind with
  | text => exact .text (writesText_flatMap_writtenChar _)
  | integer => exact .integer (writesInteger_signedDecimal _)
  | named => exact .text (writesText_flatMap_writtenChar _)
  | converted _ _ back ih => exact ih (back a)

/-! ### Records -/

namespace Schema

variable {S : Schema R} {r : R} {read : String → Except ε R} {write : R → String}

/-- The members that are written of a record. -/
def written (S : Schema R) (r : R) : List (Content × Json.Value) :=
  S.object S.members fun m => (S.kind m).value (S.value r m)

/-- Every value of the record is one of its type: what is written of it means the same value. -/
def Fits (S : Schema R) (r : R) : Prop :=
  ∀ m, (S.kind m).meaning ((S.kind m).value (S.value r m)) = some (S.value r m)

/-- **Compact writers.** Every record is written as a compact object of its members in their
order. -/
def WritesCompactly (S : Schema R) (write : R → String) : Prop :=
  ∀ r, S.Fits r → Compact (.value (.object (S.written r))) (write r).toList

/-- A record is read back from what is written of it. -/
theorem Derives.read_write (hderives : S.Derives read) (hwrite : S.WritesCompactly write)
    (hr : S.Fits r) : read (write r) = .ok r :=
  (hderives.typed (hwrite r hr).written.slot_of_value).mpr hr

theorem compact_writeMember (S : Schema R) (r : R) (m : S.Member) :
    Compact (.member (some (S.name m).toList) ((S.kind m).value (S.value r m)))
      (S.writeMember [':'] r m) := by
  have hmember := Compact.member (writesText_flatMap_writtenChar (S.name m).toList)
    ((S.kind m).compact_write (S.value r m))
  simpa only [writeMember, writeText, List.cons_append, List.append_assoc, List.nil_append] using
    hmember

/-- The writer is compact. -/
theorem writesCompactly_writeCompact (S : Schema R) : S.WritesCompactly S.writeCompact := by
  intro r _
  rw [writeCompact, String.toList_ofList, List.cons_append]
  by_cases hmembers : S.members = []
  · rw [written, object, hmembers]
    exact .emptyObject
  · exact .object (.members_intercalate (S.compact_writeMember r) hmembers)

end Schema

end BinaryLayout.Json
