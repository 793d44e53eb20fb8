import BinaryLayout.Proofs.Text.Numerals
import Mathlib.Data.List.Forall2
import Mathlib.Data.List.Nodup

/-!
# Names in a text

A name is looked up by comparing it with the names of all values. Free text may write it with blanks
around it and with capital letters of the ASCII alphabet in place of small ones. Other alphabets
have no capitals here: their letters stand for themselves.

## Main definitions

* `IsTrimmed`: what is left of a text without the blanks at its ends.
* `Lowers`: the small letter that is meant by a character.

## Main results

* `isTrimmed_trim`: trimming takes the blanks at the ends and nothing else.
* `map_toLower_eq_iff`: a text in small letters, character by character.
* `find?_name_eq_some_iff`, `find?_lower_eq_some_iff`: a value is found by its own name and by no
  other.
-/

namespace BinaryLayout.Text

variable {c d : Char} {s t : List Char}

/-! ### Trimming -/

/-- The second text is the first one without the blanks at its ends: it stands between two gaps and
neither begins nor ends with a blank. -/
structure IsTrimmed (s t : List Char) : Prop where
  exists_gaps : ∃ before after, IsGap before ∧ IsGap after ∧ s = before ++ t ++ after
  head_not_blank : ∀ c ∈ t.head?, isBlank c = false
  last_not_blank : ∀ c ∈ t.getLast?, isBlank c = false

theorem isGap_takeWhile (s : List Char) : IsGap (s.takeWhile isBlank) :=
  fun _ hc => List.mem_takeWhile_imp hc

theorem IsGap.reverse (h : IsGap s) : IsGap s.reverse :=
  fun c hc => h c (List.mem_reverse.mp hc)

theorem head_dropWhile_not_blank (s : List Char) :
    ∀ c ∈ (s.dropWhile isBlank).head?, isBlank c = false := by
  intro c hc
  have hhead := List.head?_dropWhile_not isBlank s
  rwa [Option.mem_def.mp hc] at hhead

/-- **Trimming** takes the blanks at both ends of a text and nothing else. -/
theorem isTrimmed_trim (s : List Char) : IsTrimmed s (trim s) := by
  set front := s.dropWhile isBlank with hfront
  have hsplit : s = s.takeWhile isBlank ++ front := List.takeWhile_append_dropWhile.symm
  have hback : front = trim s ++ (front.reverse.takeWhile isBlank).reverse := by
    rw [trim, ← hfront, ← List.reverse_append, List.takeWhile_append_dropWhile,
      List.reverse_reverse]
  refine ⟨⟨_, _, isGap_takeWhile s, (isGap_takeWhile front.reverse).reverse, ?_⟩, fun c hc => ?_,
    fun c hc => ?_⟩
  · rw [List.append_assoc, ← hback]
    exact hsplit
  · -- What is left begins with the first character behind the gap, if anything is left.
    refine head_dropWhile_not_blank s c ?_
    rw [← hfront, hback, Option.mem_def, List.head?_append, Option.mem_def.mp hc, Option.some_or]
  · rw [trim, List.getLast?_reverse] at hc
    exact head_dropWhile_not_blank _ c hc

/-! ### Small letters -/

/-- The second character is the small letter that is meant by the first one: a capital of the ASCII
alphabet means its small letter, and every other character itself. -/
inductive Lowers : Char → Char → Prop
  | capital {k : Nat} (h : k < 26) :
      Lowers (Char.ofNat ('A'.toNat + k)) (Char.ofNat ('a'.toNat + k))
  | other {c : Char} (h : c < 'A' ∨ 'Z' < c) : Lowers c c

theorem toLower_eq_self (h : ¬ ('A' ≤ c ∧ c ≤ 'Z')) : c.toLower = c := by
  rw [Char.le_def, Char.le_def] at h
  exact dif_neg h

theorem toLower_eq_iff : c.toLower = d ↔ Lowers c d := by
  have hcapital : ∀ k < 26,
      (Char.ofNat ('A'.toNat + k)).toLower = Char.ofNat ('a'.toNat + k) := by decide
  constructor
  · rintro rfl
    by_cases h : 'A' ≤ c ∧ c ≤ 'Z'
    · obtain ⟨k, hk, -, rfl⟩ := exists_offset_of_le h
      have hlt : k < 26 := Nat.lt_succ_of_le hk
      exact hcapital k hlt ▸ .capital hlt
    · rw [toLower_eq_self h]
      rw [not_and_or, Char.not_le, Char.not_le] at h
      exact .other h
  · rintro (hk | h)
    · exact hcapital _ hk
    · refine toLower_eq_self fun hcap => ?_
      rcases h with h | h
      · exact absurd hcap.1 (Char.not_le.mpr h)
      · exact absurd hcap.2 (Char.not_le.mpr h)

/-- A text in small letters is what its characters mean, one by one. -/
theorem map_toLower_eq_iff : s.map Char.toLower = t ↔ List.Forall₂ Lowers s t := by
  rw [← List.forall₂_eq_eq_eq, List.forall₂_map_left_iff]
  simp only [toLower_eq_iff]

/-! ### Looking up a name -/

theorem injective_of_nodup {α β : Type} {name : α → β} {all : List α} (hall : ∀ a, a ∈ all)
    (h : (all.map name).Nodup) : Function.Injective name :=
  fun a b hab => List.inj_on_of_nodup_map h (hall a) (hall b) hab

/-- A value is found by its own name and by no other, if all values are looked at and no two have
the same name. -/
theorem find?_name_eq_some_iff {α β : Type} [BEq β] [LawfulBEq β] {name : α → β} {all : List α}
    (hall : ∀ a, a ∈ all) (hname : Function.Injective name) {n : β} {a : α} :
    all.find? (fun a => name a == n) = some a ↔ name a = n := by
  constructor
  · intro h
    exact beq_iff_eq.mp (List.find?_some h :)
  · rintro rfl
    cases hfind : all.find? fun b => name b == name a with
    | none => exact absurd (beq_self_eq_true _) (List.find?_eq_none.mp hfind a (hall a))
    | some b => exact congrArg some (hname (beq_iff_eq.mp (List.find?_some hfind :)))

/-- A value is found by each text that means its name in small letters. -/
theorem find?_lower_eq_some_iff {α : Type} {name : α → String} {all : List α}
    (hall : ∀ a, a ∈ all) (hname : Function.Injective name) {a : α} :
    all.find? (fun a => name a == String.ofList (s.map Char.toLower)) = some a ↔
      List.Forall₂ Lowers s (name a).toList := by
  rw [find?_name_eq_some_iff hall hname, ← map_toLower_eq_iff, ← String.toList_inj,
    String.toList_ofList, eq_comm]

end BinaryLayout.Text
