import BinaryLayout.Json.Skip
import BinaryLayout.Proofs.Json.Numbers
import BinaryLayout.Proofs.Json.Strings

/-!
# Values that are passed over

Every value that the grammar allows is passed over whole, and nothing behind it is touched. The open
brackets are kept in a list that any value leaves as it was, however deep it is nested in itself. So
the proof is by induction on the grammar, with the list and the text behind a part left open.

## Main definitions

* `Part.Passed`: what passing over a part of a text comes to.

## Main results

* `Written.passed`: every part of a text is passed over.
* `Written.skipValue_eq`: a value is passed over with the space before it.
-/

namespace BinaryLayout.Json

variable {c : Char} {s t rest : List Char} {bracket : Bracket}

/-! ### Steps -/

/-- The step behind a value: a comma leads to the next one, and the closing bracket out of the
innermost one. -/
theorem skipFrom_next_eq (hs : IsSpaced s) (hc : c ∉ spaces) (outer : List Bracket)
    (t : List Char) : skipFrom .next (bracket :: outer) (s ++ c :: t) =
      if c = ',' then
        match skipName bracket t with
        | .error fault => .error fault
        | .ok rest => skipFrom .value (bracket :: outer) rest
      else if c = bracket.closing then skipFrom .next outer t
      else .error .malformed := by
  have hfound : skipSpace (s ++ c :: t) = c :: t := by
    rw [skipSpace_append hs, skipSpace_cons hc]
  rw [skipFrom]
  split
  · next heq => exact absurd (hfound.symm.trans heq) (List.cons_ne_nil _ _)
  · next heq =>
    cases hfound.symm.trans heq
    cases skipName bracket t <;> rfl

/-- The step to a value: a value that is no bracket is passed over at once, and so are two brackets
with nothing between them; any other bracket is opened. -/
theorem skipFrom_value_eq (hs : IsSpaced s) (hc : c ∉ spaces) (stack : List Bracket)
    (t : List Char) : skipFrom .value stack (s ++ c :: t) =
      match Bracket.opened? c with
      | none =>
        match skipScalar (c :: t) with
        | .error fault => .error fault
        | .ok rest => skipFrom .next stack rest
      | some bracket =>
        match skipSpace t with
        | [] => .error .truncated
        | d :: inner =>
          if d = bracket.closing then skipFrom .next stack inner
          else
            match skipName bracket t with
            | .error fault => .error fault
            | .ok rest => skipFrom .value (bracket :: stack) rest := by
  have hfound : skipSpace (s ++ c :: t) = c :: t := by
    rw [skipSpace_append hs, skipSpace_cons hc]
  rw [skipFrom]
  split
  · next heq => exact absurd (hfound.symm.trans heq) (List.cons_ne_nil _ _)
  · next heq =>
    cases hfound.symm.trans heq
    cases Bracket.opened? c with
    | none => cases skipScalar (c :: t) <;> rfl
    | some bracket =>
      dsimp only
      cases skipSpace t with
      | nil => rfl
      | cons d inner =>
        dsimp only
        split
        · rfl
        · cases skipName bracket t <;> rfl

theorem skipFrom_next_comma (bracket : Bracket) (hs : IsSpaced s)
    (h : skipName bracket t = .ok rest) (outer : List Bracket) :
    skipFrom .next (bracket :: outer) (s ++ ',' :: t) =
      skipFrom .value (bracket :: outer) rest := by
  simp only [skipFrom_next_eq hs (by decide : ',' ∉ spaces), if_true, h]

theorem closing_plain (bracket : Bracket) : bracket.closing ∉ spaces ∧ bracket.closing ≠ ',' := by
  cases bracket <;> decide

theorem skipFrom_next_closing (bracket : Bracket) (hs : IsSpaced s) (outer : List Bracket)
    (t : List Char) :
    skipFrom .next (bracket :: outer) (s ++ bracket.closing :: t) = skipFrom .next outer t := by
  obtain ⟨hspace, hcomma⟩ := closing_plain bracket
  simp only [skipFrom_next_eq hs hspace, if_neg hcomma, if_true]

/-! ### Parts -/

/-- What passing over a part comes to: the text goes on behind the part, or behind the bracket that
closes it, with the same brackets open as before. Space behind a part is left to the next step. -/
def Part.Passed : Part → List Char → Prop
  | .value _, s => ∀ before, IsSpaced before → ∀ stack rest, EndsValue rest →
      skipFrom .value stack (before ++ (s ++ rest)) = skipFrom .next stack rest
  | .slot _, s => ∃ after, IsSpaced after ∧ ∀ stack rest, EndsSlot rest →
      skipFrom .value stack (s ++ rest) = skipFrom .next stack (after ++ rest)
  | .elements _, s => ∀ outer rest,
      skipFrom .value (.array :: outer) (s ++ ']' :: rest) = skipFrom .next outer rest
  | .member _ _, s => ∃ after, IsSpaced after ∧ ∀ outer rest, EndsSlot rest →
      ∃ inner, skipName .object (s ++ rest) = .ok inner ∧
        skipFrom .value (.object :: outer) inner = skipFrom .next (.object :: outer) (after ++ rest)
  | .members _, s => ∀ outer rest, ∃ inner, skipName .object (s ++ '\x7d' :: rest) = .ok inner ∧
      skipFrom .value (.object :: outer) inner = skipFrom .next outer rest

/-- A value that is no bracket is passed over at once. -/
theorem passed_of_skipScalar {v : Value} (h : ∃ c t, s = c :: t ∧ c ∈ v.firsts)
    (hscalar : v.firsts.all (Bracket.opened? · = none) = true)
    (hskip : ∀ rest, EndsValue rest → skipScalar (s ++ rest) = .ok rest) :
    (Part.value v).Passed s := by
  obtain ⟨c, t, rfl, hc⟩ := h
  intro before hbefore stack rest hrest
  have hrest := hskip rest hrest
  rw [List.cons_append] at hrest ⊢
  simp only [skipFrom_value_eq hbefore (Value.notMem_spaces hc), forall_mem_of_all hscalar c hc,
    hrest]

theorem skipScalar_of_startsNumber (h : startsNumber c = true) (s : List Char) :
    skipScalar (c :: s) = skipNumber (c :: s) := by
  have hplain : c ≠ '"' ∧ c ≠ 'n' ∧ c ≠ 't' ∧ c ≠ 'f' := by
    refine ⟨?_, ?_, ?_, ?_⟩ <;>
    · rintro rfl
      exact absurd h (by decide)
  obtain ⟨hquote, hn, ht, hf⟩ := hplain
  simp only [skipScalar, if_neg hquote, if_neg hn, if_neg ht, if_neg hf, h, if_true]

/-- A number is passed over at once. -/
theorem passed_of_skipNumber {v : Value} (h : ∃ c t, s = c :: t ∧ c ∈ v.firsts)
    (hfirsts : v.firsts = '-' :: decimalDigits)
    (hskip : ∀ rest, EndsValue rest → skipNumber (s ++ rest) = .ok rest) :
    (Part.value v).Passed s := by
  refine passed_of_skipScalar h (hfirsts ▸ by decide) fun rest hrest => ?_
  obtain ⟨c, t, rfl, hc⟩ := h
  rw [List.cons_append, skipScalar_of_startsNumber (startsNumber_of_mem (hfirsts ▸ hc)),
    ← List.cons_append, hskip rest hrest]

/-- Two brackets with nothing but space between them are passed over. -/
theorem passed_of_isSpaced {v : Value} (bracket : Bracket) (hs : IsSpaced s) (hc : c ∉ spaces)
    (hbracket : Bracket.opened? c = some bracket) :
    (Part.value v).Passed (c :: (s ++ [bracket.closing])) := by
  intro before hbefore stack rest hrest
  have hclosed : skipSpace (s ++ [bracket.closing] ++ rest) = bracket.closing :: rest := by
    rw [List.append_assoc, skipSpace_append hs, List.singleton_append,
      skipSpace_cons (closing_plain bracket).1]
  simp only [List.cons_append, skipFrom_value_eq hbefore hc, hbracket, hclosed, if_true]

/-- Two brackets are passed over if what stands between them leads behind the closing one. -/
theorem passed_of_inside {v : Value} (bracket : Bracket) (hc : c ∉ spaces)
    (hbracket : Bracket.opened? c = some bracket)
    (hfirst : ∃ d t, d ∉ closers ∧ ∀ rest, skipSpace (s ++ rest) = d :: (t ++ rest))
    (hinside : ∀ outer rest, ∃ inner, skipName bracket (s ++ bracket.closing :: rest) = .ok inner ∧
      skipFrom .value (bracket :: outer) inner = skipFrom .next outer rest) :
    (Part.value v).Passed (c :: (s ++ [bracket.closing])) := by
  intro before hbefore stack rest hrest
  obtain ⟨d, t, hd, hspace⟩ := hfirst
  obtain ⟨inner, hname, hskip⟩ := hinside stack rest
  have hclosing : d ≠ bracket.closing := by
    rintro rfl
    cases bracket <;> exact hd (by decide)
  simp only [List.cons_append, List.append_assoc, List.nil_append,
    skipFrom_value_eq hbefore hc, hbracket, hspace, if_neg hclosing, hname, hskip]

/-- The last element leads behind the closing bracket. -/
theorem passed_lastElement {v : Value} (h : (Part.slot v).Passed s) :
    (Part.elements [v]).Passed s := by
  obtain ⟨after, hafter, hslot⟩ := h
  intro outer rest
  rw [hslot _ _ (endsSlot_cons (by decide) rest)]
  exact skipFrom_next_closing .array hafter outer rest

/-- An element leads to the elements behind it. -/
theorem passed_element {v : Value} {vs : List Value} (h : (Part.slot v).Passed s)
    (ht : (Part.elements vs).Passed t) : (Part.elements (v :: vs)).Passed (s ++ ',' :: t) := by
  obtain ⟨after, hafter, hslot⟩ := h
  intro outer rest
  rw [List.append_assoc, List.cons_append, hslot _ _ (endsSlot_cons (by decide) _),
    skipFrom_next_comma .array hafter rfl, ht]

/-- A member leads to its value, and its value behind it. -/
theorem passed_member {name : Content} {v : Value} {before between : List Char}
    (hbefore : IsSpaced before) (hname : Spells name s) (hbetween : IsSpaced between)
    (h : (Part.slot v).Passed t) :
    (Part.member name v).Passed (before ++ '"' :: (s ++ '"' :: (between ++ ':' :: t))) := by
  obtain ⟨after, hafter, hslot⟩ := h
  refine ⟨after, hafter, fun outer rest hrest => ⟨t ++ rest, ?_, hslot _ _ hrest⟩⟩
  simp only [skipName, List.append_assoc, List.cons_append,
    takeMark_append hbefore (by decide : '"' ∉ spaces), hname.skipText_eq,
    takeMark_append hbetween (by decide : ':' ∉ spaces)]

/-- The last member leads behind the closing bracket. -/
theorem passed_lastMember {name : Content} {v : Value} (h : (Part.member name v).Passed s) :
    (Part.members [(name, v)]).Passed s := by
  obtain ⟨after, hafter, hmember⟩ := h
  intro outer rest
  obtain ⟨inner, hname, hskip⟩ := hmember outer ('\x7d' :: rest) (endsSlot_cons (by decide) rest)
  refine ⟨inner, hname, hskip.trans ?_⟩
  exact skipFrom_next_closing .object hafter outer rest

/-- A member leads to the members behind it. -/
theorem passed_members {name : Content} {v : Value} {ms : List (Content × Value)}
    (h : (Part.member name v).Passed s) (ht : (Part.members ms).Passed t) :
    (Part.members ((name, v) :: ms)).Passed (s ++ ',' :: t) := by
  obtain ⟨after, hafter, hmember⟩ := h
  intro outer rest
  obtain ⟨later, hlater, hskipLater⟩ := ht outer rest
  obtain ⟨inner, hname, hskip⟩ := hmember outer (',' :: (t ++ '\x7d' :: rest))
    (endsSlot_cons (by decide) _)
  refine ⟨inner, by rw [List.append_assoc]; exact hname, hskip.trans ?_⟩
  rw [skipFrom_next_comma .object hafter hlater, hskipLater]

/-- **Passing over.** Every part of a text is passed over. -/
theorem Written.passed {p : Part} (h : Written p s) : p.Passed s := by
  induction h with
  | null =>
    exact passed_of_skipScalar Written.null.exists_first (by decide) fun rest _ =>
      takeWord_append ['u', 'l', 'l'] rest
  | true =>
    exact passed_of_skipScalar Written.true.exists_first (by decide) fun rest _ =>
      takeWord_append ['r', 'u', 'e'] rest
  | false =>
    exact passed_of_skipScalar Written.false.exists_first (by decide) fun rest _ =>
      takeWord_append ['a', 'l', 's', 'e'] rest
  | integer h =>
    exact passed_of_skipNumber (Written.integer h).exists_first rfl fun _ => h.skipNumber_eq
  | real h =>
    exact passed_of_skipNumber (Written.real h).exists_first rfl fun _ => h.skipNumber_eq
  | @text content s h =>
    refine passed_of_skipScalar (Written.text h).exists_first rfl fun rest _ => ?_
    rw [List.cons_append, List.append_assoc]
    exact h.skipText_eq rest
  | emptyArray hs => exact passed_of_isSpaced .array hs (by decide) rfl
  | emptyObject hs => exact passed_of_isSpaced .object hs (by decide) rfl
  | @array vs s h ih =>
    exact passed_of_inside .array (by decide) rfl h.exists_skipSpace_elements
      fun outer rest => ⟨_, rfl, ih outer rest⟩
  | @object ms s h ih =>
    obtain ⟨t, hspace⟩ := h.exists_skipSpace_members
    exact passed_of_inside .object (by decide) rfl ⟨'"', t, by decide, hspace⟩ ih
  | @slot v before s after hbefore h hafter ih =>
    refine ⟨after, hafter, fun stack rest hrest => ?_⟩
    rw [List.append_assoc, List.append_assoc]
    exact ih before hbefore stack (after ++ rest) (hrest.endsValue_append hafter)
  | lastElement _ ih => exact passed_lastElement ih
  | element _ _ ih iht => exact passed_element ih iht
  | member hbefore hname hbetween _ ih => exact passed_member hbefore hname hbetween ih
  | lastMember _ ih => exact passed_lastMember ih
  | members _ _ ih iht => exact passed_members ih iht

/-- A value is passed over with the space before it. -/
theorem Written.skipValue_eq {v : Value} (h : Written (.slot v) s) : ∃ after, IsSpaced after ∧
    ∀ rest, EndsSlot rest → skipValue (s ++ rest) = .ok (after ++ rest) := by
  obtain ⟨after, hafter, hslot⟩ := h.passed
  refine ⟨after, hafter, fun rest hrest => ?_⟩
  rw [skipValue, hslot [] rest hrest, skipFrom]

end BinaryLayout.Json
