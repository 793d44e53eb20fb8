import BinaryLayout.Json.Number
import BinaryLayout.Proofs.Json.Grammar

/-!
# Numbers that are read and passed over

A number that the grammar allows is passed over whole, whatever its size. It is read as an integer
if it is one without point and exponent and fits in a 64-bit word; every other number is read as
something else, or is refused because its magnitude is too large.

## Main definitions

* `Number.integer?`: the integer that a reading found, with the text behind it.

## Main results

* `WritesInteger.skipNumber_eq`, `IsReal.skipNumber_eq`: passing over a number.
* `WritesInteger.integer?_readNumber`, `IsReal.integer?_readNumber`: reading a number.
-/

namespace BinaryLayout.Json

open Text (Numeral)

variable {c : Char} {s t rest : List Char} {n v : Nat} {i : Int}

/-! ### Digits -/

theorem EndsValue.startsWithDigit_eq (h : EndsValue rest) : startsWithDigit rest = false :=
  h.head?_any_eq_false (forall_mem_of_all (by decide))

theorem EndsValue.continuesReal_eq (h : EndsValue rest) : continuesReal rest = false :=
  h.head?_any_eq_false (forall_mem_of_all (by decide))

theorem isDigit_of_mem (h : c ∈ decimalDigits) : isDigit c = true :=
  (forall_mem_of_all (by decide) : ∀ c ∈ decimalDigits, isDigit c = true) c h

/-- What a number can begin with begins a number. -/
theorem startsNumber_of_mem (h : c ∈ '-' :: decimalDigits) : startsNumber c = true :=
  (forall_mem_of_all (by decide) : ∀ c ∈ '-' :: decimalDigits, startsNumber c = true) c h

/-- A numeral begins with a digit. -/
theorem startsWithDigit_of_numeral (h : Numeral 10 s n) (rest : List Char) :
    startsWithDigit (s ++ rest) = true := by
  obtain ⟨c, t, rfl, hc⟩ := exists_cons_of_numeral h
  exact isDigit_of_mem hc

theorem dropDigits_eq_self (h : startsWithDigit rest = false) : dropDigits rest = rest := by
  cases rest with
  | nil => rfl
  | cons c rest => exact List.dropWhile_cons_of_neg (Bool.not_eq_true _ ▸ h)

theorem dropDigits_append (h : Numeral 10 s n) (hrest : startsWithDigit rest = false) :
    dropDigits (s ++ rest) = rest := by
  have hdigits : ∀ c ∈ s, isDigit c = true := fun c hc =>
    isDigit_of_mem (mem_decimalDigits_of_numeral h c hc)
  rw [dropDigits, List.dropWhile_append_of_pos hdigits]
  exact dropDigits_eq_self hrest

/-- A sign is taken off the front of a numeral. -/
theorem takeSign_append (hsign : t ∈ exponentSigns) (h : Numeral 10 s n) (rest : List Char) :
    (takeSign (t ++ (s ++ rest))).2 = s ++ rest := by
  obtain ⟨c, u, rfl, hc⟩ := exists_cons_of_numeral h
  simp only [exponentSigns, List.mem_cons, List.not_mem_nil, or_false] at hsign
  rcases hsign with rfl | rfl | rfl
  · have hplain : c ≠ '-' ∧ c ≠ '+' :=
      (forall_mem_of_all (by decide) : ∀ c ∈ decimalDigits, c ≠ '-' ∧ c ≠ '+') c hc
    rw [List.nil_append, List.cons_append, takeSign]
    · exact fun _ h => hplain.1 (List.cons.inj h).1
    · exact fun _ h => hplain.2 (List.cons.inj h).1
  · rfl
  · rfl

/-! ### Passing over -/

theorem skipDigits_append (h : Numeral 10 s n) (hrest : startsWithDigit rest = false) :
    skipDigits (s ++ rest) = .ok rest := by
  rw [skipDigits, if_pos (startsWithDigit_of_numeral h rest), dropDigits_append h hrest]

theorem isExponentMark_of_mem (h : c ∈ exponentMarks) : isExponentMark c = true :=
  (forall_mem_of_all (by decide) : ∀ c ∈ exponentMarks, isExponentMark c = true) c h

theorem IsExponent.skipExponent_eq (h : IsExponent s) (hrest : EndsValue rest) :
    skipExponent (s ++ rest) = .ok rest := by
  cases h with
  | absent =>
    cases rest with
    | nil => rfl
    | cons c rest =>
      have hmarks : ∀ c ∈ spaces ++ closers, isExponentMark c = false :=
        forall_mem_of_all (by decide)
      have hmark := hmarks c (hrest c rfl)
      simp only [List.nil_append, skipExponent, hmark, Bool.false_eq_true, if_false]
  | digits hmark hsign h =>
    rw [List.cons_append, List.append_assoc, skipExponent, if_pos (isExponentMark_of_mem hmark),
      takeSign_append hsign h, skipDigits_append h hrest.startsWithDigit_eq]

/-- Neither a digit nor a point stands where an exponent may follow. -/
theorem IsExponent.head_append (h : IsExponent s) (hrest : EndsValue rest) :
    ∀ c ∈ (s ++ rest).head?, isDigit c = false ∧ c ≠ '.' := by
  have hplain : ∀ c ∈ exponentMarks ++ (spaces ++ closers), isDigit c = false ∧ c ≠ '.' :=
    forall_mem_of_all (by decide)
  intro c hc
  cases h with
  | absent => exact hplain c (List.mem_append_right _ (hrest c hc))
  | digits hmark =>
    obtain rfl := Option.some.inj hc
    exact hplain _ (List.mem_append_left _ hmark)

theorem startsWithDigit_eq_false (h : ∀ c ∈ s.head?, isDigit c = false) :
    startsWithDigit s = false := by
  cases s with
  | nil => rfl
  | cons c s => exact h c rfl

theorem IsExponent.startsWithDigit_eq (h : IsExponent s) (hrest : EndsValue rest) :
    startsWithDigit (s ++ rest) = false :=
  startsWithDigit_eq_false fun c hc => (h.head_append hrest c hc).1

theorem skipFraction_of_head (h : ∀ c ∈ s.head?, c ≠ '.') : skipFraction s = skipExponent s := by
  unfold skipFraction
  split
  · exact absurd rfl (h '.' rfl)
  · rfl

theorem IsFraction.skipFraction_eq (h : IsFraction s) (ht : IsExponent t)
    (hrest : EndsValue rest) : skipFraction (s ++ (t ++ rest)) = .ok rest := by
  cases h with
  | absent =>
    rw [List.nil_append, skipFraction_of_head fun c hc => (ht.head_append hrest c hc).2,
      ht.skipExponent_eq hrest]
  | digits h =>
    simp only [List.cons_append, skipFraction,
      skipDigits_append h (ht.startsWithDigit_eq hrest), ht.skipExponent_eq hrest]

/-- No digit stands where a fraction or an exponent may follow. -/
theorem IsFraction.startsWithDigit_eq (h : IsFraction s) (ht : IsExponent t)
    (hrest : EndsValue rest) : startsWithDigit (s ++ (t ++ rest)) = false := by
  cases h with
  | absent => exact ht.startsWithDigit_eq hrest
  | digits => rfl

/-- An integer part is a zero alone, or begins with another digit. -/
theorem IsWhole.cases_zero (h : IsWhole n s) :
    (s = ['0'] ∧ n = 0) ∨ ∃ c t, s = c :: t ∧ c ≠ '0' ∧ isDigit c = true := by
  obtain ⟨c, t, rfl, hc⟩ := exists_cons_of_numeral h.numeral
  by_cases hzero : c = '0'
  · subst hzero
    have ht : t = [] := by
      refine List.length_eq_zero_iff.mp (Nat.succ.inj (h.zero_alone.resolve_right ?_))
      exact fun hne => hne rfl
    subst ht
    exact Or.inl ⟨rfl, h.numeral.numeralValue_eq.symm⟩
  · exact Or.inr ⟨c, t, rfl, hzero, isDigit_of_mem hc⟩

theorem IsWhole.skipMagnitude_eq (h : IsWhole n s) (hrest : startsWithDigit rest = false) :
    skipMagnitude (s ++ rest) = skipFraction rest := by
  have hskip := skipDigits_append h.numeral hrest
  rcases h.cases_zero with ⟨rfl, -⟩ | ⟨c, t, rfl, hzero, -⟩
  · simp only [List.singleton_append, skipMagnitude, hrest, Bool.false_eq_true, if_false]
  · unfold skipMagnitude
    split
    · next heq => exact absurd (List.cons.inj heq).1 hzero
    · rw [hskip]

theorem skipNumber_of_isDigit (h : startsWithDigit s = true) : skipNumber s = skipMagnitude s := by
  unfold skipNumber
  split
  · exact absurd (show isDigit '-' = true from h) (by decide)
  · rfl

/-- A sign, an integer part, a fraction and an exponent are passed over. -/
theorem skipNumber_append (negative : Bool) (h : IsWhole n s) {f e : List Char}
    (hf : IsFraction f) (he : IsExponent e) (hrest : EndsValue rest) :
    skipNumber ((if negative then ['-'] else []) ++ (s ++ (f ++ e)) ++ rest) = .ok rest := by
  have hmagnitude : skipMagnitude (s ++ (f ++ (e ++ rest))) = .ok rest := by
    rw [h.skipMagnitude_eq (hf.startsWithDigit_eq he hrest), hf.skipFraction_eq he hrest]
  simp only [List.append_assoc]
  cases negative with
  | true => exact hmagnitude
  | false =>
    simp only [Bool.false_eq_true, if_false, List.nil_append]
    rw [skipNumber_of_isDigit (startsWithDigit_of_numeral h.numeral _), hmagnitude]

theorem WritesInteger.skipNumber_eq (h : WritesInteger i s) (hrest : EndsValue rest) :
    skipNumber (s ++ rest) = .ok rest := by
  cases h with
  | nonneg h => simpa using skipNumber_append false h .absent .absent hrest
  | neg h => simpa using skipNumber_append true h .absent .absent hrest

theorem isWhole_zero : IsWhole 0 ['0'] :=
  ⟨Text.numeral?_eq_some_iff.mp (by decide), Or.inl rfl⟩

theorem IsReal.skipNumber_eq (h : IsReal s) (hrest : EndsValue rest) :
    skipNumber (s ++ rest) = .ok rest := by
  cases h with
  | minusZero => exact skipNumber_append true isWhole_zero .absent .absent hrest
  | @pointed negative _ _ _ _ hwhole hf he => exact skipNumber_append negative hwhole hf he hrest

/-! ### Significands -/

/-- The number with one more digit. -/
def withDigit (v : Nat) (c : Char) : Nat := v * 10 + (Text.digit? c).getD 0

theorem le_foldl_withDigit (v : Nat) (s : List Char) : v ≤ s.foldl withDigit v := by
  induction s generalizing v with
  | nil => exact Nat.le_refl v
  | cons c s ih => exact (by unfold withDigit; omega : v ≤ withDigit v c).trans (ih _)

theorem foldl_withDigit_of_numeral (h : Numeral 10 s n) : s.foldl withDigit 0 = n :=
  h.numeralValue_eq

/-- Digits that fit in a significand are all taken. -/
theorem gather_append_of_le (hs : ∀ c ∈ s, isDigit c = true)
    (hrest : startsWithDigit rest = false) (h : s.foldl withDigit v ≤ significandMax) :
    gather v (s ++ rest) = ⟨s.foldl withDigit v, s.length, rest⟩ := by
  induction s generalizing v with
  | nil =>
    cases rest with
    | nil => rfl
    | cons c rest =>
      have hc : isDigit c = false := hrest
      simp only [List.nil_append, gather, hc, Bool.false_and, Bool.false_eq_true, if_false]
      rfl
  | cons c s ih =>
    obtain ⟨hc, hs⟩ := List.forall_mem_cons.mp hs
    have hnext : withDigit v c ≤ significandMax := (le_foldl_withDigit _ s).trans h
    have hmore := ih hs h
    rw [withDigit] at hnext hmore
    simp only [List.cons_append, gather, hc, hnext, decide_true, Bool.and_self, if_true, hmore]
    rfl

/-- Of digits that do not fit in a significand one is left. -/
theorem startsWithDigit_gather (hs : ∀ c ∈ s, isDigit c = true) (hv : v ≤ significandMax)
    (h : significandMax < s.foldl withDigit v) (rest : List Char) :
    startsWithDigit (gather v (s ++ rest)).rest = true := by
  induction s generalizing v with
  | nil => exact absurd hv (Nat.not_le.mpr h)
  | cons c s ih =>
    obtain ⟨hc, hs⟩ := List.forall_mem_cons.mp hs
    by_cases hnext : withDigit v c ≤ significandMax
    · have hmore := ih hs hnext h
      rw [withDigit] at hnext hmore
      simpa only [List.cons_append, gather, hc, hnext, decide_true, Bool.and_self, if_true]
        using hmore
    · rw [withDigit] at hnext
      simp only [List.cons_append, gather, hnext, decide_false, Bool.and_false,
        Bool.false_eq_true, if_false]
      exact hc

/-! ### Reading -/

/-- The integer that a reading found and the text behind it, if what it found is an integer. -/
def Number.integer? : Reading Number → Option (Int × List Char)
  | .ok (.integer i, rest) => some (i, rest)
  | .ok (.real .., _) => none
  | .error _ => none

section Real

variable (negative : Bool) (significand : Nat) (exponent : Int) (s : List Char)

theorem integer?_realNumber :
    Number.integer? (realNumber negative significand exponent s) = none := by
  unfold realNumber
  split <;> rfl

theorem integer?_readExponent :
    Number.integer? (readExponent negative significand exponent s) = none := by
  simp only [readExponent]
  split_ifs <;> first | rfl | exact integer?_realNumber ..

theorem integer?_finishReal :
    Number.integer? (finishReal negative significand exponent s) = none := by
  unfold finishReal
  split
  · split_ifs
    · exact integer?_readExponent ..
    · exact integer?_realNumber ..
  · exact integer?_realNumber ..

theorem integer?_readFraction :
    Number.integer? (readFraction negative significand exponent s) = none := by
  simp only [readFraction]
  split_ifs <;> first | rfl | exact integer?_finishReal ..

theorem integer?_readReal :
    Number.integer? (readReal negative significand exponent s) = none := by
  unfold readReal
  split
  · exact integer?_readFraction ..
  · exact integer?_finishReal ..

end Real

theorem integer?_readRest (negative : Bool) (n : Nat) (s : List Char) :
    Number.integer? (readRest negative n s) =
      if continuesReal s then none else Number.integer? (.ok (integralNumber negative n, s)) := by
  rw [readRest]
  split_ifs
  · exact integer?_readReal ..
  · rfl

/-- An integer part is read as an integer if it fits in a word and neither a point nor an exponent
follows. -/
theorem IsWhole.integer?_readMagnitude (h : IsWhole n s) (negative : Bool)
    (hrest : startsWithDigit rest = false) :
    Number.integer? (readMagnitude negative (s ++ rest)) =
      if significandMax < n ∨ continuesReal rest then none
      else Number.integer? (.ok (integralNumber negative n, rest)) := by
  have hdigits : ∀ c ∈ s, isDigit c = true := fun c hc =>
    isDigit_of_mem (mem_decimalDigits_of_numeral h.numeral c hc)
  have hvalue := foldl_withDigit_of_numeral h.numeral
  rcases h.cases_zero with ⟨rfl, rfl⟩ | ⟨c, t, rfl, hzero, hc⟩
  · have hsmall : ¬ significandMax < 0 := Nat.not_lt_zero _
    simp only [List.singleton_append, readMagnitude, if_true, hrest, Bool.false_eq_true, if_false,
      integer?_readRest, hsmall, false_or]
  · rw [List.cons_append, readMagnitude, if_neg hzero, if_pos hc, ← List.cons_append]
    by_cases hlarge : significandMax < n
    · have hleft := startsWithDigit_gather hdigits (Nat.zero_le _) (hvalue.symm ▸ hlarge) rest
      simp only [hleft, if_true, hlarge, true_or]
      exact integer?_readReal ..
    · have hfits := gather_append_of_le hdigits hrest (hvalue.symm ▸ Nat.le_of_not_lt hlarge)
      simp only [hfits, hrest, Bool.false_eq_true, if_false, integer?_readRest, hlarge, false_or,
        hvalue]

theorem readNumber_of_isDigit (h : startsWithDigit s = true) :
    readNumber s = readMagnitude false s := by
  unfold readNumber
  split
  · exact absurd (show isDigit '-' = true from h) (by decide)
  · rfl

/-- **Integers.** An integer is read as itself if it fits in a 64-bit word, with or without a sign,
and else not as an integer. -/
theorem WritesInteger.integer?_readNumber (h : WritesInteger i s) (hrest : EndsValue rest) :
    Number.integer? (readNumber (s ++ rest)) =
      if -Word.half64 ≤ i ∧ i < Word.count64 then some (i, rest) else none := by
  have hmax : significandMax = Word.count64 - 1 := rfl
  have hhalf : Word.half64 < Word.count64 := by decide
  cases h with
  | @nonneg n s h =>
    rw [readNumber_of_isDigit (startsWithDigit_of_numeral h.numeral rest),
      h.integer?_readMagnitude false hrest.startsWithDigit_eq, hrest.continuesReal_eq]
    by_cases hn : significandMax < n
    · rw [if_pos (Or.inl hn), if_neg (by omega)]
    · rw [if_neg (by simpa using hn), if_pos (by omega)]
      rfl
  | @neg n s h hpos =>
    have hread := h.integer?_readMagnitude true hrest.startsWithDigit_eq
    rw [hrest.continuesReal_eq] at hread
    rw [List.cons_append]
    refine hread.trans ?_
    by_cases hn : Word.half64 < n
    · rw [if_neg (by omega : ¬ (-(Word.half64 : Int) ≤ -n ∧ _))]
      simp only [integralNumber, if_true, hn, or_true]
      split_ifs <;> rfl
    · rw [if_neg (by simp only [Bool.false_eq_true, or_false]; omega), if_pos (by omega)]
      simp only [integralNumber, if_true, hn, or_false, if_neg (Nat.ne_of_gt hpos)]
      rfl

/-- A fraction or an exponent makes a number real. -/
theorem continuesReal_append {f e : List Char} (hf : IsFraction f) (he : IsExponent e)
    (h : f ++ e ≠ []) (rest : List Char) : continuesReal (f ++ (e ++ rest)) = true := by
  cases hf with
  | digits => rfl
  | absent =>
    cases he with
    | absent => exact absurd rfl h
    | digits hmark =>
      exact Bool.or_eq_true .. ▸ Or.inr (isExponentMark_of_mem hmark)

/-- A number that is no integer is not read as one. -/
theorem IsReal.integer?_readNumber (h : IsReal s) (hrest : EndsValue rest) :
    Number.integer? (readNumber (s ++ rest)) = none := by
  cases h with
  | minusZero =>
    refine (isWhole_zero.integer?_readMagnitude true hrest.startsWithDigit_eq).trans ?_
    split_ifs <;> rfl
  | @pointed negative n whole f e hwhole hf he hne =>
    have hreal := hwhole.integer?_readMagnitude negative (hf.startsWithDigit_eq he hrest)
    rw [continuesReal_append hf he hne, if_pos (Or.inr rfl)] at hreal
    simp only [List.append_assoc]
    cases negative with
    | true => exact hreal
    | false =>
      simp only [Bool.false_eq_true, if_false, List.nil_append]
      rw [readNumber_of_isDigit (startsWithDigit_of_numeral hwhole.numeral _), hreal]

/-! ### Writing -/

theorem isWhole_decimal (n : Nat) : IsWhole n (Text.decimal n) where
  numeral := Text.numeral_decimal n
  zero_alone := by
    rcases Nat.eq_zero_or_pos n with rfl | hn
    · exact Or.inl rfl
    · exact Or.inr (Text.head?_decimal_ne hn)

theorem writesInteger_decimal (n : Nat) : WritesInteger n (Text.decimal n) :=
  .nonneg (isWhole_decimal n)

theorem writesInteger_signedDecimal (i : Int) : WritesInteger i (Text.signedDecimal i) := by
  rw [Text.signedDecimal]
  split_ifs with h
  · have hneg := WritesInteger.neg (isWhole_decimal i.natAbs) (by omega)
    rwa [(by omega : -(i.natAbs : Int) = i)] at hneg
  · have hnonneg := writesInteger_decimal i.natAbs
    rwa [(by omega : (i.natAbs : Int) = i)] at hnonneg

end BinaryLayout.Json
