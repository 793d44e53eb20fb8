import BinaryLayout.Layout.Operation
import BinaryLayout.Proofs.Layout.Element
import BinaryLayout.Proofs.Layout.InitialImage

/-!
# What requests can change

A request leaves the layout as it is, or it replaces bytes of the buffer within the buffer's bounds.
Whatever the request and whether it succeeds or fails, the configuration, the fields and the size
stay, and a sound layout stays sound. A layout serves one request after another, and each leaves
the layout for the next: what every request keeps is kept by the whole run.

## Main definitions

* `Layout.IsPatchOf`: a layout is another one, or the other one with bytes replaced.
* `Layout.run`: the layout that a sequence of requests leaves.
* `Layout.Reachable`: what a run can leave of a layout that was built.

## Main results

* `Layout.isPatchOf_perform`: what one request can do to a layout.
* `Layout.Sound.perform`: a request keeps a sound layout sound.
* `Layout.run_induction`: what each request keeps is kept by a run.
* `Layout.Reachable.sound`: every reachable layout is sound.
-/

namespace BinaryLayout.Layout

variable {l l' : Layout} {f : Field}

/-! ### The writers -/

theorem writeRange_eq_ok {index start : Nat} {new : List UInt8}
    (h : l.writeRange f index start new = .ok l') :
    start + new.length ≤ l.size ∧ l' = l.patch start new := by
  cases hstop : l.buffer.stop start new.length with
  | error fault => simp only [writeRange, Buffer.write, hstop, reduceCtorEq] at h
  | ok e =>
    simp only [writeRange, Buffer.write, hstop, Except.ok.injEq] at h
    exact ⟨(Buffer.stop_eq_ok_iff.mp hstop).2.1, h.symm⟩

theorem storeAt_eq_ok {value : Int64} {index : Nat} (h : l.storeAt f value index = .ok l') :
    ∃ start new, start + new.length ≤ l.size ∧ l' = l.patch start new := by
  rw [storeAt] at h
  cases helement : l.element f index with
  | error fault => simp only [helement, reduceCtorEq] at h
  | ok start =>
    simp only [helement] at h
    exact ⟨_, _, writeRange_eq_ok h⟩

/-- The layout is the old one, or the old one with bytes replaced that lie in its buffer. -/
def IsPatchOf (l' l : Layout) : Prop :=
  l' = l ∨ ∃ start new, start + new.length ≤ l.size ∧ l' = l.patch start new

theorem isPatchOf_set {label : String} {value : Int64} (h : l.set label value = .ok l') :
    l'.IsPatchOf l := by
  rw [set] at h
  cases hfield : l.field label with
  | error fault => simp only [hfield, reduceCtorEq] at h
  | ok f =>
    simp only [hfield] at h
    split_ifs at h
    · exact Or.inr (storeAt_eq_ok h)
    · cases h
      exact Or.inl rfl

theorem isPatchOf_setAt {label : String} {value : Int64} {index : Nat}
    (h : l.setAt label value index = .ok l') : l'.IsPatchOf l := by
  rw [setAt] at h
  cases hfield : l.field label with
  | error fault => simp only [hfield, reduceCtorEq] at h
  | ok f =>
    simp only [hfield] at h
    exact Or.inr (storeAt_eq_ok h)

theorem isPatchOf_setString {label text : String} {copied : Nat}
    (h : l.setString label text = .ok (copied, l')) : l'.IsPatchOf l := by
  rw [setString] at h
  cases hfield : l.field label with
  | error fault => simp only [hfield, reduceCtorEq] at h
  | ok f =>
    simp only [hfield] at h
    split_ifs at h
    · cases h
      exact Or.inl rfl
    · cases hwrite : l.writeRange f 0 f.offset (paddedText text f.totalSize) with
      | error fault => simp only [hwrite, reduceCtorEq] at h
      | ok l'' =>
        simp only [hwrite, Except.ok.injEq, Prod.mk.injEq] at h
        obtain ⟨-, rfl⟩ := h
        exact Or.inr ⟨_, _, writeRange_eq_ok hwrite⟩

theorem isPatchOf_setBytes (l : Layout) (data : List UInt8) : (l.setBytes data).2.IsPatchOf l := by
  refine Or.inr ⟨0, data.take (l.buffer.fitting data), ?_, rfl⟩
  rw [List.length_take, Nat.zero_add]
  exact (Nat.min_le_left _ _).trans (Nat.min_le_right _ _)

/-! ### One request -/

theorem reading_snd {α : Type} (l : Layout) (answer : α → Answer) (result : Except LayoutError α) :
    (l.reading answer result).2 = l := by
  cases result <;> rfl

/-- What a reader answers does not depend on the layout but through its result. -/
theorem reading_fst {α : Type} (l l' : Layout) (answer : α → Answer)
    (result : Except LayoutError α) :
    (l.reading answer result).1 = (l'.reading answer result).1 := by
  cases result <;> rfl

theorem isPatchOf_writing {result : Except LayoutError (Answer × Layout)}
    (h : ∀ answer l', result = .ok (answer, l') → l'.IsPatchOf l) :
    (l.writing result).2.IsPatchOf l := by
  rcases result with fault | ⟨answer, l'⟩
  · exact Or.inl rfl
  · exact h answer l' rfl

/-- **One request** keeps the layout or replaces bytes within the bounds of its buffer. -/
theorem isPatchOf_perform (l : Layout) (operation : Operation) :
    (l.perform operation).2.IsPatchOf l := by
  cases operation with
  | set label value =>
    refine isPatchOf_writing fun answer l' h => ?_
    cases hset : l.set label value with
    | error fault => simp only [hset, Except.map, reduceCtorEq] at h
    | ok l'' =>
      simp only [hset, Except.map, Except.ok.injEq, Prod.mk.injEq] at h
      exact h.2 ▸ isPatchOf_set hset
  | setAt label value index =>
    refine isPatchOf_writing fun answer l' h => ?_
    cases hset : l.setAt label value index with
    | error fault => simp only [hset, Except.map, reduceCtorEq] at h
    | ok l'' =>
      simp only [hset, Except.map, Except.ok.injEq, Prod.mk.injEq] at h
      exact h.2 ▸ isPatchOf_setAt hset
  | setString label text =>
    refine isPatchOf_writing fun answer l' h => ?_
    cases hset : l.setString label text with
    | error fault => simp only [hset, Except.map, reduceCtorEq] at h
    | ok r =>
      simp only [hset, Except.map, Except.ok.injEq, Prod.mk.injEq] at h
      exact h.2 ▸ isPatchOf_setString hset
  | setBytes data => exact isPatchOf_setBytes l data
  | loadImage image =>
    simp only [perform, loadImage]
    cases image.bytes with
    | error fault => exact Or.inl rfl
    | ok data => exact isPatchOf_setBytes l data
  | size | config | fields | labels | bytes | hexDump | saveImage => exact Or.inl rfl
  | field | describe | range | offsetOf | sizeOf | get | getAt | getString | getCString | display =>
    exact Or.inl (reading_snd ..)

/-! ### What stays -/

theorem IsPatchOf.fields_eq (h : l'.IsPatchOf l) : l'.fields = l.fields := by
  rcases h with rfl | ⟨start, new, -, rfl⟩ <;> rfl

theorem IsPatchOf.config_eq (h : l'.IsPatchOf l) : l'.config = l.config := by
  rcases h with rfl | ⟨start, new, -, rfl⟩ <;> rfl

theorem IsPatchOf.size_eq (h : l'.IsPatchOf l) : l'.size = l.size := by
  rcases h with rfl | ⟨start, new, hfits, rfl⟩
  · rfl
  · exact size_patch hfits

@[simp] theorem fields_perform (l : Layout) (operation : Operation) :
    (l.perform operation).2.fields = l.fields :=
  (isPatchOf_perform l operation).fields_eq

@[simp] theorem config_perform (l : Layout) (operation : Operation) :
    (l.perform operation).2.config = l.config :=
  (isPatchOf_perform l operation).config_eq

@[simp] theorem size_perform (l : Layout) (operation : Operation) :
    (l.perform operation).2.size = l.size :=
  (isPatchOf_perform l operation).size_eq

theorem Sound.perform (hl : l.Sound) (operation : Operation) : (l.perform operation).2.Sound :=
  hl.of_eq (config_perform l operation) (fields_perform l operation) (size_perform l operation)

/-! ### Runs -/

/-- The layout that a sequence of requests leaves, whether they succeed or fail. -/
def run (l : Layout) (operations : List Operation) : Layout :=
  operations.foldl (fun l operation => (l.perform operation).2) l

@[simp] theorem run_nil (l : Layout) : l.run [] = l := rfl

@[simp] theorem run_cons (l : Layout) (operation : Operation) (operations : List Operation) :
    l.run (operation :: operations) = (l.perform operation).2.run operations := rfl

/-- **Induction on a run.** What holds at the beginning and is kept by each request holds at the
end. -/
theorem run_induction {p : Layout → Prop} (hl : p l)
    (hstep : ∀ l operation, p l → p (l.perform operation).2) (operations : List Operation) :
    p (l.run operations) := by
  induction operations generalizing l with
  | nil => exact hl
  | cons operation operations ih => exact ih (hstep l operation hl)

@[simp] theorem config_run (l : Layout) (operations : List Operation) :
    (l.run operations).config = l.config :=
  run_induction (p := fun l' => l'.config = l.config) rfl
    (fun _ _ h => (config_perform _ _).trans h) operations

@[simp] theorem fields_run (l : Layout) (operations : List Operation) :
    (l.run operations).fields = l.fields :=
  run_induction (p := fun l' => l'.fields = l.fields) rfl
    (fun _ _ h => (fields_perform _ _).trans h) operations

@[simp] theorem size_run (l : Layout) (operations : List Operation) :
    (l.run operations).size = l.size :=
  run_induction (p := fun l' => l'.size = l.size) rfl
    (fun _ _ h => (size_perform _ _).trans h) operations

theorem Sound.run (hl : l.Sound) (operations : List Operation) : (l.run operations).Sound :=
  run_induction hl (fun _ operation h => h.perform operation) operations

/-- A layout is reachable if a sequence of requests leaves it of a layout that was built. -/
def Reachable (l : Layout) : Prop :=
  ∃ granted text config built operations,
    build granted text config = .ok built ∧ l = built.run operations

theorem Reachable.sound (hl : l.Reachable) : l.Sound := by
  obtain ⟨granted, text, config, built, operations, hbuilt, rfl⟩ := hl
  exact (sound_of_build hbuilt).run operations

end BinaryLayout.Layout
