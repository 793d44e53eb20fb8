import BinaryLayout.Json.Record
import BinaryLayout.Proofs.Json.Passing
import BinaryLayout.Proofs.Json.Typed
import BinaryLayout.Proofs.Text.Names

/-!
# Records among other members

A record is read member by member, wherever its members stand in an object. What comes of it depends
on no more than the values that the object gives to each of the record's names: there is to be one
value for every name, and it is to mean something to its member. The order of the members does not
count, and neither do members of other names, whatever their values are.

## Main definitions

* `valuesOf`: the values that the members of an object give to a name.
* `Schema.Partial.take`: what a member does to the values that have been read.
* `Schema.Supplies`: the members to come give a record the value that it has at a member.

## Main results

* `Schema.read_eq_ok_iff`: the records that are read off an object.
-/

namespace BinaryLayout.Json

/-- The values of the members with a name, in their order. -/
def valuesOf (name : List Char) (ms : List (Content × Value)) : List Value :=
  (ms.filter fun member => member.1 == some name).map Prod.snd

theorem valuesOf_cons_self (name : List Char) (v : Value) (ms : List (Content × Value)) :
    valuesOf name ((some name, v) :: ms) = v :: valuesOf name ms := by
  rw [valuesOf, List.filter_cons_of_pos (by simp), List.map_cons, valuesOf]

theorem valuesOf_cons_of_ne {name : List Char} {content : Content} (h : content ≠ some name)
    (v : Value) (ms : List (Content × Value)) :
    valuesOf name ((content, v) :: ms) = valuesOf name ms := by
  rw [valuesOf, List.filter_cons_of_neg (by simpa using h), valuesOf]

theorem mem_valuesOf {name : List Char} {v : Value} {ms : List (Content × Value)}
    (h : (some name, v) ∈ ms) : v ∈ valuesOf name ms :=
  List.mem_map.mpr ⟨_, List.mem_filter.mpr ⟨h, beq_self_eq_true _⟩, rfl⟩

namespace Schema

variable {R : Type} {S : Schema R} {values : S.Partial} {record : S.Complete}
  {m other : S.Member} {name : List Char} {content : Content} {v : Json.Value}
  {ms : List (Content × Json.Value)} {s t rest : List Char}

/-! ### Values that have been read -/

theorem Partial.set_self (values : S.Partial) (m : S.Member) (w : S.Value m) :
    values.set m w m = some w := by
  rw [Partial.set]
  split
  · rfl
  · next hne _ => exact absurd rfl hne

theorem Partial.set_of_ne (values : S.Partial) (h : other ≠ m) (w : S.Value m) :
    values.set m w other = values other := by
  rw [Partial.set]
  split
  · next same _ => exact absurd same h
  · rfl

/-- A record is complete when no member is left without a value. -/
theorem Partial.complete_eq_ok_iff :
    values.complete = .ok record ↔ ∀ m, values m = some (record m) := by
  unfold Partial.complete
  split
  · next m hfound =>
    have hnone : values m = none := by simpa using List.find?_some hfound
    refine iff_of_false (by simp) fun h => ?_
    exact absurd (hnone.symm.trans (h m)) (by simp)
  · next hfound =>
    rw [Except.ok.injEq, funext_iff]
    refine forall_congr' fun m => ⟨fun h => h ▸ (Option.some_get _).symm, fun h => ?_⟩
    exact Option.get_of_eq_some _ h

theorem name_injective (S : Schema R) : Function.Injective S.name :=
  Text.injective_of_nodup S.mem_members S.nodup_names

/-- Members with the same name are the same. -/
theorem toList_name_inj : (S.name m).toList = (S.name other).toList ↔ m = other := by
  rw [String.toList_inj, S.name_injective.eq_iff]

theorem member?_eq_some_iff : S.member? name = some m ↔ (S.name m).toList = name :=
  Text.find?_name_eq_some_iff S.mem_members fun _ _ h => toList_name_inj.mp h

/-! ### Members -/

/-- A member sets the value of the record's member with its name, which must not have one yet. Of
other members only the name counts, which must stand for a text. -/
def Partial.take (values : S.Partial) (member : Content × Json.Value) : Option S.Partial :=
  member.1.bind fun name =>
    match S.member? name with
    | some m => if (values m).isSome then none else ((S.kind m).meaning member.2).map (values.set m)
    | none => some values

theorem Partial.toOption_readMember (values : S.Partial) (s : List Char) :
    (values.readMember s).toOption = (readText s).toOption.bind fun (name, s) =>
      match S.member? name with
      | some m =>
        if (values m).isSome then none
        else (takeMark ':' s).toOption.bind fun s => ((S.kind m).read s).toOption.map fun (w, s) =>
          (values.set m w, s)
      | none => (takeMark ':' s).toOption.bind fun s => (skipValue s).toOption.map fun s =>
          (values, s) := by
  rw [Partial.readMember]
  rcases readText s with _ | ⟨name, s⟩
  · rfl
  dsimp only [toOption_ok, Option.bind_some]
  cases S.member? name with
  | some m =>
    dsimp only
    split_ifs
    · rfl
    rcases takeMark ':' s with _ | s
    · rfl
    dsimp only [toOption_ok, Option.bind_some]
    rcases (S.kind m).read s with _ | ⟨w, s⟩ <;> rfl
  | none =>
    dsimp only
    rcases takeMark ':' s with _ | s
    · rfl
    dsimp only [toOption_ok, Option.bind_some]
    rcases skipValue s with _ | s <;> rfl

/-- **One member.** A member is taken from behind the quote before its name, with its value. -/
theorem Partial.readMember_of_spells (hname : Spells content s) {between : List Char}
    (hbetween : IsSpaced between) (h : Written (.slot v) t) (hrest : EndsSlot rest)
    (values : S.Partial) :
    ∃ after, IsSpaced after ∧
      (values.readMember (s ++ '"' :: (between ++ ':' :: (t ++ rest)))).toOption =
        (values.take (content, v)).map (·, after ++ rest) := by
  have hcolon : takeMark ':' (between ++ ':' :: (t ++ rest)) = .ok (t ++ rest) :=
    takeMark_append hbetween (by decide) _
  obtain ⟨after, hafter, hskip⟩ := h.skipValue_eq
  rw [Partial.toOption_readMember, hname.readText_eq, Option.bind_map, Partial.take]
  cases content with
  | none => exact ⟨[], isSpaced_nil, rfl⟩
  | some name =>
    simp only [Option.bind_some, Function.comp_apply, hcolon, toOption_ok]
    cases S.member? name with
    | none => exact ⟨after, hafter, by simp only [hskip rest hrest, toOption_ok, Option.map_some]⟩
    | some m =>
      cases h with
      | @slot _ before s after hbefore h hafter =>
        refine ⟨after, hafter, ?_⟩
        have hread := (S.kind m).reads_read v s before (after ++ rest) h hbefore
          (hrest.endsValue_append hafter)
        simp only [List.append_assoc, hread]
        split_ifs
        · rfl
        · simp only [Option.map_map, Function.comp_def]

theorem Partial.toOption_finish (values : S.Partial) (rest : List Char) :
    (values.finish rest).toOption = values.complete.toOption.map (·, rest) := by
  rw [Partial.finish]
  cases values.complete <;> rfl

theorem Partial.toOption_readMembers (values : S.Partial) (s : List Char) :
    (values.readMembers s).toOption = (values.readMember s).toOption.bind fun (values, s) =>
      match skipSpace s with
      | [] => none
      | c :: s =>
        if c = ',' then (takeMark '"' s).toOption.bind fun s => (values.readMembers s).toOption
        else if c = '\x7d' then (values.finish s).toOption
        else none := by
  rw [Partial.readMembers]
  rcases values.readMember s with _ | ⟨values, s⟩
  · rfl
  dsimp only [toOption_ok, Option.bind_some]
  rcases skipSpace s with _ | ⟨c, s⟩
  · rfl
  dsimp only
  split_ifs
  · rcases takeMark '"' s with _ | s <;> rfl
  · rfl
  · rfl

/-- **One step.** A member is taken, and the mark behind it leads to the next one or to the end. -/
theorem Partial.readMembers_of_member (h : Written (.member content v) s) :
    ∃ before t, IsSpaced before ∧ s = before ++ '"' :: t ∧
      ∀ (values : S.Partial) (mark) (_ : mark ∈ closers) (rest),
        (values.readMembers (t ++ mark :: rest)).toOption =
          (values.take (content, v)).bind fun values =>
            if mark = ',' then
              (takeMark '"' rest).toOption.bind fun s => (values.readMembers s).toOption
            else if mark = '\x7d' then (values.finish rest).toOption
            else none := by
  cases h with
  | @member _ _ before s between t hbefore hname hbetween h =>
    refine ⟨before, _, hbefore, rfl, fun values mark hmark rest => ?_⟩
    have hplain : ∀ c ∈ closers, c ∉ spaces := forall_mem_of_all (by decide)
    obtain ⟨after, hafter, hread⟩ := Partial.readMember_of_spells hname hbetween h
      (endsSlot_cons hmark rest) values
    rw [List.append_assoc, List.cons_append, List.append_assoc, List.cons_append,
      Partial.toOption_readMembers, hread, Option.bind_map]
    simp only [Function.comp_def, skipSpace_append hafter, skipSpace_cons (hplain mark hmark)]

/-- **All members.** Members are taken one after the other, up to the closing bracket. -/
theorem Partial.readMembers_of_written (h : Written (.members ms) s) :
    ∃ before t, IsSpaced before ∧ s = before ++ '"' :: t ∧
      ∀ (values : S.Partial) rest, (values.readMembers (t ++ '\x7d' :: rest)).toOption =
        (ms.foldlM Partial.take values).bind fun values =>
          (values.finish rest).toOption := by
  induction ms generalizing s with
  | nil => cases h
  | cons member ms ih =>
    cases h with
    | lastMember h =>
      obtain ⟨before, t, hbefore, rfl, hstep⟩ := Partial.readMembers_of_member (S := S) h
      refine ⟨before, t, hbefore, rfl, fun values rest => ?_⟩
      simp only [hstep values _ (by decide : '\x7d' ∈ closers), (by decide : '\x7d' ≠ ','),
        if_false, if_true, List.foldlM_cons, List.foldlM_nil, Option.bind_eq_bind, Option.pure_def,
        Option.bind_fun_some]
    | @members _ _ _ s u h ht =>
      obtain ⟨before, t, hbefore, rfl, hstep⟩ := Partial.readMembers_of_member (S := S) h
      obtain ⟨between, u, hbetween, rfl, hmembers⟩ := ih ht
      have hquote (rest : List Char) : takeMark '"' (between ++ '"' :: (u ++ '\x7d' :: rest)) =
          .ok (u ++ '\x7d' :: rest) := takeMark_append hbetween (by decide) _
      refine ⟨before, t ++ ',' :: (between ++ '"' :: u), hbefore, by simp, fun values rest => ?_⟩
      simp only [List.append_assoc, List.cons_append, hstep values _ (by decide : ',' ∈ closers),
        if_true, hquote, toOption_ok, Option.bind_some, hmembers, List.foldlM_cons,
        Option.bind_eq_bind, Option.bind_assoc]

/-- **Objects.** A record is read off an object by taking its members. -/
theorem readRecord_of_written (h : Written (.value (.object ms)) s) {before : List Char}
    (hbefore : IsSpaced before) (rest : List Char) :
    (S.readRecord (before ++ (s ++ rest))).toOption =
      (ms.foldlM Partial.take S.unread).bind fun values =>
        values.complete.toOption.map (·, rest) := by
  have hobject (t : List Char) : S.readRecord (before ++ '\x7b' :: t) = S.readObject t := by
    simp only [readRecord, skipSpace_append hbefore, skipSpace_cons (by decide : '\x7b' ∉ spaces),
      (by decide : '\x7b' ≠ '['), if_false, if_true]
  cases h with
  | @emptyObject s hs =>
    simp only [List.append_assoc, List.cons_append, hobject, readObject, skipSpace_append hs,
      List.nil_append, skipSpace_cons (by decide : '\x7d' ∉ spaces), if_true,
      Partial.toOption_finish, List.foldlM_nil, Option.pure_def, Option.bind_some]
  | @object ms s h =>
    obtain ⟨before, t, hspaced, rfl, hmembers⟩ := Partial.readMembers_of_written (S := S) h
    simp only [List.append_assoc, List.cons_append, hobject, readObject, skipSpace_append hspaced,
      List.nil_append, skipSpace_cons (by decide : '"' ∉ spaces), (by decide : '"' ≠ '\x7d'),
      if_false, if_true, hmembers, Partial.toOption_finish]

/-- **Documents.** So it is when the object is all that the text holds. -/
theorem read_of_written {text : String} (h : Written (.slot (.object ms)) text.toList) :
    (S.read text).toOption =
      (ms.foldlM Partial.take S.unread).bind fun values =>
        values.complete.toOption.map S.make := by
  generalize htext : text.toList = s at h
  cases h with
  | @slot _ before s after hbefore h hafter =>
    have hend : skipSpace after = [] := by
      rw [← List.append_nil after, skipSpace_append hafter]
      rfl
    have hrecord := readRecord_of_written (S := S) h hbefore after
    have hread : (S.read text).toOption = (S.readRecord text.toList).toOption.bind
        fun (record, rest) =>
          if (skipSpace rest).isEmpty then some (S.make record) else none := by
      rw [read]
      rcases S.readRecord text.toList with _ | ⟨record, rest⟩
      · rfl
      · dsimp only [toOption_ok, Option.bind_some]
        split_ifs <;> rfl
    have hmake (record : Option S.Complete) :
        record.bind (fun record => some (S.make record)) = record.map S.make :=
      Option.map_eq_bind.symm
    simp only [hread, htext, hrecord, Option.bind_assoc, Option.bind_map, Function.comp_def, hend,
      List.isEmpty_nil, if_true, hmake]

/-! ### What the members come to -/

/-- The record has its value at the member either from what has been read, so that no value is to
come, or from the one value that is to come. -/
def Supplies (record : S.Complete) (m : S.Member) (read : Option (S.Value m))
    (toCome : List Json.Value) : Prop :=
  match read with
  | some w => toCome = [] ∧ w = record m
  | none => ∃ v, toCome = [v] ∧ (S.kind m).meaning v = some (record m)

/-- A value that comes is the one that is to come, and supplies what it means. -/
theorem supplies_none_cons (v : Json.Value) (vs : List Json.Value) :
    Supplies record m none (v :: vs) ↔
      ∃ w, (S.kind m).meaning v = some w ∧ Supplies record m (some w) vs := by
  constructor
  · rintro ⟨_, h, hmeaning⟩
    obtain ⟨rfl, rfl⟩ := List.cons.inj h
    exact ⟨_, hmeaning, rfl, rfl⟩
  · rintro ⟨_, hmeaning, rfl, rfl⟩
    exact ⟨v, rfl, hmeaning⟩

/-- No value may come where one has been read. -/
theorem not_supplies_some_cons (w : S.Value m) (v : Json.Value) (vs : List Json.Value) :
    ¬ Supplies record m (some w) (v :: vs) :=
  fun h => List.cons_ne_nil _ _ h.1

/-- A value that is set takes the place of the first one that is to come. -/
theorem Partial.supplies_set_iff {w : S.Value m}
    (hread : values m = none) (hmeaning : (S.kind m).meaning v = some w) :
    (∀ other, Supplies record other (values.set m w other)
        (valuesOf (S.name other).toList ms)) ↔
      ∀ other, Supplies record other (values other)
        (valuesOf (S.name other).toList ((some (S.name m).toList, v) :: ms)) := by
  refine forall_congr' fun other => ?_
  by_cases hm : other = m
  · subst hm
    simp only [values.set_self, hread, valuesOf_cons_self, supplies_none_cons, hmeaning,
      Option.some.injEq, exists_eq_left']
  · have hne : some (S.name m).toList ≠ some (S.name other).toList := fun h =>
      hm (toList_name_inj.mp (Option.some.inj h)).symm
    rw [values.set_of_ne hm, valuesOf_cons_of_ne hne]

/-- **Taking one member.** A member can be taken, so that it and the members behind it supply a
record, if its name is a text and they do so before it is taken. -/
theorem Partial.exists_take_iff (values : S.Partial)
    (content : Content) (v : Json.Value) (ms : List (Content × Json.Value)) :
    (∃ values', values.take (content, v) = some values' ∧
        ∀ m, Supplies record m (values' m) (valuesOf (S.name m).toList ms)) ↔
      content.isSome ∧ ∀ m, Supplies record m (values m)
        (valuesOf (S.name m).toList ((content, v) :: ms)) := by
  cases content with
  | none => simp [Partial.take]
  | some name =>
    simp only [Partial.take, Option.bind_some, Option.isSome_some, true_and]
    cases hfind : S.member? name with
    | none =>
      have hother (m : S.Member) : some name ≠ some (S.name m).toList := fun h =>
        absurd ((member?_eq_some_iff).mpr (Option.some.inj h).symm)
          (hfind ▸ Option.some_ne_none m).symm
      simp only [Option.some.injEq, exists_eq_left', valuesOf_cons_of_ne (hother _)]
    | some m =>
      obtain rfl := (member?_eq_some_iff).mp hfind
      cases hread : values m with
      | some w =>
        refine iff_of_false (by simp [hread]) fun h => ?_
        have hm := h m
        rw [hread, valuesOf_cons_self] at hm
        exact not_supplies_some_cons w v _ hm
      | none =>
        simp only [hread, Option.isSome_none, Bool.false_eq_true, if_false]
        cases hmeaning : (S.kind m).meaning v with
        | none =>
          refine iff_of_false (by simp) fun h => ?_
          have hm := h m
          rw [hread, valuesOf_cons_self, supplies_none_cons] at hm
          exact absurd hm (by simp [hmeaning])
        | some w =>
          simp only [Option.map_some, Option.some.injEq, exists_eq_left']
          exact Partial.supplies_set_iff hread hmeaning

/-- **Taking members.** The members make up a record if they supply each of its values. -/
theorem Partial.foldlM_take_eq_some_iff :
    (ms.foldlM Partial.take values = some fun m => some (record m)) ↔
      (∀ member ∈ ms, member.1.isSome) ∧
        ∀ m, Supplies record m (values m) (valuesOf (S.name m).toList ms) := by
  induction ms generalizing values with
  | nil =>
    have hnone (m : S.Member) : Supplies record m (values m) [] ↔
        values m = some (record m) := by
      cases values m <;> simp [Supplies]
    simp only [List.foldlM_nil, Option.pure_def, Option.some.injEq, funext_iff, valuesOf,
      List.filter_nil, List.map_nil, hnone, List.not_mem_nil, false_implies, implies_true,
      true_and]
  | cons member ms ih =>
    obtain ⟨content, v⟩ := member
    rw [List.foldlM_cons, Option.bind_eq_bind, Option.bind_eq_some_iff, List.forall_mem_cons,
      and_right_comm, ← Partial.exists_take_iff, exists_and_right.symm]
    simp only [ih, and_assoc, and_comm, and_left_comm]

/-- **Records in objects.** A text that holds an object is read as a record if the names in the
object stand for texts and the object has one value for each of the record's names, which means the
record's value. -/
theorem read_eq_ok_iff {text : String} (h : Written (.slot (.object ms)) text.toList) {r : R} :
    S.read text = .ok r ↔ (∀ member ∈ ms, member.1.isSome) ∧
      ∀ m, ∃ v, valuesOf (S.name m).toList ms = [v] ∧
        (S.kind m).meaning v = some (S.value r m) := by
  have hcomplete (values : S.Partial) : values.complete.toOption.map S.make = some r ↔
      values = fun m => some (S.value r m) := by
    have hmake (record : S.Complete) : S.make record = r ↔ record = S.value r :=
      ⟨fun h => h ▸ (S.value_make record).symm, fun h => h ▸ S.make_value r⟩
    simp only [Option.map_eq_some_iff, hmake, exists_eq_right, toOption_eq_some_iff]
    rw [Partial.complete_eq_ok_iff, funext_iff]
  rw [← toOption_eq_some_iff, read_of_written h, Option.bind_eq_some_iff]
  simp only [hcomplete, exists_eq_right, Partial.foldlM_take_eq_some_iff]
  rfl

end Schema

end BinaryLayout.Json
