import BinaryLayout.Proofs.Json.Records
import Mathlib.Data.List.Nodup
import Mathlib.Data.List.Perm.Basic

/-!
# Readers of records

What is asked of a reader of records, whichever it is. A reader of JSON texts does not care how an
object is written, nor in which order it has members of different names. A reader that is derived
from the schema of a record passes over a member of another name, refuses one that comes twice in a
row and an object with but some of the members, and reads all members in their order as what their
values mean.

From so much it follows which objects are read, in whatever order their members stand and whatever
stands among them: a member is brought to its place by exchanges of neighbours, and what is not
wanted is left out.

## Main definitions

* `FollowsGrammar`: the laws of a reader of JSON texts.
* `Schema.Derives`: the laws of a reader that is derived from a schema.

## Main results

* `Schema.Derives.read_eq_ok_iff`: the records that such a reader finds in an object.
* `Schema.followsGrammar_read`, `Schema.derives_read`: the reader of records keeps the laws.
-/

namespace BinaryLayout.Json

variable {ε R : Type} {read : String → Except ε R} {r : R} {text : String} {c : Char}
  {s n : List Char} {v w : Json.Value} {ms : List (Content × Json.Value)}

/-! ### Values of a name -/

theorem valuesOf_append (n : List Char) (ms ms' : List (Content × Json.Value)) :
    valuesOf n (ms ++ ms') = valuesOf n ms ++ valuesOf n ms' := by
  rw [valuesOf, List.filter_append, List.map_append, valuesOf, valuesOf]

/-- Neighbours of different names change places. -/
theorem valuesOf_swap {member other : Content × Json.Value} (hne : member.1 ≠ other.1)
    (n : List Char) (ms : List (Content × Json.Value)) :
    valuesOf n (member :: other :: ms) = valuesOf n (other :: member :: ms) := by
  have hcons (x : Content × Json.Value) (l : List (Content × Json.Value)) :
      valuesOf n (x :: l) = valuesOf n [x] ++ valuesOf n l := valuesOf_append n [x] l
  have hnil {x : Content × Json.Value} (hx : x.1 ≠ some n) : valuesOf n [x] = [] :=
    valuesOf_cons_of_ne hx x.2 []
  rw [hcons member (other :: ms), hcons other ms, hcons other (member :: ms), hcons member ms]
  by_cases hmember : member.1 = some n
  · rw [hnil fun hother => hne (hmember.trans hother.symm), List.nil_append, List.nil_append]
  · rw [hnil hmember, List.nil_append, List.nil_append]

theorem filter_name_eq_map (n : List Char) (ms : List (Content × Json.Value)) :
    (ms.filter fun member => member.1 == some n) = (valuesOf n ms).map fun v => (some n, v) := by
  rw [valuesOf, List.map_map]
  refine ((List.map_congr_left fun member hmem => ?_).trans (List.map_id _)).symm
  have hname : member.1 = some n := beq_iff_eq.mp (List.of_mem_filter hmem :)
  exact Prod.ext hname.symm rfl

/-- Two values of a name are those of two members. -/
theorem exists_split_of_length_valuesOf (h : 1 < (valuesOf n ms).length) :
    ∃ before v between w after,
      ms = before ++ (some n, v) :: (between ++ (some n, w) :: after) := by
  rw [valuesOf, List.length_map] at h
  rcases hfilter : ms.filter fun member => member.1 == some n with
    _ | ⟨⟨_, v⟩, _ | ⟨⟨_, w⟩, rest⟩⟩
  · simp [hfilter] at h
  · simp [hfilter] at h
  obtain ⟨before, later, rfl, -, hv, hlater⟩ := List.filter_eq_cons_iff.mp hfilter
  obtain ⟨between, after, rfl, -, hw, -⟩ := List.filter_eq_cons_iff.mp hlater
  obtain rfl := beq_iff_eq.mp hv
  obtain rfl := beq_iff_eq.mp hw
  exact ⟨before, v, between, w, after, rfl⟩

/-! ### Objects with given members -/

/-- The text is an object with the members, in their order. -/
abbrev WritesObject (ms : List (Content × Value)) (text : String) : Prop :=
  Written (.slot (.object ms)) text.toList

theorem Written.exists_member (h : Written (.members ms) s) :
    ∀ member ∈ ms, ∃ t, Written (.member member.1 member.2) t := by
  induction ms generalizing s with
  | nil => exact fun _ hmem => absurd hmem List.not_mem_nil
  | cons member ms ih =>
    cases h with
    | lastMember h => exact List.forall_mem_singleton.mpr ⟨_, h⟩
    | members h ht => exact List.forall_mem_cons.mpr ⟨⟨_, h⟩, ih ht⟩

theorem exists_written_members {member : Content × Value}
    (h : ∀ other ∈ member :: ms, ∃ t, Written (.member other.1 other.2) t) :
    ∃ s, Written (.members (member :: ms)) s := by
  induction ms generalizing member with
  | nil =>
    obtain ⟨t, ht⟩ := List.forall_mem_singleton.mp h
    exact ⟨t, .lastMember ht⟩
  | cons next ms ih =>
    obtain ⟨⟨t, ht⟩, hrest⟩ := List.forall_mem_cons.mp h
    obtain ⟨s, hs⟩ := ih hrest
    exact ⟨_, .members ht hs⟩

/-- The members of an object that is written can be written as another object, some of them left out
or all in another order. -/
theorem exists_writesObject_of_subset {ms' : List (Content × Value)}
    (h : ∃ text, WritesObject ms text) (hsub : ms' ⊆ ms) : ∃ text, WritesObject ms' text := by
  have hmembers : ∀ member ∈ ms, ∃ t, Written (.member member.1 member.2) t := by
    obtain ⟨text, h⟩ := h
    rw [WritesObject] at h
    generalize text.toList = s at h
    cases h with
    | slot _ h _ =>
      cases h with
      | emptyObject => exact fun _ hmem => absurd hmem List.not_mem_nil
      | object h => exact h.exists_member
  have hobject : ∃ s, Written (.value (.object ms')) s := by
    cases ms' with
    | nil => exact ⟨_, .emptyObject isSpaced_nil⟩
    | cons member ms' =>
      obtain ⟨s, hs⟩ := exists_written_members fun other hmem => hmembers other (hsub hmem)
      exact ⟨_, .object hs⟩
  obtain ⟨s, hs⟩ := hobject
  refine ⟨String.ofList s, ?_⟩
  rw [WritesObject, String.toList_ofList]
  exact hs.slot_of_value

/-! ### Readers of texts -/

/-- **The grammar.** What the reader finds in an object depends on its members alone: the object may
be written in any way, and neighbours may change places unless they have the same name. -/
structure FollowsGrammar (read : String → Except ε R) : Prop where
  /-- An object is read alike in whatever way it is written. -/
  alike : ∀ {ms : List (Content × Value)} {text text' : String} {r : R}, WritesObject ms text →
    WritesObject ms text' → read text = .ok r → read text' = .ok r
  /-- Neighbouring members of different names may change places. -/
  unordered : ∀ {before after : List (Content × Value)} {member other : Content × Value}
    {text text' : String} {r : R}, member.1 ≠ other.1 →
    WritesObject (before ++ member :: other :: after) text →
    WritesObject (before ++ other :: member :: after) text' →
    read text = .ok r → read text' = .ok r

/-- The reader finds the record in an object with the members. -/
def Finds (read : String → Except ε R) (ms : List (Content × Value)) (r : R) : Prop :=
  ∃ text, WritesObject ms text ∧ read text = .ok r

namespace FollowsGrammar

variable (hread : FollowsGrammar read)

include hread

theorem finds_iff (h : WritesObject ms text) : Finds read ms r ↔ read text = .ok r :=
  ⟨fun ⟨_, h', hr⟩ => hread.alike h' h hr, fun hr => ⟨text, h, hr⟩⟩

/-- Two neighbours change places. -/
theorem finds_swap {before after : List (Content × Value)} {member other : Content × Value}
    (hne : member.1 ≠ other.1) (h : Finds read (before ++ member :: other :: after) r) :
    Finds read (before ++ other :: member :: after) r := by
  obtain ⟨text, h, hr⟩ := h
  have hswap : before ++ other :: member :: after ⊆ before ++ member :: other :: after :=
    ((List.Perm.swap member other after).append_left before).subset
  obtain ⟨text', h'⟩ := exists_writesObject_of_subset ⟨text, h⟩ hswap
  exact ⟨text', h', hread.unordered hne h h' hr⟩

/-- Members of different names may come in any order. -/
theorem finds_of_perm {l l' : List (Content × Value)} (hperm : l.Perm l')
    (hnodup : (l.map Prod.fst).Nodup) (before : List (Content × Value))
    (h : Finds read (before ++ l) r) : Finds read (before ++ l') r := by
  induction hperm generalizing before with
  | nil => exact h
  | cons member _ ih =>
    rw [List.append_cons] at h ⊢
    exact ih (List.nodup_cons.mp hnodup).2 _ h
  | swap member other l =>
    have hne : other.1 ≠ member.1 := fun heq =>
      (List.nodup_cons.mp hnodup).1 (heq ▸ List.mem_cons_self)
    exact hread.finds_swap hne h
  | trans hfirst _ ih ih' =>
    exact ih' ((hfirst.map Prod.fst).nodup hnodup) before (ih hnodup before h)

end FollowsGrammar

/-! ### Derived readers -/

namespace Schema

/-- The object that has some of the members with the given values. -/
def object (S : Schema R) (members : List S.Member) (values : S.Member → Json.Value) :
    List (Content × Json.Value) :=
  members.map fun m => (some (S.name m).toList, values m)

theorem object_cons (S : Schema R) (m : S.Member) (members : List S.Member)
    (values : S.Member → Json.Value) : S.object (m :: members) values =
      (some (S.name m).toList, values m) :: S.object members values := rfl

/-- **Deriving.** What the reader does about the members of an object comes from the schema. -/
structure Derives (S : Schema R) (read : String → Except ε R) : Prop where
  /-- Every name must be a text. -/
  textual : ∀ {ms : List (Content × Json.Value)} {text : String} {r : R}, WritesObject ms text →
    read text = .ok r → ∀ member ∈ ms, member.1.isSome
  /-- A member of another name is passed over. -/
  ignored : ∀ {before after : List (Content × Json.Value)} {name : List Char} {v : Json.Value}
    {text text' : String} {r : R}, (∀ m, (S.name m).toList ≠ name) →
    WritesObject (before ++ (some name, v) :: after) text → WritesObject (before ++ after) text' →
    (read text = .ok r ↔ read text' = .ok r)
  /-- A member that comes twice in a row is refused. -/
  repeated : ∀ {before after : List (Content × Json.Value)} {m : S.Member} {v w : Json.Value}
    {text : String} {r : R}, WritesObject
      (before ++ (some (S.name m).toList, v) :: (some (S.name m).toList, w) :: after) text →
    read text ≠ .ok r
  /-- An object with but some of the members is refused. -/
  missing : ∀ {members : List S.Member} {values : S.Member → Json.Value} {text : String} {r : R},
    members.Sublist S.members → members ≠ S.members → WritesObject (S.object members values) text →
    read text ≠ .ok r
  /-- All members in their order are read as what their values mean. -/
  typed : ∀ {values : S.Member → Json.Value} {text : String} {r : R},
    WritesObject (S.object S.members values) text →
    (read text = .ok r ↔ ∀ m, (S.kind m).meaning (values m) = some (S.value r m))

variable {S : Schema R} {m : S.Member} {members : List S.Member}

/-- Whether the schema has a member of that name. -/
def declares (members : List S.Member) (member : Content × Json.Value) : Bool :=
  members.any fun m => member.1 == some (S.name m).toList

theorem nodup_members (S : Schema R) : S.members.Nodup := S.nodup_names.of_map S.name

/-- The members of an object that the schema has are, in another order, those of the first name,
those of the second and so on. -/
theorem filter_declares_perm (hnodup : members.Nodup) (ms : List (Content × Json.Value)) :
    (ms.filter (declares members)).Perm
      (members.flatMap fun m => ms.filter fun member => member.1 == some (S.name m).toList) := by
  induction members with
  | nil => simp [declares]
  | cons m members ih =>
    obtain ⟨hnotMem, hrest⟩ := List.nodup_cons.mp hnodup
    set isFirst : Content × Json.Value → Bool := fun member => member.1 == some (S.name m).toList
    have hfirst : (ms.filter (declares (m :: members))).filter isFirst = ms.filter isFirst := by
      rw [List.filter_filter]
      refine List.filter_congr fun member _ => ?_
      cases hmember : isFirst member with
      | false => rfl
      | true =>
        rw [declares, List.any_cons, Bool.true_and]
        exact Bool.or_eq_true_iff.mpr (Or.inl hmember)
    have hothers : (ms.filter (declares (m :: members))).filter (fun member => !isFirst member) =
        ms.filter (declares members) := by
      rw [List.filter_filter]
      refine List.filter_congr fun member _ => ?_
      have hcons : declares (m :: members) member =
          (isFirst member || declares members member) := List.any_cons
      cases hmember : isFirst member with
      | false => rw [hcons, hmember, Bool.not_false, Bool.true_and, Bool.false_or]
      | true =>
        have hne : declares members member = false := by
          have hname : member.1 = some (S.name m).toList := beq_iff_eq.mp hmember
          simp only [declares, List.any_eq_false, hname, beq_iff_eq, Option.some.injEq,
            toList_name_inj]
          exact fun other hother heq => hnotMem (heq ▸ hother)
        rw [hne, Bool.not_true, Bool.false_and]
    have hsplit := (List.filter_append_perm isFirst (ms.filter (declares (m :: members)))).symm
    rw [hfirst, hothers] at hsplit
    exact hsplit.trans ((ih hrest).append_left _)

/-- The members that have a value. -/
def present (S : Schema R) (ms : List (Content × Json.Value)) : List S.Member :=
  S.members.filter fun m => !(valuesOf (S.name m).toList ms).isEmpty

/-- The first value of a member. -/
def firstOf (S : Schema R) (ms : List (Content × Json.Value)) (m : S.Member) : Json.Value :=
  (valuesOf (S.name m).toList ms).headD .null

/-- If no member comes twice, those of the schema are, in another order, the object of the members
that have a value. -/
theorem filter_declares_perm_object (hone : ∀ m, (valuesOf (S.name m).toList ms).length ≤ 1) :
    (ms.filter (declares S.members)).Perm (S.object (S.present ms) (S.firstOf ms)) := by
  have heq (members : List S.Member) :
      (members.flatMap fun m => ms.filter fun member => member.1 == some (S.name m).toList) =
        S.object (members.filter fun m => !(valuesOf (S.name m).toList ms).isEmpty)
          (S.firstOf ms) := by
    induction members with
    | nil => rfl
    | cons m members ih =>
      rw [List.flatMap_cons, ih, filter_name_eq_map]
      rcases hvalues : valuesOf (S.name m).toList ms with _ | ⟨v, _ | ⟨w, vs⟩⟩
      · rw [List.filter_cons_of_neg (by simp [hvalues])]
        rfl
      · have hfirst : S.firstOf ms m = v := by
          rw [firstOf, hvalues]
          rfl
        rw [List.filter_cons_of_pos (by simp [hvalues]), object_cons, hfirst]
        rfl
      · exact absurd (hvalues ▸ hone m) (by simp)
  exact heq S.members ▸ filter_declares_perm S.nodup_members ms

theorem nodup_names_object (hnodup : members.Nodup) (values : S.Member → Json.Value) :
    ((S.object members values).map Prod.fst).Nodup := by
  rw [object, List.map_map]
  exact hnodup.map fun m other h => toList_name_inj.mp (Option.some.inj h)

namespace Derives

variable (hderives : S.Derives read) (hgrammar : FollowsGrammar read)

include hderives hgrammar

/-- The members of other names do not count, wherever they stand. -/
theorem finds_filter_iff {l : List (Content × Json.Value)} (hnames : ∀ member ∈ l, member.1.isSome)
    (before : List (Content × Json.Value)) (h : ∃ text, WritesObject (before ++ l) text) :
    Finds read (before ++ l) r ↔ Finds read (before ++ l.filter (declares S.members)) r := by
  induction l generalizing before with
  | nil => rfl
  | cons member l ih =>
    obtain ⟨hname, hrest⟩ := List.forall_mem_cons.mp hnames
    cases hmember : declares S.members member with
    | true =>
      rw [List.filter_cons_of_pos hmember, List.append_cons before member l,
        List.append_cons before member (l.filter _)]
      exact ih hrest _ (List.append_cons before member l ▸ h)
    | false =>
      obtain ⟨content, v⟩ := member
      obtain ⟨name, rfl⟩ := Option.isSome_iff_exists.mp hname
      have hother (m : S.Member) : (S.name m).toList ≠ name := by
        rintro rfl
        exact absurd hmember (by simpa [declares] using ⟨m, S.mem_members m, rfl⟩)
      have hsub : before ++ l ⊆ before ++ (some name, v) :: l :=
        ((List.sublist_cons_self _ l).append_left before).subset
      have hsmaller := exists_writesObject_of_subset h hsub
      rw [List.filter_cons_of_neg (by simp [hmember]), ← ih hrest before hsmaller]
      obtain ⟨text, h⟩ := h
      obtain ⟨text', h'⟩ := hsmaller
      rw [hgrammar.finds_iff h, hgrammar.finds_iff h']
      exact hderives.ignored hother h h'

/-- A member that comes again is refused, also when others stand between. -/
theorem not_finds_of_repeated {before between after : List (Content × Json.Value)} :
    ¬ Finds read (before ++ (some (S.name m).toList, v) ::
      (between ++ (some (S.name m).toList, w) :: after)) r := by
  have hrow {before after : List (Content × Json.Value)} {v w : Json.Value} :
      ¬ Finds read (before ++ (some (S.name m).toList, v) :: (some (S.name m).toList, w) :: after)
        r := fun ⟨_, h, hr⟩ => hderives.repeated h hr
  induction between generalizing before with
  | nil => exact hrow
  | cons next between ih =>
    intro h
    by_cases hnext : next.1 = some (S.name m).toList
    · obtain ⟨content, u⟩ := next
      obtain rfl : content = some (S.name m).toList := hnext
      exact hrow h
    · have hswap := hgrammar.finds_swap (Ne.symm hnext) h
      rw [List.append_cons] at hswap
      exact ih hswap

/-- **Objects.** A record is found in an object whose names are texts and which has one value for
each of the record's names, which means the record's value. -/
theorem read_eq_ok_iff (h : WritesObject ms text) :
    read text = .ok r ↔ (∀ member ∈ ms, member.1.isSome) ∧
      ∀ m, ∃ v, valuesOf (S.name m).toList ms = [v] ∧
        (S.kind m).meaning v = some (S.value r m) := by
  by_cases hnames : ∀ member ∈ ms, member.1.isSome
  swap
  · exact iff_of_false (fun hr => hnames (hderives.textual h hr)) fun hr => hnames hr.1
  rw [and_iff_right hnames, ← hgrammar.finds_iff h]
  by_cases hone : ∀ m, (valuesOf (S.name m).toList ms).length ≤ 1
  swap
  · obtain ⟨m, hm⟩ := not_forall.mp hone
    refine iff_of_false ?_ fun hr => hm ?_
    · obtain ⟨before, v, between, w, after, rfl⟩ := exists_split_of_length_valuesOf (not_le.mp hm)
      exact hderives.not_finds_of_repeated hgrammar
    · obtain ⟨v, hv, _⟩ := hr m
      rw [hv, List.length_singleton]
  have hperm := filter_declares_perm_object hone
  have hnodup : ((S.object (S.present ms) (S.firstOf ms)).map Prod.fst).Nodup :=
    nodup_names_object (S.nodup_members.filter _) _
  have hobject : Finds read ms r ↔ Finds read (S.object (S.present ms) (S.firstOf ms)) r :=
    (hderives.finds_filter_iff hgrammar hnames [] ⟨text, h⟩).trans
      ⟨hgrammar.finds_of_perm hperm (((hperm.map Prod.fst).nodup_iff).mpr hnodup) [],
        hgrammar.finds_of_perm hperm.symm hnodup []⟩
  obtain ⟨text', h'⟩ := exists_writesObject_of_subset ⟨text, h⟩
    fun _ hmem => List.mem_of_mem_filter (hperm.symm.subset hmem)
  rw [hobject, hgrammar.finds_iff h']
  by_cases hall : S.present ms = S.members
  · rw [hall] at h'
    rw [hderives.typed h']
    refine forall_congr' fun m => ?_
    have hpresent : valuesOf (S.name m).toList ms ≠ [] := by
      have hmem := hall ▸ S.mem_members m
      simpa [present, S.mem_members] using hmem
    obtain ⟨v, hv⟩ := List.length_eq_one_iff.mp
      (le_antisymm (hone m) (List.length_pos_of_ne_nil hpresent))
    simp [firstOf, hv]
  · refine iff_of_false (hderives.missing List.filter_sublist hall h') fun hr => hall ?_
    refine List.filter_eq_self.mpr fun m _ => ?_
    obtain ⟨v, hv, _⟩ := hr m
    rw [hv]
    rfl

end Derives

/-! ### The reader -/

theorem valuesOf_object_of_notMem {values : S.Member → Json.Value} (hm : m ∉ members) :
    valuesOf (S.name m).toList (S.object members values) = [] := by
  induction members with
  | nil => rfl
  | cons other members ih =>
    obtain ⟨hne, hrest⟩ := not_or.mp (List.mem_cons.not.mp hm)
    have hname : some (S.name other).toList ≠ some (S.name m).toList := fun h =>
      hne (toList_name_inj.mp (Option.some.inj h)).symm
    rw [object_cons, valuesOf_cons_of_ne hname, ih hrest]

theorem valuesOf_object {values : S.Member → Json.Value} (hnodup : members.Nodup)
    (hm : m ∈ members) : valuesOf (S.name m).toList (S.object members values) = [values m] := by
  induction members with
  | nil => exact absurd hm List.not_mem_nil
  | cons other members ih =>
    obtain ⟨hother, hrest⟩ := List.nodup_cons.mp hnodup
    rcases List.mem_cons.mp hm with rfl | hm
    · rw [object_cons, valuesOf_cons_self, valuesOf_object_of_notMem hother]
    · have hname : some (S.name other).toList ≠ some (S.name m).toList := fun h =>
        hother (toList_name_inj.mp (Option.some.inj h) ▸ hm)
      rw [object_cons, valuesOf_cons_of_ne hname, ih hrest hm]

theorem isSome_of_mem_object {values : S.Member → Json.Value} :
    ∀ member ∈ S.object members values, member.1.isSome := by
  rw [object, List.forall_mem_map]
  exact fun _ _ => rfl

/-- The reader follows the grammar. -/
theorem followsGrammar_read (S : Schema R) : FollowsGrammar S.read where
  alike h h' hr := (S.read_eq_ok_iff h').mpr ((S.read_eq_ok_iff h).mp hr)
  unordered {before after member other _ _ _} hne h h' hr := by
    obtain ⟨hnames, hvalues⟩ := (S.read_eq_ok_iff h).mp hr
    refine (S.read_eq_ok_iff h').mpr ⟨fun x hx => hnames x ?_, fun m => ?_⟩
    · exact ((List.Perm.swap member other after).append_left before).subset hx
    · rw [valuesOf_append, valuesOf_swap hne.symm, ← valuesOf_append]
      exact hvalues m

/-- The reader comes from the schema. -/
theorem derives_read (S : Schema R) : S.Derives S.read where
  textual h hr := ((S.read_eq_ok_iff h).mp hr).1
  ignored {before after name v _ _ _} hname h h' := by
    rw [S.read_eq_ok_iff h, S.read_eq_ok_iff h']
    have hvalues (m : S.Member) :
        valuesOf (S.name m).toList (before ++ (some name, v) :: after) =
          valuesOf (S.name m).toList (before ++ after) := by
      have hne : some name ≠ some (S.name m).toList := fun h => hname m (Option.some.inj h).symm
      rw [valuesOf_append, valuesOf_cons_of_ne hne, ← valuesOf_append]
    simp only [hvalues, List.forall_mem_append, List.forall_mem_cons, Option.isSome_some, true_and]
  repeated {before after m v w _ _} h hr := by
    obtain ⟨u, hu, _⟩ := ((S.read_eq_ok_iff h).mp hr).2 m
    have hlength := congrArg List.length hu
    simp [valuesOf_append, valuesOf_cons_self] at hlength
    omega
  missing {members values _ _} hsub hne h hr := by
    refine hne (hsub.eq_of_length_le ?_)
    refine (List.subperm_of_subset S.nodup_members fun m _ => ?_).length_le
    by_contra hm
    obtain ⟨v, hv, _⟩ := ((S.read_eq_ok_iff h).mp hr).2 m
    rw [valuesOf_object_of_notMem hm] at hv
    cases hv
  typed {values _ _} h := by
    rw [S.read_eq_ok_iff h, and_iff_right isSome_of_mem_object]
    simp only [valuesOf_object S.nodup_members (S.mem_members _), List.cons.injEq, and_true,
      exists_eq_left']

end Schema

end BinaryLayout.Json
