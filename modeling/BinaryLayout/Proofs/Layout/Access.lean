import BinaryLayout.Proofs.Layout.Faults
import BinaryLayout.Proofs.Layout.Run
import BinaryLayout.Proofs.Scalar.Codec

/-!
# Access to elements byte by byte

An index need not lie in its field. What decides is the address of the element, computed without
bounds: if the whole element lies in the buffer, it is read and written at that address, be it in
later fields or in padding, and otherwise the access is refused and nothing is written. The byte
order decides at which address the byte of a weight stands, and no other byte is touched.

## Main definitions

* `Field.byteAddress`: the address of a byte of an element by its weight.
* `Layout.StoredIn`: a layout after a value has been stored in an element.
* `Layout.SameCell`: two elements that are read and written alike.

## Main results

* `Layout.storedIn_patch`: which bytes a stored value replaces, and which it keeps.
* `Layout.access_exact`: access to the elements of reachable layouts.
-/

namespace BinaryLayout

namespace Field

variable {f : Field} {order : ByteOrder} {index k : Nat}

/-- The address of the byte of an element whose weight is the `k`-th power of 256. -/
def byteAddress (f : Field) (order : ByteOrder) (index k : Nat) : Nat :=
  match order with
  | .little => f.offset + index * f.unit + k
  | .big => f.offset + (index + 1) * f.unit - k - 1

/-- The number that the bytes of an element stand for, each by its weight. -/
def number (f : Field) (order : ByteOrder) (bytes : List UInt8) (index : Nat) : Nat :=
  ∑ k ∈ Finset.range f.unit, (bytes[f.byteAddress order index k]?.getD 0).toNat * 256 ^ k

theorem byteAddress_eq (f : Field) (order : ByteOrder) (index : Nat) (hk : k < f.unit) :
    f.byteAddress order index k = f.address index + Scalar.place order f.unit k := by
  have hnext : (index + 1) * f.unit = index * f.unit + f.unit := Nat.succ_mul index f.unit
  cases order with
  | little => rfl
  | big =>
    simp only [byteAddress, address, Scalar.place]
    omega

/-- The bytes of an element have the weights of its first so many powers, in either order. -/
theorem exists_byteAddress_eq (order : ByteOrder) {a : Nat} (ha : f.address index ≤ a)
    (ha' : a < f.address index + f.unit) : ∃ k < f.unit, a = f.byteAddress order index k := by
  have hk : a - f.address index < f.unit := by omega
  -- Where a weight stands is an involution, so it also finds the weight of an address.
  refine ⟨Scalar.place order f.unit (a - f.address index), Scalar.place_lt order hk, ?_⟩
  rw [byteAddress_eq f order index (Scalar.place_lt order hk), Scalar.place_place order hk]
  omega

theorem byteAddress_lt (f : Field) (order : ByteOrder) (index : Nat) (hk : k < f.unit) :
    f.address index ≤ f.byteAddress order index k ∧
      f.byteAddress order index k < f.address index + f.unit := by
  have hplace := Scalar.place_lt order hk
  rw [byteAddress_eq f order index hk]
  omega

/-- Decoding the bytes of an element shows the number that they stand for. -/
theorem toInt_decode_element {bytes : List UInt8} (order : ByteOrder)
    (h : f.address index + f.unit ≤ bytes.length) :
    (Scalar.decode order (f.element bytes index)).toInt =
      Scalar.shown f.unit (f.number order bytes index) := by
  have hlength : (f.element bytes index).length = f.unit := Buffer.length_slice h
  rw [Scalar.toInt_decode, Scalar.natural_arrange_eq_sum, hlength, number]
  congr 1
  refine Finset.sum_congr rfl fun k hk => ?_
  have hk := Finset.mem_range.mp hk
  rw [element, Buffer.getElem?_slice, if_pos (Scalar.place_lt order hk),
    byteAddress_eq f order index hk]

end Field

namespace Layout

variable {l : Layout} {f g : Field} {index : Nat}

/-- A layout after a value has been stored in an element of another one: each byte of the value
stands at the address of its weight, and everything else is as it was. -/
structure StoredIn (f : Field) (index : Nat) (value : Int64) (l l' : Layout) : Prop where
  config_eq : l'.config = l.config
  fields_eq : l'.fields = l.fields
  size_eq : l'.size = l.size
  stored : ∀ k < f.unit, l'.bytes[f.byteAddress l.config.byteOrder index k]? =
    some (Scalar.byte value.toInt k)
  kept : ∀ a, (∀ k < f.unit, a ≠ f.byteAddress l.config.byteOrder index k) →
    l'.bytes[a]? = l.bytes[a]?

/-- Replacing the bytes of an element by those of a value stores the value. -/
theorem storedIn_patch (value : Int64) (h : f.address index + f.unit ≤ l.size) :
    StoredIn f index value l
      (l.patch (f.address index) (Scalar.encode l.config.byteOrder f.unit value)) := by
  have hlength := Scalar.length_encode l.config.byteOrder f.unit value
  have hfits : f.address index + (Scalar.encode l.config.byteOrder f.unit value).length ≤
      l.bytes.length := by rwa [hlength]
  refine ⟨rfl, rfl, size_patch hfits, fun k hk => ?_, fun a ha => ?_⟩
  · obtain ⟨hle, hlt⟩ := f.byteAddress_lt l.config.byteOrder index hk
    rw [bytes_patch, Buffer.getElem?_patched hfits, hlength, if_pos ⟨hle, hlt⟩,
      f.byteAddress_eq l.config.byteOrder index hk, Nat.add_sub_cancel_left,
      Scalar.getElem?_encode_place l.config.byteOrder value hk]
  · rw [bytes_patch, Buffer.getElem?_patched hfits, hlength, if_neg]
    rintro ⟨hle, hlt⟩
    obtain ⟨k, hk, heq⟩ := Field.exists_byteAddress_eq l.config.byteOrder hle hlt
    exact ha k hk heq

/-- Two elements are one cell of a layout: reading either gives the same value, and writing either
leaves the same layout. -/
def SameCell (l : Layout) (f : Field) (index : Nat) (g : Field) (j : Nat) : Prop :=
  (∀ v, (l.perform (.getAt f.label index)).1 = .ok (.value v) ↔
    (l.perform (.getAt g.label j)).1 = .ok (.value v)) ∧
  ∀ value, (l.perform (.setAt f.label value index)).2 = (l.perform (.setAt g.label value j)).2

namespace Sound

variable (hl : l.Sound) (hf : f ∈ l.fields)

include hl hf

theorem perform_getAt (h : f.address index + f.unit ≤ l.size) :
    l.perform (.getAt f.label index) =
      (.ok (.value (Scalar.decode l.config.byteOrder (f.element l.bytes index))), l) := by
  simp only [Layout.perform, hl.getAt_eq hf, if_pos h, reading]

theorem perform_setAt (value : Int64) (h : f.address index + f.unit ≤ l.size) :
    l.perform (.setAt f.label value index) =
      (.ok .done, l.patch (f.address index)
        (Scalar.encode l.config.byteOrder f.unit value)) := by
  simp only [Layout.perform, hl.setAt_eq hf, if_pos h, Except.map, writing]

/-- Elements of one size that start at one address are one cell. -/
theorem sameCell (hg : g ∈ l.fields) {j : Nat} (hunit : g.unit = f.unit)
    (haddress : g.address j = f.address index) : l.SameCell f index g j := by
  have helement : g.element l.bytes j = f.element l.bytes index := by
    rw [Field.element, Field.element, hunit, haddress]
  by_cases h : f.address index + f.unit ≤ l.size
  · have h' : g.address j + g.unit ≤ l.size := by rwa [haddress, hunit]
    refine ⟨fun v => ?_, fun value => ?_⟩
    · rw [hl.perform_getAt hf h, hl.perform_getAt hg h', helement]
    · rw [hl.perform_setAt hf value h, hl.perform_setAt hg value h', haddress, hunit]
  · have h := Nat.lt_of_not_le h
    have h' : l.size < g.address j + g.unit := by rwa [haddress, hunit]
    refine ⟨fun v => ?_, fun value => ?_⟩
    · rw [hl.perform_of_size_lt hf rfl h, hl.perform_of_size_lt hg rfl h']
      simp only [reduceCtorEq]
    · rw [hl.perform_of_size_lt hf rfl h, hl.perform_of_size_lt hg rfl h']

end Sound

/-- **Access to an element.** In a reachable layout an element is read and written if it lies in the
buffer as a whole, wherever that may be, and otherwise the access is refused and the layout stays as
it is. What is written are the bytes of the value at the addresses of their weights and nothing
else, and what is read is the number that the bytes at these addresses stand for. Elements of one
size at one address are one cell, whatever labels and indices lead there. -/
theorem access_exact (hl : l.Reachable) (hf : f ∈ l.fields) (index : Nat) (value : Int64) :
    (if f.offset + index * f.unit + f.unit ≤ l.size then
        (∃ l', l.perform (.setAt f.label value index) = (.ok .done, l') ∧
          StoredIn f index value l l') ∧
        ∃ v : Int64, l.perform (.getAt f.label index) = (.ok (.value v), l) ∧
          v.toInt = Scalar.shown f.unit (f.number l.config.byteOrder l.bytes index)
      else
        l.perform (.setAt f.label value index) =
          (.error (.layout (.outOfBounds f.label index)), l) ∧
        l.perform (.getAt f.label index) =
          (.error (.layout (.outOfBounds f.label index)), l)) ∧
      ∀ g ∈ l.fields, ∀ j, g.unit = f.unit →
        g.offset + j * g.unit = f.offset + index * f.unit → l.SameCell f index g j := by
  have hl := hl.sound
  refine ⟨?_, fun g hg j hunit haddress => hl.sameCell hf hg hunit haddress⟩
  split_ifs with h
  · exact ⟨⟨_, hl.perform_setAt hf value h, storedIn_patch value h⟩,
      _, hl.perform_getAt hf h, Field.toInt_decode_element l.config.byteOrder h⟩
  · have h := Nat.lt_of_not_le h
    exact ⟨hl.perform_of_size_lt hf rfl h, hl.perform_of_size_lt hf rfl h⟩

/-- A word behind the end of its field, which is the first half of the long that follows: it is
stored there and read back. -/
theorem access_word_in_long :
    let a : Field := ⟨"a", .space, 2, 0, 1⟩
    let b : Field := ⟨"b", .constant, 4, 2, 16909060⟩
    let l : Layout := ⟨⟨.bits32, .big, .none⟩, [a, b], ⟨[0, 0, 1, 2, 3, 4]⟩⟩
    l.Reachable ∧
      (∃ l', l.perform (.setAt "a" (-2) 1) = (.ok .done, l') ∧ StoredIn a 1 (-2) l l') ∧
      ∃ v : Int64, l.perform (.getAt "a" 1) = (.ok (.value v), l) ∧
        v.toInt = Scalar.shown 2 (a.number .big [0, 0, 1, 2, 3, 4] 1) := by
  intro a b l
  have hbuilt : build (· ≤ 1024) "a ds.w 1 b dc.l 0x01020304"
      ⟨.bits32, .big, .none⟩ = .ok l := by decide +kernel
  have hl : l.Reachable := ⟨_, _, _, l, [], hbuilt, rfl⟩
  have hf : a ∈ l.fields := List.mem_cons_self
  obtain ⟨haccess, -⟩ := access_exact hl hf 1 (-2)
  rw [if_pos (by decide)] at haccess
  exact ⟨hl, haccess⟩

end Layout

end BinaryLayout
