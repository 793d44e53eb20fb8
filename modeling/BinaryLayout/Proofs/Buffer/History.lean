import BinaryLayout.Buffer
import BinaryLayout.Proofs.Buffer.Slice

/-!
# The history of a buffer

A buffer is known by what has been asked of it: each byte is the last value that a request wrote
there, and zero if none did. Which requests write, and where, can be told from the requests and the
size alone. The checks of a range are together one comparison of its end, computed without bounds,
so that no range is accepted because its end wraps around.

## Main definitions

* `Buffer.Operation.written?`: what a request writes at an address.
* `Buffer.lastWritten`, `Buffer.ofHistory`: what a sequence of requests has written last.
* `Buffer.Serves`: the outcome that a request should have.

## Main results

* `Buffer.stop_eq`: one comparison decides about a range.
* `Buffer.serves_perform`: every request is served as it should be.
* `Buffer.getElem?_perform`: one request replaces the bytes that it writes and no others.
* `Buffer.transcript_last_written`: along a sequence of requests to a buffer that was allocated,
  every byte is the last value written to it.
-/

namespace BinaryLayout.Buffer

/-! ### Ranges -/

/-- The fault of a range that is refused. It shows the end of the range, or its start if the end is
no address. -/
def refusal (start length : Nat) : BufferError :=
  .outOfBounds (if start + length < Word.count64 then start + length else start)

variable {b : Buffer} {start length size a : Nat} {operations : List Operation}

/-- **One comparison** decides about a range: whether its end, computed without bounds, lies beyond
the buffer. -/
theorem stop_eq (hb : b.size < Word.count64) (start length : Nat) :
    b.stop start length =
      if start + length ≤ b.size then .ok (start + length) else .error (refusal start length) := by
  split_ifs with hfits
  · exact stop_of_le hfits hb
  · rw [stop, Word.add?, refusal]
    split_ifs with haddress
    · simp only [if_pos (Nat.lt_of_not_le hfits)]
    · rfl

/-! ### One request -/

/-- The value that a request writes at an address of a buffer of the given size, if it writes
there. -/
def Operation.written? (size address : Nat) : Operation → Option UInt8
  | .fill start length value =>
    if start + length ≤ size ∧ start ≤ address ∧ address < start + length then some value else none
  | .overlay data => if address < size then data[address]? else none
  | .size | .isEmpty | .read _ _ | .bytes | .hexDump => none

/-- The outcome that a request should have. A range is read or filled exactly if it ends in the
buffer, and otherwise it is refused and nothing is written; a fill replaces the bytes of its range,
an overlay as many of the first bytes as there are in both; nothing else is ever replaced. -/
def Serves (b : Buffer) (operation : Operation) (outcome : Except BufferError Answer × Buffer) :
    Prop :=
  match operation with
  | .read start length =>
    if start + length ≤ b.size then
      ∃ data, outcome = (.ok (.bytes data), b) ∧ data.length = length ∧
        ∀ k < length, data[k]? = b.bytes[start + k]?
    else outcome = (.error (refusal start length), b)
  | .fill start length value =>
    if start + length ≤ b.size then
      outcome.1 = .ok .done ∧ ∀ a, outcome.2.bytes[a]? =
        if start ≤ a ∧ a < start + length then some value else b.bytes[a]?
    else outcome = (.error (refusal start length), b)
  | .overlay data =>
    outcome.1 = .ok (.number (min data.length b.size)) ∧ ∀ a, outcome.2.bytes[a]? =
      if a < min data.length b.size then data[a]? else b.bytes[a]?
  | .size | .isEmpty | .bytes | .hexDump => outcome.2 = b

theorem perform_read (hb : b.size < Word.count64) (start length : Nat) :
    b.perform (.read start length) =
      if start + length ≤ b.size then (.ok (.bytes (slice b.bytes start length)), b)
      else (.error (refusal start length), b) := by
  simp only [perform, read, stop_eq hb]
  split_ifs <;> rfl

theorem perform_fill (hb : b.size < Word.count64) (start length : Nat) (value : UInt8) :
    b.perform (.fill start length value) =
      if start + length ≤ b.size then
        (.ok .done, ⟨patched b.bytes start (List.replicate length value)⟩)
      else (.error (refusal start length), b) := by
  simp only [perform, fill, stop_eq hb]
  split_ifs <;> rfl

theorem getElem?_filled (h : start + length ≤ b.size) (value : UInt8) (a : Nat) :
    (patched b.bytes start (List.replicate length value))[a]? =
      if start ≤ a ∧ a < start + length then some value else b.bytes[a]? := by
  have hfits : start + (List.replicate length value).length ≤ b.bytes.length := by
    rwa [List.length_replicate]
  rw [getElem?_patched hfits, List.length_replicate]
  split_ifs with ha
  · rw [List.getElem?_replicate, if_pos (by omega)]
  · rfl

/-- **Every request** is served as it should be. -/
theorem serves_perform (hb : b.size < Word.count64) (operation : Operation) :
    b.Serves operation (b.perform operation) := by
  cases operation with
  | read start length =>
    rw [Serves, perform_read hb]
    split_ifs with hfits
    · refine ⟨_, rfl, length_slice hfits, fun k hk => ?_⟩
      rw [getElem?_slice, if_pos hk]
    · rfl
  | fill start length value =>
    rw [Serves, perform_fill hb]
    split_ifs with hfits
    · exact ⟨rfl, getElem?_filled hfits value⟩
    · rfl
  | overlay data => exact ⟨rfl, getElem?_overlay b data⟩
  | size | isEmpty | bytes | hexDump => rfl

/-- No request changes the size. -/
theorem size_perform (b : Buffer) (operation : Operation) :
    (b.perform operation).2.size = b.size := by
  cases operation with
  | fill start length value =>
    simp only [perform, fill]
    cases hstop : b.stop start length with
    | error fault => rfl
    | ok stop =>
      refine length_patched ?_
      rw [List.length_replicate]
      exact (stop_eq_ok_iff.mp hstop).2.1
  | overlay data => exact size_overlay b data
  | size | isEmpty | read | bytes | hexDump => rfl

/-- **One request** replaces the bytes that it writes and no others. -/
theorem getElem?_perform (hb : b.size < Word.count64) (operation : Operation) (a : Nat) :
    (b.perform operation).2.bytes[a]? = (operation.written? b.size a).or b.bytes[a]? := by
  have hserves := serves_perform hb operation
  cases operation with
  | read start length =>
    rw [perform_read hb]
    split_ifs <;> rfl
  | fill start length value =>
    rw [Serves] at hserves
    rw [Operation.written?]
    by_cases hfits : start + length ≤ b.size
    · rw [if_pos hfits] at hserves
      simp only [hserves.2 a, hfits, true_and]
      split_ifs <;> rfl
    · rw [if_neg hfits] at hserves
      rw [hserves, if_neg fun h => hfits h.1, Option.none_or]
  | overlay data =>
    rw [hserves.2 a, Operation.written?]
    by_cases hsize : a < b.size
    · rw [if_pos hsize]
      by_cases hdata : a < data.length
      · rw [if_pos (Nat.lt_min.mpr ⟨hdata, hsize⟩), List.getElem?_eq_getElem hdata, Option.some_or]
      · have hnone : data[a]? = none := List.getElem?_eq_none (Nat.le_of_not_lt hdata)
        rw [if_neg fun h => hdata (Nat.lt_min.mp h).1, hnone, Option.none_or]
    · rw [if_neg hsize, if_neg fun h => hsize (Nat.lt_min.mp h).2, Option.none_or]
  | size | isEmpty | bytes | hexDump => rfl

/-! ### Sequences of requests -/

/-- The last value that the requests have written at an address of a buffer of the given size, or
zero if they have written none. -/
def lastWritten (size : Nat) (operations : List Operation) (address : Nat) : UInt8 :=
  (operations.reverse.findSome? (Operation.written? size address)).getD 0

/-- The buffer whose bytes are those that the requests have written last. -/
def ofHistory (size : Nat) (operations : List Operation) : Buffer :=
  ⟨(List.range size).map (lastWritten size operations)⟩

@[simp] theorem size_ofHistory (size : Nat) (operations : List Operation) :
    (ofHistory size operations).size = size := by
  rw [Buffer.size, ofHistory, List.length_map, List.length_range]

theorem getElem?_ofHistory (ha : a < size) (operations : List Operation) :
    (ofHistory size operations).bytes[a]? = some (lastWritten size operations a) := by
  rw [ofHistory, List.getElem?_map, List.getElem?_range ha, Option.map_some]

theorem lastWritten_append_singleton (operations : List Operation) (operation : Operation) :
    some (lastWritten size (operations ++ [operation]) a) =
      (operation.written? size a).or (some (lastWritten size operations a)) := by
  rw [lastWritten, List.reverse_append, List.reverse_singleton, List.singleton_append,
    List.findSome?_cons]
  cases operation.written? size a <;> rfl

/-- A request that is served goes into the history. -/
theorem snd_perform_ofHistory (hsize : size < Word.count64) (operations : List Operation)
    (operation : Operation) : ((ofHistory size operations).perform operation).2 =
      ofHistory size (operations ++ [operation]) := by
  have hlength : ((ofHistory size operations).perform operation).2.size = size := by
    rw [size_perform, size_ofHistory]
  have hbytes : ((ofHistory size operations).perform operation).2.bytes =
      (ofHistory size (operations ++ [operation])).bytes := by
    refine List.ext_getElem? fun a => ?_
    rcases Nat.lt_or_ge a size with ha | ha
    · rw [getElem?_perform (by rwa [size_ofHistory]), size_ofHistory, getElem?_ofHistory ha,
        getElem?_ofHistory ha, lastWritten_append_singleton]
    · have hleft := size_ofHistory size (operations ++ [operation])
      rw [List.getElem?_eq_none (Nat.le_trans (Nat.le_of_eq hlength) ha),
        List.getElem?_eq_none (Nat.le_trans (Nat.le_of_eq hleft) ha)]
  exact congrArg Buffer.mk hbytes

theorem length_transcript (b : Buffer) (operations : List Operation) :
    (b.transcript operations).length = operations.length := by
  induction operations generalizing b with
  | nil => rfl
  | cons operation operations ih =>
    rw [transcript, List.length_cons, List.length_cons, ih]

/-- Each request of a sequence finds the buffer that the earlier ones have left. -/
theorem getElem?_transcript (hsize : size < Word.count64) (earlier : List Operation)
    (operations : List Operation) (i : Nat) :
    ((ofHistory size earlier).transcript operations)[i]? =
      operations[i]?.map (ofHistory size (earlier ++ operations.take i)).perform := by
  induction operations generalizing earlier i with
  | nil => rfl
  | cons operation operations ih =>
    rw [transcript, snd_perform_ofHistory hsize]
    cases i with
    | zero =>
      rw [List.getElem?_cons_zero, List.getElem?_cons_zero, List.take_zero, List.append_nil,
        Option.map_some]
    | succ i =>
      rw [List.getElem?_cons_succ, List.getElem?_cons_succ, ih, List.take_succ_cons,
        List.append_assoc, List.singleton_append]

/-- A buffer that is allocated has no history. -/
theorem eq_ofHistory_of_allocate {granted : Nat → Bool} (h : allocate granted size = .ok b) :
    size < Word.half64 ∧ b = ofHistory size [] := by
  rw [allocate] at h
  split_ifs at h with hgranted
  cases h
  refine ⟨hgranted.1, congrArg Buffer.mk (List.eq_replicate_iff.mpr ⟨?_, fun v hv => ?_⟩).symm⟩
  · rw [List.length_map, List.length_range]
  · obtain ⟨a, -, rfl⟩ := List.mem_map.mp hv
    rfl

/-- **The last value written.** Along every sequence of requests to a buffer that was allocated,
each request is served as it should be. The buffer that it finds, and the one that it leaves, have
the size that was asked for, and each of their bytes is the last value written to it, or zero. -/
theorem transcript_last_written {granted : Nat → Bool} (h : allocate granted size = .ok b)
    (operations : List Operation) :
    b = ofHistory size [] ∧ (b.transcript operations).length = operations.length ∧
      ∀ i operation, operations[i]? = some operation →
        ∃ outcome, (b.transcript operations)[i]? = some outcome ∧
          (ofHistory size (operations.take i)).Serves operation outcome ∧
          outcome.2 = ofHistory size (operations.take (i + 1)) ∧ outcome.2.size = size := by
  obtain ⟨hlt, rfl⟩ := eq_ofHistory_of_allocate h
  have hsize : size < Word.count64 := Nat.lt_trans hlt (by decide)
  refine ⟨rfl, length_transcript _ operations, fun i operation hi => ?_⟩
  have htake : operations.take (i + 1) = operations.take i ++ [operation] := by
    rw [List.take_add_one, hi, Option.toList_some]
  refine ⟨(ofHistory size (operations.take i)).perform operation, ?_,
    serves_perform (by rwa [size_ofHistory]) operation, ?_, ?_⟩
  · rw [getElem?_transcript hsize [], hi, Option.map_some, List.nil_append]
  · rw [htake, snd_perform_ofHistory hsize]
  · rw [size_perform, size_ofHistory]

/-- A prefix that is laid over a part of a fill, a fill whose end wraps around, and a fill of
nothing at the end of the buffer: what is read then are two bytes of the prefix and two of the first
fill. -/
theorem last_written_prefix_over_fill :
    let operations : List Operation :=
      [.fill 1 3 7, .overlay [9, 8], .fill 18446744073709551615 3 5, .fill 4 0 6, .read 0 4]
    allocate (· ≤ 1024) 4 = .ok ⟨[0, 0, 0, 0]⟩ ∧ operations[4]? = some (.read 0 4) ∧
      ofHistory 4 (operations.take 4) = ⟨[9, 8, 7, 7]⟩ ∧
      ∃ outcome, (transcript ⟨[0, 0, 0, 0]⟩ operations)[4]? = some outcome ∧
        Serves ⟨[9, 8, 7, 7]⟩ (.read 0 4) outcome ∧ outcome.2 = ofHistory 4 operations := by
  intro operations
  have h : allocate (· ≤ 1024) 4 = .ok ⟨[0, 0, 0, 0]⟩ := by decide
  have hheld : ofHistory 4 (operations.take 4) = ⟨[9, 8, 7, 7]⟩ := by decide
  obtain ⟨outcome, houtcome, hserves, hleft, -⟩ :=
    (transcript_last_written h operations).2.2 4 (.read 0 4) rfl
  exact ⟨h, rfl, hheld, outcome, houtcome, hheld ▸ hserves, hleft⟩

end BinaryLayout.Buffer
