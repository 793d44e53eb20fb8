import BinaryLayout.HexDump
import BinaryLayout.Word

/-!
# Buffers

A buffer is a block of bytes whose size is fixed when it is allocated. A range of a buffer is given
by its start and its length, and is refused with the address that lies beyond the buffer.

The requests that a buffer serves are data as well: each has an answer or a fault, and leaves a
buffer for the next one. A request that fails leaves the buffer as it was.
-/

namespace BinaryLayout

/-- A block of bytes. -/
structure Buffer where
  bytes : List UInt8
  deriving DecidableEq, Repr

/-- Why a buffer refuses a request. -/
inductive BufferError
  /-- The range goes beyond the buffer. -/
  | outOfBounds (address : Nat)
  /-- There is no memory for a buffer of the size. -/
  | allocationFailed (size : Nat)
  deriving DecidableEq, Repr

/-- The fault in words. -/
def BufferError.message : BufferError → String
  | outOfBounds address => "Index out of bounds: " ++ String.ofList (Text.decimal address)
  | allocationFailed size =>
    "Cannot allocate " ++ String.ofList (Text.decimal size) ++ " bytes"

namespace Buffer

/-- A buffer of the given size with all its bytes zero, if the system grants the memory. A block
never has half as many bytes as there are addresses. -/
def allocate (granted : Nat → Bool) (size : Nat) : Except BufferError Buffer :=
  if size < Word.half64 ∧ granted size then .ok ⟨List.replicate size 0⟩
  else .error (.allocationFailed size)

/-- The number of bytes. -/
def size (b : Buffer) : Nat := b.bytes.length

/-- The end of a range. A range that no address can end is refused with its start. -/
def stop (b : Buffer) (start length : Nat) : Except BufferError Nat :=
  match Word.add? start length with
  | none => .error (.outOfBounds start)
  | some stop => if b.size < stop then .error (.outOfBounds stop) else .ok stop

/-- The bytes of a range. -/
def read (b : Buffer) (start length : Nat) : Except BufferError (List UInt8) :=
  match b.stop start length with
  | .ok _ => .ok ((b.bytes.drop start).take length)
  | .error fault => .error fault

/-- The bytes with some of them replaced from an address on. -/
def patched (bytes : List UInt8) (start : Nat) (new : List UInt8) : List UInt8 :=
  bytes.take start ++ new ++ bytes.drop (start + new.length)

/-- Replaces the bytes of a range. -/
def write (b : Buffer) (start : Nat) (new : List UInt8) : Except BufferError Buffer :=
  match b.stop start new.length with
  | .ok _ => .ok ⟨patched b.bytes start new⟩
  | .error fault => .error fault

/-- Sets every byte of a range to one value. -/
def fill (b : Buffer) (start length : Nat) (value : UInt8) : Except BufferError Buffer :=
  match b.stop start length with
  | .ok _ => .ok ⟨patched b.bytes start (List.replicate length value)⟩
  | .error fault => .error fault

/-- The number of bytes that fit when data is laid over the beginning of the buffer. -/
def fitting (b : Buffer) (data : List UInt8) : Nat := min data.length b.size

/-- Lays data over the beginning of the buffer, as much of it as fits. -/
def overlay (b : Buffer) (data : List UInt8) : Buffer :=
  ⟨patched b.bytes 0 (data.take (b.fitting data))⟩

/-- A range is accepted when it ends inside the buffer and at an address. -/
theorem stop_eq_ok_iff {b : Buffer} {start length e : Nat} :
    b.stop start length = .ok e ↔
      start + length < Word.count64 ∧ start + length ≤ b.size ∧ e = start + length := by
  by_cases address : start + length < Word.count64
  · by_cases inside : start + length ≤ b.size
    · simp only [stop, Word.add?, if_pos address, if_neg (Nat.not_lt.mpr inside), Except.ok.injEq]
      exact ⟨fun h => ⟨address, inside, h.symm⟩, fun h => h.2.2.symm⟩
    · simp only [stop, Word.add?, if_pos address, if_pos (Nat.lt_of_not_le inside), reduceCtorEq,
        false_iff]
      exact fun h => inside h.2.1
  · simp only [stop, Word.add?, if_neg address, reduceCtorEq, false_iff]
    exact fun h => address h.1

/-- Replacing bytes inside a list keeps its length. -/
theorem length_patched {bytes new : List UInt8} {start : Nat}
    (h : start + new.length ≤ bytes.length) : (patched bytes start new).length = bytes.length := by
  simp only [patched, List.length_append, List.length_take, List.length_drop]
  omega

/-- An overlay keeps the size. -/
@[simp] theorem size_overlay (b : Buffer) (data : List UInt8) : (b.overlay data).size = b.size := by
  have fits : (data.take (b.fitting data)).length ≤ b.bytes.length := by
    rw [List.length_take]
    exact Nat.le_trans (Nat.min_le_left _ _) (Nat.min_le_right _ _)
  exact length_patched (by rw [Nat.zero_add]; exact fits)

/-! ### Requests -/

/-- A request to a buffer. -/
inductive Operation
  | size
  | isEmpty
  | read (start length : Nat)
  | fill (start length : Nat) (value : UInt8)
  | overlay (data : List UInt8)
  | bytes
  | hexDump
  deriving DecidableEq, Repr

/-- The answer to a request. -/
inductive Answer
  | done
  | number (n : Nat)
  | flag (b : Bool)
  | bytes (data : List UInt8)
  | text (s : String)
  deriving DecidableEq, Repr

/-- Serves a request. -/
def perform (b : Buffer) : Operation → Except BufferError Answer × Buffer
  | .size => (.ok (.number b.size), b)
  | .isEmpty => (.ok (.flag b.bytes.isEmpty), b)
  | .read start length => ((b.read start length).map .bytes, b)
  | .fill start length value =>
    match b.fill start length value with
    | .ok b => (.ok .done, b)
    | .error fault => (.error fault, b)
  | .overlay data => (.ok (.number (b.fitting data)), b.overlay data)
  | .bytes => (.ok (.bytes b.bytes), b)
  | .hexDump => (.ok (.text (String.ofList (HexDump.dump b.bytes))), b)

/-- The outcomes of a sequence of requests, each with the buffer that it leaves. -/
def transcript (b : Buffer) : List Operation → List (Except BufferError Answer × Buffer)
  | [] => []
  | operation :: operations =>
    let outcome := b.perform operation
    outcome :: transcript outcome.2 operations

end Buffer

end BinaryLayout
