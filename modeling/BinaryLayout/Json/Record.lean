import BinaryLayout.Json.Scalar
import BinaryLayout.Json.Skip

/-!
# Records in a JSON text

A record has a fixed set of members, each with a type of its own. It is written as an object, whose
members may come in any order and among others that are passed over, or as an array of the members'
values in their order. Each member must occur exactly once.
The written form is an object with the members in their order.
-/

namespace BinaryLayout.Json

/-- What a record is in a JSON text: its members by name and type, and how the record is made up of
their values. -/
structure Schema (R : Type) where
  /-- The name of the record in messages. -/
  title : String
  /-- The members. -/
  Member : Type
  /-- The members in order. -/
  members : List Member
  /-- The list leaves no member out. -/
  mem_members : ∀ m, m ∈ members
  /-- Members can be told apart. -/
  decEq : DecidableEq Member
  /-- The name of a member. -/
  name : Member → String
  /-- No two members have the same name, and the list has no member twice. -/
  nodup_names : (members.map name).Nodup
  /-- What a member's value is. -/
  Value : Member → Type
  /-- The type of a member's value in a text. -/
  kind : (m : Member) → Kind (Value m)
  /-- The value of a member of the record. -/
  value : R → (m : Member) → Value m
  /-- The record with the given values. -/
  make : ((m : Member) → Value m) → R
  /-- A record is made up of its values. -/
  make_value : ∀ r, make (value r) = r
  /-- The values of a record are those that it was made of. -/
  value_make : ∀ values, value (make values) = values

namespace Schema

variable {R : Type} (S : Schema R)

/-- The values of those members that have been read. -/
abbrev Partial := (m : S.Member) → Option (S.Value m)

/-- The values of all members. -/
abbrev Complete := (m : S.Member) → S.Value m

/-- No member has been read. -/
def unread : S.Partial := fun _ => none

variable {S}

/-- Sets the value of one member. -/
def Partial.set (values : S.Partial) (m : S.Member) (v : S.Value m) : S.Partial := fun other =>
  match S.decEq other m with
  | isTrue same => some (same ▸ v)
  | isFalse _ => values other

/-- The values of all members, or the first member that has none. -/
def Partial.complete (values : S.Partial) : Except S.Member S.Complete :=
  match found : S.members.find? fun m => (values m).isNone with
  | some m => .error m
  | none => .ok fun m => (values m).get (by
      have present := List.find?_eq_none.mp found m (S.mem_members m)
      simpa [Option.isSome_iff_ne_none] using present)

variable (S)

/-- The member with exactly this name. -/
def member? (name : List Char) : Option S.Member :=
  S.members.find? fun m => (S.name m).toList == name

variable {S}

/-- The record, unless a member is missing. -/
def Partial.finish (values : S.Partial) (rest : List Char) : Reading S.Complete :=
  match values.complete with
  | .ok record => .ok (record, rest)
  | .error m => .error (.mismatch (.missingField (S.name m)))

/-- Reads a member's name, behind its opening quote, and its value. -/
def Partial.readMember (values : S.Partial) (s : List Char) : Reading S.Partial :=
  match readText s with
  | .error fault => .error fault
  | .ok (name, rest) =>
    match S.member? name with
    | some m =>
      if (values m).isSome then .error (.mismatch (.duplicateField (S.name m)))
      else
        match takeMark ':' rest with
        | .error fault => .error fault
        | .ok rest =>
          match (S.kind m).read rest with
          | .error fault => .error fault
          | .ok (v, rest) => .ok (values.set m v, rest)
    | none =>
      match takeMark ':' rest with
      | .error fault => .error fault
      | .ok rest =>
        match skipValue rest with
        | .error fault => .error fault
        | .ok rest => .ok (values, rest)

/-- What follows a member is shorter than the text. -/
theorem Partial.length_readMember_lt {values values' : S.Partial} {s rest : List Char}
    (h : values.readMember s = .ok (values', rest)) : rest.length < s.length := by
  unfold Partial.readMember at h
  split at h
  · cases h
  · next name =>
    have := length_readText name
    split at h
    · split at h
      · cases h
      · split at h
        · cases h
        · next colon =>
          split at h
          · cases h
          · next value =>
            cases h
            have := length_takeMark colon
            have := Kind.length_read_le value
            omega
    · split at h
      · cases h
      · next colon =>
        split at h
        · cases h
        · next value =>
          cases h
          have := length_takeMark colon
          have := length_skipValue_le value
          omega

/-- Reads the members of an object from behind the opening quote of the next one. -/
def Partial.readMembers (values : S.Partial) (s : List Char) : Reading S.Complete :=
  match _read : values.readMember s with
  | .error fault => .error fault
  | .ok (values, rest) =>
    match _found : skipSpace rest with
    | [] => .error .truncated
    | c :: rest =>
      if c = ',' then
        match _opened : takeMark '"' rest with
        | .error fault => .error fault
        | .ok rest => values.readMembers rest
      else if c = '\x7d' then values.finish rest
      else .error .malformed
termination_by s.length
decreasing_by
  exact Nat.lt_trans (length_takeMark _opened)
    (Nat.lt_trans (length_lt_of_skipSpace _found) (Partial.length_readMember_lt _read))

variable (S)

/-- Reads an object from behind its opening bracket. -/
def readObject (s : List Char) : Reading S.Complete :=
  match skipSpace s with
  | [] => .error .truncated
  | c :: rest =>
    if c = '\x7d' then S.unread.finish rest
    else if c = '"' then S.unread.readMembers rest
    else .error .malformed

/-- The words for a record in messages. -/
def phrase : String := "struct " ++ S.title

/-- The words for the array form of a record in messages. -/
def arrayPhrase : String :=
  S.phrase ++ " with " ++ String.ofList (Text.decimal S.members.length) ++ " elements"

variable {S}

/-- Goes to the next element of an array of which `count` have been read. -/
def nextElement (count : Nat) (title : String) (s : List Char) : Except Fault (List Char) :=
  match skipSpace s with
  | [] => .error .truncated
  | c :: rest =>
    if c = ']' then .error (.mismatch (.tooShort count title))
    else if count = 0 then .ok (c :: rest)
    else if c = ',' then
      match skipSpace rest with
      | [] => .error .truncated
      | d :: rest => if d = ']' then .error .malformed else .ok (d :: rest)
    else .error .malformed

/-- Reads the elements for the given members, of which `count` come before. -/
def Partial.readElements (values : S.Partial) (count : Nat) :
    List S.Member → List Char → Reading S.Partial
  | [], s =>
    match takeMark ']' s with
    | .error fault => .error fault
    | .ok rest => .ok (values, rest)
  | m :: members, s =>
    match nextElement count S.arrayPhrase s with
    | .error fault => .error fault
    | .ok rest =>
      match (S.kind m).read rest with
      | .error fault => .error fault
      | .ok (v, rest) => (values.set m v).readElements (count + 1) members rest

variable (S)

/-- Reads an array from behind its opening bracket. -/
def readArray (s : List Char) : Reading S.Complete :=
  match S.unread.readElements 0 S.members s with
  | .error fault => .error fault
  | .ok (values, rest) => values.finish rest

/-- Reads a record in either form. -/
def readRecord (s : List Char) : Reading S.Complete :=
  match skipSpace s with
  | [] => .error .truncated
  | c :: rest =>
    if c = '[' then S.readArray rest
    else if c = '\x7b' then S.readObject rest
    else .error (refuse S.phrase (c :: rest))

/-- Reads a text that holds one record and nothing else. -/
def read (text : String) : Except Fault R :=
  match S.readRecord text.toList with
  | .error fault => .error fault
  | .ok (values, rest) =>
    if (skipSpace rest).isEmpty then .ok (S.make values) else .error .malformed

/-! ### Writing -/

/-- The written form of a member, with something between its name and its value. -/
def writeMember (between : List Char) (r : R) (m : S.Member) : List Char :=
  writeText (S.name m).toList ++ between ++ (S.kind m).write (S.value r m)

/-- The written form of a record without space between its parts. -/
def writeCompact (r : R) : String :=
  String.ofList ('\x7b' :: [','].intercalate (S.members.map (S.writeMember [':'] r)) ++ ['\x7d'])

/-- The written form of a record with a line for each member. -/
def writePretty (r : R) : String :=
  String.ofList (['\x7b', '\n'] ++
    [',', '\n'].intercalate (S.members.map fun m => [' ', ' '] ++ S.writeMember [':', ' '] r m) ++
    ['\n', '\x7d'])

end Schema

end BinaryLayout.Json
