import NatBehaviour.Json.Scalar
import NatBehaviour.Json.Skip

/-!
Records: values with named members. A record is written as an object, whose members may come in any
order and among unknown ones, or as the list of its members' values in their own order.
-/

namespace NatBehaviour.Json

/-- A member of a record: how its value is read and put in its place. -/
structure Member (α : Type) where
  name : String
  aliases : List String
  /-- The member may be missing from an object. -/
  optional : Bool
  read : Reader (α → α)

namespace Member

variable {α β : Type}

def of (name : String) (read : Reader β) (put : β → α → α) : Member α :=
  ⟨name, [], false, .map put read⟩

def hasName (m : Member α) (key : String) : Bool := m.name = key || m.aliases.contains key

end Member

structure Record (α : Type) where
  name : String
  /-- The value before any member is read. -/
  initial : α
  /-- Members that are missing keep their initial value. -/
  complete : Bool
  members : List (Member α)

/-- A record of which some members have been read. -/
structure Draft (α : Type) where
  seen : List String
  value : α

namespace Record

variable {α : Type}

/-- What a record is called where something else was found. -/
def title (r : Record α) : String := "struct " ++ r.name

def memberNamed? (r : Record α) (key : String) : Option (Member α) :=
  r.members.find? (·.hasName key)

/-- Reads the value of a known member, or passes over that of an unknown one. A known member must
not come twice. -/
def readMember (r : Record α) (draft : Draft α) (key : String) (s : Bytes) :
    Except Cause (Draft α × Bytes) :=
  match r.memberNamed? key with
  | none =>
    match skipColon s with
    | .error cause => .error cause
    | .ok s => (skipValue s).map (draft, ·)
  | some m =>
    if draft.seen.contains m.name then .error (.duplicateMember m.name)
    else
      match skipColon s with
      | .error cause => .error cause
      | .ok s =>
        match m.read s with
        | .error cause => .error cause
        | .ok (put, s) => .ok (⟨m.name :: draft.seen, put draft.value⟩, s)

/-- After a member: the end of the object, or the quote that opens the next key. -/
def afterMember (draft : Draft α) (s : Bytes) : Except Cause (Step (Draft α)) :=
  match skipBlanks s with
  | [] => .error .endInObject
  | b :: s =>
    if b = code '}' then .ok (.done draft s)
    else if b = code ',' then
      match skipBlanks s with
      | [] => .error .endInValue
      | c :: s =>
        if c = code '"' then .ok (.more draft s)
        else if c = code '}' then .error .trailingComma
        else .error .expectedKey
    else .error .expectedCommaOrBrace

/-- Reads one member, from behind the quote that opens its key. -/
def memberStep (r : Record α) (draft : Draft α) (s : Bytes) : Except Cause (Step (Draft α)) :=
  match readText s with
  | .error cause => .error cause
  | .ok (key, s) =>
    match r.readMember draft key s with
    | .error cause => .error cause
    | .ok (draft, s) => afterMember draft s

/-- The first member that has to be there and is not. -/
def missing? (r : Record α) (draft : Draft α) : Option String :=
  if r.complete then none
  else (r.members.find? fun m => !m.optional && !draft.seen.contains m.name).map (·.name)

/-- The members, from behind the opening brace. -/
def readMembers (r : Record α) (s : Bytes) : Except Cause (Draft α × Bytes) :=
  match skipBlanks s with
  | [] => .error .endInObject
  | b :: s =>
    if b = code '}' then .ok (⟨[], r.initial⟩, s)
    else if b = code '"' then loop r.memberStep ⟨[], r.initial⟩ s
    else .error .expectedKey

/-- Reads a record that is written as an object, from behind the opening brace. -/
def readObject (r : Record α) (s : Bytes) : Except Cause (α × Bytes) :=
  match r.readMembers s with
  | .error cause => .error cause
  | .ok (draft, s) =>
    match r.missing? draft with
    | some name => .error (.missingMember name)
    | none => .ok (draft.value, s)

/-- After the last member's value nothing may follow but the closing bracket. -/
def endOfValues (value : α) (s : Bytes) : Except Cause (α × Bytes) :=
  match skipBlanks s with
  | [] => .error .endInList
  | b :: s =>
    if b = code ']' then .ok (value, s)
    else if b = code ',' && (skipBlanks s).head? = some (code ']') then .error .trailingComma
    else .error .trailingCharacters

/-- Reads the values of the members from the one at `index` on. A short list leaves the others as
they are, if the record allows it. -/
def readValues (r : Record α) (index : Nat) (value : α) :
    List (Member α) → Bytes → Except Cause (α × Bytes)
  | [], s => endOfValues value s
  | m :: members, s =>
    match skipBlanks s with
    | [] => .error .endInList
    | b :: t =>
      let next (s : Bytes) : Except Cause (α × Bytes) :=
        match m.read s with
        | .error cause => .error cause
        | .ok (put, s) => r.readValues (index + 1) (put value) members s
      if b = code ']' then
        if r.complete then .ok (value, t)
        else .error (.wrongLength index (r.title ++ s!" with {r.members.length} elements"))
      else if index = 0 then next (b :: t)
      else if b = code ',' then
        if (skipBlanks t).head? = some (code ']') then .error .trailingComma else next t
      else .error .expectedCommaOrBracket

def read (r : Record α) (s : Bytes) : Except Cause (α × Bytes) :=
  match skipBlanks s with
  | [] => .error .endInValue
  | b :: t =>
    if b = code '{' then r.readObject t
    else if b = code '[' then r.readValues 0 r.initial r.members t
    else mismatch r.title (b :: t)

end Record

end NatBehaviour.Json
