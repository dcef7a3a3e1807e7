/-
Reading JSON values as what they should be.

A record type is written as an object with its fields as members, or as an array with its
fields in order.  In an object, members that are no field are passed over, and no field
may come twice.  Reading a field also proves that what was read is smaller than the whole,
so that readers of nested types can recurse into it.

A choice is written as an object whose single member is named for the alternative; an
alternative without content may also be written as its name alone.

A text may not have too many arrays and objects inside each other.  Every reader is given
the room there is, the number of levels that may still be opened, and an array or an
object that is read takes one level; what is passed over takes none.
-/
import RdfMapping.Json.Value
import RdfMapping.Template.Basic

namespace RdfMapping

/-- Why a JSON value does not denote a value of some type. -/
inductive DecodeError where
  /-- It does not have the form of that type. -/
  | form
  /-- It has too many arrays and objects inside each other. -/
  | deep
  /-- A string in it is not a template. -/
  | template (error : TemplateError)
deriving DecidableEq

namespace Json

/-- A value inside another one. -/
abbrev Inner (j : Json) := { v : Json // sizeOf v < sizeOf j }

/-! ### Room -/

/-- How many arrays and objects may be inside each other in a text that is read. -/
def maxLevels : Nat := 127

/-- The room inside an array or an object, for which there has to be room. -/
def enter : (room : Nat) → Except DecodeError Nat
  | 0 => .error .deep
  | room + 1 => .ok room

/-! ### Plain values -/

/-- Reads a string. -/
def asString : Json → Except DecodeError String
  | .string s => .ok s
  | _ => .error .form

/-- Reads a truth value. -/
def asBool : Json → Except DecodeError Bool
  | .bool b => .ok b
  | _ => .error .form

/-- Reads a string or null. -/
def asString? : Json → Except DecodeError (Option String)
  | .null => .ok none
  | .string s => .ok (some s)
  | _ => .error .form

/-- Reads the items of an array, with the room inside. -/
def asItems (room : Nat) (j : Json) : Except DecodeError (Nat × List (Inner j)) :=
  match j with
  | .array items => do
    return (← enter room, items.attach.map fun ⟨v, h⟩ => ⟨v, sizeOf_item h⟩)
  | _ => .error .form

/-- Reads an array of values of some type. -/
def asList {α : Type} (read : Nat → Json → Except DecodeError α) (room : Nat) (j : Json) :
    Except DecodeError (List α) := do
  let (room, items) ← j.asItems room
  items.mapM fun v => read room v.1

/-- Reads an array of strings. -/
def asStrings : (room : Nat) → Json → Except DecodeError (List String) :=
  asList fun _ v => v.asString

/-! ### Records -/

/-- Whether no member is named by one of the fields a second time. -/
def noFieldTwice (fields : List String) (members : List (String × Json)) : Bool :=
  fields.all fun f => (members.filter fun m => m.1 == f).length ≤ 1

/-- Enters a record in which every field may have a default, and gives the room inside. -/
def enterDefaulted (fields : List String) (room : Nat) : Json → Except DecodeError Nat
  | .object members => do
    let room ← enter room
    if noFieldTwice fields members then return room else throw .form
  | .array items => do
    let room ← enter room
    if items.length ≤ fields.length then return room else throw .form
  | _ => .error .form

/-- Enters a record, and gives the room inside. -/
def enterRecord (fields : List String) (room : Nat) : Json → Except DecodeError Nat
  | .object members => do
    let room ← enter room
    if noFieldTwice fields members then return room else throw .form
  | .array items => do
    let room ← enter room
    if items.length = fields.length then return room else throw .form
  | _ => .error .form

/-- The value of a field of a record, if it is there. -/
def field? (fields : List String) (name : String) (j : Json) : Option (Inner j) :=
  match j with
  | .object members =>
    (members.attach.find? fun m => m.1.1 == name).map fun ⟨m, h⟩ => ⟨m.2, sizeOf_member h⟩
  | .array items =>
    (items.attach[fields.idxOf name]?).map fun ⟨v, h⟩ => ⟨v, sizeOf_item h⟩
  | _ => none

/-- The value of a field that must be there. -/
def field (fields : List String) (name : String) (j : Json) : Except DecodeError (Inner j) :=
  match j.field? fields name with
  | some v => .ok v
  | none => .error .form

/-- The value of a field that may be missing or null. -/
def optionalField (fields : List String) (name : String) (j : Json) :
    Except DecodeError (Option (Inner j)) :=
  match j.field? fields name with
  | some ⟨.null, _⟩ => .ok none
  | some v => .ok (some v)
  | none => .ok none

/-- The string in a field that may be missing or null. -/
def optionalString (fields : List String) (name : String) (j : Json) :
    Except DecodeError (Option String) :=
  match j.field? fields name with
  | some v => v.1.asString?
  | none => .ok none

/-! ### Choices -/

/-- Reads an alternative without content, written as its name or as an object that gives it no
content. -/
def asName {α : Type} (names : List (String × α)) (room : Nat) (j : Json) :
    Except DecodeError α := do
  let name ← match j with
    | .string name => pure name
    | .object [(name, .null)] => do
      let _ ← enter room
      pure name
    | _ => throw .form
  match names.lookup name with
  | some a => return a
  | none => throw .form

/-- Enters an alternative with content: gives its name, the content and the room inside. -/
def asChoice (room : Nat) (j : Json) : Except DecodeError (Nat × String × Inner j) :=
  match j with
  | .object [(name, v)] => do
    return (← enter room, name, ⟨v, sizeOf_member (p := (name, v)) (List.mem_singleton.2 rfl)⟩)
  | _ => .error .form

end Json

end RdfMapping
