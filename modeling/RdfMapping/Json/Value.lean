/-
JSON values.

Members of an object are kept in order and repeated names are kept, because some
documents are refused for repeating a name.  Numbers are kept as they were written: no
document of this library holds one, so their text is all that is needed.

A document may contain escapes for half a surrogate pair, which no string can hold.  A
value with such an escape in one of its own strings or member names is `unreadable`; it
may stand where nothing is read from it.

Items and members are smaller than the value they are in, which is what recursion into a
value rests on.
-/

namespace RdfMapping

/-- A JSON value. -/
inductive Json where
  /-- The null value. -/
  | null
  /-- A truth value. -/
  | bool (value : Bool)
  /-- A number as it is written. -/
  | number (text : String)
  /-- A string. -/
  | string (value : String)
  /-- A list of values. -/
  | array (items : List Json)
  /-- Named values in order. -/
  | object (members : List (String × Json))
  /-- A value with half a surrogate pair in a string. -/
  | unreadable
deriving Inhabited

namespace Json

/-- The value of an optional string. -/
def ofOption : Option String → Json
  | some s => .string s
  | none => .null

/-! ### Nesting -/

mutual

/-- How many arrays and objects are inside each other where a value is nested most deeply. -/
def levels : Json → Nat
  | .array items => itemLevels items + 1
  | .object members => memberLevels members + 1
  | _ => 0

/-- The nesting of the most deeply nested item. -/
def itemLevels : List Json → Nat
  | [] => 0
  | v :: items => max v.levels (itemLevels items)

/-- The nesting of the most deeply nested member. -/
def memberLevels : List (String × Json) → Nat
  | [] => 0
  | (_, v) :: members => max v.levels (memberLevels members)

end

/-! ### Sizes -/

/-- An item of an array is smaller than the array. -/
theorem sizeOf_item {items : List Json} {v : Json} (h : v ∈ items) :
    sizeOf v < sizeOf (Json.array items) := by
  have := List.sizeOf_lt_of_mem h
  simp only [array.sizeOf_spec]
  omega

/-- A member of an object is smaller than the object. -/
theorem sizeOf_member {members : List (String × Json)} {p : String × Json} (h : p ∈ members) :
    sizeOf p.2 < sizeOf (Json.object members) := by
  have := List.sizeOf_lt_of_mem h
  obtain ⟨name, v⟩ := p
  simp only [object.sizeOf_spec, Prod.mk.sizeOf_spec] at *
  omega

end Json

end RdfMapping
