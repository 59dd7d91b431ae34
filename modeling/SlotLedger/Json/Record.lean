import SlotLedger.Json.Basic

/-!
# Reading records

A record is written as an object with one member per field, in any order, or as an array of the
fields in declared order.  A repeated key is refused; a key that names no field is refused or passed
over, as the record says.

## Main definitions

* `Json.record?`: a document as a record with the given fields.
* `Json.Record.required`, `Json.Record.optional`, `Json.Record.defaulted`: the value of one field.
* `Json.variant?`: a choice and its content.
-/

namespace SlotLedger.Json

/-- What becomes of a key that names no field. -/
inductive ExtraKeys where
  | refused
  | skipped
deriving DecidableEq

/-- The fields found in a document. -/
structure Record where
  /-- Whether the fields were given by name. -/
  named : Bool
  fields : List (String × Json)

/-- Whether the members of a record's fields have distinct keys. -/
def distinctKeys : List (String × Json) → Bool
  | [] => true
  | (key, _) :: rest => !rest.any (·.1 == key) && distinctKeys rest

/-- The document as a record with the given field names. -/
def record? (names : List String) (extra : ExtraKeys) : Json → Option Record
  | .object members =>
    -- A key that names no field may be repeated wherever it may stand.
    let (known, unknown) := members.partition fun m => names.contains m.1
    if distinctKeys known && (extra == .skipped || unknown.isEmpty) then some ⟨true, known⟩
    else none
  | .array items =>
    if items.length ≤ names.length then some ⟨false, names.zip items⟩ else none
  | _ => none

/-- The text of a string. -/
def string? : Json → Option String
  | .string text => some text
  | _ => none

/-- The value of a boolean. -/
def bool? : Json → Option Bool
  | .bool value => some value
  | _ => none

/-- The value of a natural number below 2^64. -/
def uint64? : Json → Option UInt64
  | .natural value => some value
  | _ => none

/-- The value of a natural number below 2^32. -/
def uint32? : Json → Option UInt32
  | .natural value =>
    if value.toNat < UInt32.size then some (UInt32.ofNat value.toNat) else none
  | _ => none

/-- The items of an array, each read in the same way. -/
def list? {α : Type} (read : Json → Option α) : Json → Option (List α)
  | .array items => items.mapM read
  | _ => none

/-- A choice: its name alone, or an object whose single member is the name with a content. -/
def variant? : Json → Option (String × Option Json)
  | .string name => some (name, none)
  | .object [(name, content)] => some (name, some content)
  | _ => none

/-- A choice without content: its name alone, or its name with the content `null`. -/
def unitVariant? (j : Json) : Option String :=
  match j.variant? with
  | some (name, none) => some name
  | some (name, some .null) => some name
  | _ => none

namespace Record

/-- The document of a field, if the field is there. -/
def find? (r : Record) (name : String) : Option Json :=
  (r.fields.find? (·.1 == name)).map Prod.snd

/-- The value of a field that has to be there. -/
def required {α : Type} (r : Record) (name : String) (read : Json → Option α) : Option α := do
  read (← r.find? name)

/-- The value of a field that may be `null` and that may be left out among named fields. -/
def optional {α : Type} (r : Record) (name : String) (read : Json → Option α) :
    Option (Option α) :=
  match r.find? name with
  | none => if r.named then some none else none
  | some .null => some none
  | some j => (read j).map some

/-- The value of a field that stands for a default when it is left out. -/
def defaulted {α : Type} (r : Record) (name : String) (default : α) (read : Json → Option α) :
    Option α :=
  match r.find? name with
  | none => some default
  | some j => read j

end Record

end SlotLedger.Json
