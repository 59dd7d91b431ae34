import SlotLedger.Layout.Field
import SlotLedger.Text.Quoted

/-!
# Schemas

The declared storage shape of one implementation version: its fields in slot order.

## Main definitions

* `Schema`, `Schema.validate`: a descriptor and the rules it has to keep.
* `SchemaBuilder`: assigns contiguous slots in the order of declaration.
* `SchemaError`: how a descriptor breaks a rule or misses what ledger logic needs.
-/

namespace SlotLedger

/-- Why a schema is refused, by its own rules or by the logic that is to run on it. -/
inductive SchemaError where
  | duplicateField (schema name : String)
  | invalidWidth (schema name : String) (semanticType : SemanticType) (width : UInt32)
  | misordered (schema name : String) (slot : SlotIndex)
  | missingField (schema name : String)
  | fieldTypeMismatch (schema name : String) (expected found : SemanticType)
  | unenforcedField (schema name logic : String)
deriving DecidableEq, Repr

/-- The error's code, by which programs tell errors apart. -/
def SchemaError.code : SchemaError → String
  | .duplicateField .. => "duplicate_field"
  | .invalidWidth .. => "invalid_width"
  | .misordered .. => "misordered"
  | .missingField .. => "missing_field"
  | .fieldTypeMismatch .. => "field_type_mismatch"
  | .unenforcedField .. => "unenforced_field"

/-- The error in words. -/
def SchemaError.message : SchemaError → String
  | .duplicateField schema name => s!"schema {schema}: duplicate field name {Text.quoted name}"
  | .invalidWidth schema name semanticType width =>
    s!"schema {schema}: field {Text.quoted name} has invalid width {width.toNat} for type " ++
      semanticType.text
  | .misordered schema name slot =>
    s!"schema {schema}: field {Text.quoted name} at slot {slot.toNat} overlaps or precedes " ++
      "the previous field"
  | .missingField schema name => s!"schema {schema}: required field {Text.quoted name} is missing"
  | .fieldTypeMismatch schema name expected found =>
    s!"schema {schema}: field {Text.quoted name} has type {found.text}, expected {expected.text}"
  | .unenforcedField schema name logic =>
    s!"schema {schema}: field {Text.quoted name} is not enforced by logic {logic}"

/-- The declared storage shape of one implementation version. -/
structure Schema where
  name : String
  version : UInt32
  fields : List Field
deriving DecidableEq, Repr

namespace Schema

/-- The layout before the first deployment. -/
def empty : Schema := ⟨"empty", 0, []⟩

/-- Whether the schema declares no field. -/
def isEmpty (s : Schema) : Bool := s.fields.isEmpty

/-- The first field of a name. -/
def field? (s : Schema) (name : String) : Option Field := s.fields.find? (·.name == name)

/-- The position after the highest slot of any field; zero without fields. -/
def slotEnd (s : Schema) : SlotIndex :=
  s.fields.foldl (fun high f => if high < f.slotEnd then f.slotEnd else high) 0

/-- Check the fields from one on.  `seen` holds the names of the fields before it and `free` the
position after the last of them, if there is one. -/
def validateFrom (schema : String) (seen : List String) (free : Option SlotIndex) :
    List Field → Except SchemaError Unit
  | [] => .ok ()
  | f :: rest =>
    if f.name ∈ seen then
      .error (.duplicateField schema f.name)
    else if f.byteWidth = 0 ∨ f.semanticType.naturalWidth ≠ some f.byteWidth ∨
        f.semanticType.isArrayOfMappings then
      .error (.invalidWidth schema f.name f.semanticType f.byteWidth)
    else if free.any (f.slotIndex < ·) then
      .error (.misordered schema f.name f.slotIndex)
    else
      validateFrom schema (f.name :: seen) (some f.slotEnd) rest

/-- Check the rules of a descriptor: names are distinct, widths are natural, and no field starts
before the end of the field before it. -/
def validate (s : Schema) : Except SchemaError Unit := validateFrom s.name [] none s.fields

end Schema

/-- A schema in the making: the fields so far, last one first, and the next free position. -/
structure SchemaBuilder where
  name : String
  version : UInt32
  declared : List Field
  nextSlot : SlotIndex

namespace SchemaBuilder

/-- A builder without fields, at slot zero. -/
def start (name : String) (version : UInt32) : SchemaBuilder := ⟨name, version, [], 0⟩

/-- Declare a field at the next free position. -/
def field (b : SchemaBuilder) (name : String) (semanticType : SemanticType) : SchemaBuilder :=
  let f := Field.ofType name semanticType b.nextSlot
  { b with declared := f :: b.declared, nextSlot := f.slotEnd }

/-- Leave slots unused before the next field. -/
def skip (b : SchemaBuilder) (slots : UInt64) : SchemaBuilder :=
  { b with nextSlot := b.nextSlot.advance slots }

/-- The schema of the fields declared, in the order of declaration. -/
def build (b : SchemaBuilder) : Schema := ⟨b.name, b.version, b.declared.reverse⟩

end SchemaBuilder

end SlotLedger
