import SlotLedger.Json.Record
import SlotLedger.Layout.Compatibility
import SlotLedger.Ledger.Basic

/-!
# Layouts in documents

The documents of types, fields, schemas, verdicts and upgrade records.
-/

namespace SlotLedger

namespace SemanticType

/-- The scalar type of a name. -/
def scalarOfName? : String → Option SemanticType
  | "uint8" => some .uint8
  | "uint64" => some .uint64
  | "uint128" => some .uint128
  | "uint256" => some .uint256
  | "int256" => some .int256
  | "address" => some .address
  | "bool" => some .bool
  | "bytes32" => some .bytes32
  | _ => none

/-- A type whose document nests at most `depth` choices. -/
def ofJsonWithin? : (depth : Nat) → Json → Option SemanticType
  | 0, _ => none
  | depth + 1, j =>
    match j.variant? with
    | some ("mapping", some content) => do
      let r ← content.record? ["key", "value"] .skipped
      some (.mapping (← r.required "key" (ofJsonWithin? depth))
        (← r.required "value" (ofJsonWithin? depth)))
    | some ("array", some content) => do
      let r ← content.record? ["element", "length"] .skipped
      some (.array (← r.required "element" (ofJsonWithin? depth))
        (← r.required "length" Json.uint32?))
    | _ => do scalarOfName? (← j.unitVariant?)

/-- A type; no readable document nests more choices than containers. -/
def ofJson? (j : Json) : Option SemanticType := ofJsonWithin? (Json.maxDepth + 1) j

/-- A type as a document: a name, or a choice with its parts. -/
def toJson : SemanticType → Json
  | .mapping key value =>
    .object [("mapping", .object [("key", key.toJson), ("value", value.toJson)])]
  | .array element length =>
    .object [("array", .object [("element", element.toJson), ("length", .ofUInt32 length)])]
  | scalar => .string scalar.text

end SemanticType

namespace Field

/-- A field. -/
def ofJson? (j : Json) : Option Field := do
  let r ← j.record? ["name", "semantic_type", "slot_index", "byte_width"] .refused
  some
    { name := ← r.required "name" Json.string?
      semanticType := ← r.required "semantic_type" SemanticType.ofJson?
      slotIndex := ← r.required "slot_index" Json.uint64?
      byteWidth := ← r.required "byte_width" Json.uint32? }

/-- A field as a document. -/
def toJson (f : Field) : Json :=
  .object
    [("name", .string f.name), ("semantic_type", f.semanticType.toJson),
      ("slot_index", .natural f.slotIndex), ("byte_width", .ofUInt32 f.byteWidth)]

end Field

/-- Fields as a document. -/
def fieldsToJson (fields : List Field) : Json := .array (fields.map Field.toJson)

namespace Schema

/-- A schema; its rules are not checked. -/
def ofJson? (j : Json) : Option Schema := do
  let r ← j.record? ["name", "version", "fields"] .refused
  some
    { name := ← r.required "name" Json.string?
      version := ← r.required "version" Json.uint32?
      fields := ← r.required "fields" (Json.list? Field.ofJson?) }

/-- A schema as a document. -/
def toJson (s : Schema) : Json :=
  .object
    [("name", .string s.name), ("version", .ofUInt32 s.version), ("fields", fieldsToJson s.fields)]

end Schema

/-- An outcome. -/
def Outcome.ofJson? (j : Json) : Option Outcome := do
  match ← j.unitVariant? with
  | "allow" => some .allow
  | "reject" => some .reject
  | _ => none

/-- An outcome as its name. -/
def Outcome.toJson : Outcome → Json
  | .allow => .string "allow"
  | .reject => .string "reject"

/-- A rule. -/
def LayoutRule.ofJson? (j : Json) : Option LayoutRule := do
  match ← j.unitVariant? with
  | "preserved_field" => some .preservedField
  | "append_only" => some .appendOnly
  | "no_overlap" => some .noOverlap
  | _ => none

/-- A rule as its name. -/
def LayoutRule.toJson (r : LayoutRule) : Json := .string r.text

namespace LayoutViolation

/-- A violation with a content. -/
def ofContent? (name : String) (content : Json) : Option LayoutViolation :=
  match name with
  | "renamed" => do
    let r ← content.record? ["to"] .skipped
    some (.renamed (← r.required "to" Json.string?))
  | "moved" => do
    let r ← content.record? ["from", "to"] .skipped
    some (.moved (← r.required "from" Json.uint64?) (← r.required "to" Json.uint64?))
  | "retyped" => do
    let r ← content.record? ["from", "to"] .skipped
    some (.retyped (← r.required "from" Json.string?) (← r.required "to" Json.string?))
  | "resized" => do
    let r ← content.record? ["from", "to"] .skipped
    some (.resized (← r.required "from" Json.uint32?) (← r.required "to" Json.uint32?))
  | "inserted" => do
    let r ← content.record? ["below"] .skipped
    some (.inserted (← r.required "below" Json.uint64?))
  | "overlap" => do
    let r ← content.record? ["with"] .skipped
    some (.overlap (← r.required "with" Json.string?))
  | _ => none

/-- A violation. -/
def ofJson? (j : Json) : Option LayoutViolation :=
  match j.unitVariant? with
  | some "removed" => some .removed
  | _ =>
    match j.variant? with
    | some (name, some content) => ofContent? name content
    | _ => none

/-- A violation as a document. -/
def toJson : LayoutViolation → Json
  | .removed => .string "removed"
  | .renamed target => .object [("renamed", .object [("to", .string target)])]
  | .moved source target =>
    .object [("moved", .object [("from", .natural source), ("to", .natural target)])]
  | .retyped source target =>
    .object [("retyped", .object [("from", .string source), ("to", .string target)])]
  | .resized source target =>
    .object [("resized", .object [("from", .ofUInt32 source), ("to", .ofUInt32 target)])]
  | .inserted below => .object [("inserted", .object [("below", .natural below)])]
  | .overlap other => .object [("overlap", .object [("with", .string other)])]

end LayoutViolation

namespace CompatibilityVerdict

/-- A verdict; further keys are passed over. -/
def ofJson? (j : Json) : Option CompatibilityVerdict := do
  let r ← j.record?
    ["outcome", "reason", "conflicting_field", "rule", "violation", "appended_fields"] .skipped
  some
    { outcome := ← r.required "outcome" Outcome.ofJson?
      reason := ← r.optional "reason" Json.string?
      conflictingField := ← r.optional "conflicting_field" Field.ofJson?
      rule := ← r.optional "rule" LayoutRule.ofJson?
      violation := ← r.optional "violation" LayoutViolation.ofJson?
      appendedFields := ← r.required "appended_fields" (Json.list? Field.ofJson?) }

/-- A verdict as a document. -/
def toJson (v : CompatibilityVerdict) : Json :=
  .object
    [("outcome", v.outcome.toJson), ("reason", .ofOption .string v.reason),
      ("conflicting_field", .ofOption Field.toJson v.conflictingField),
      ("rule", .ofOption LayoutRule.toJson v.rule),
      ("violation", .ofOption LayoutViolation.toJson v.violation),
      ("appended_fields", fieldsToJson v.appendedFields)]

end CompatibilityVerdict

namespace UpgradeRecord

/-- A record of an upgrade. -/
def ofJson? (j : Json) : Option UpgradeRecord := do
  let r ← j.record?
    ["from_implementation", "from_version", "to_implementation", "to_version", "appended_fields"]
    .refused
  some
    { fromImplementation := ← r.required "from_implementation" Json.string?
      fromVersion := ← r.required "from_version" Json.uint32?
      toImplementation := ← r.required "to_implementation" Json.string?
      toVersion := ← r.required "to_version" Json.uint32?
      appendedFields := ← r.required "appended_fields" (Json.list? Field.ofJson?) }

/-- A record of an upgrade as a document. -/
def toJson (u : UpgradeRecord) : Json :=
  .object
    [("from_implementation", .string u.fromImplementation),
      ("from_version", .ofUInt32 u.fromVersion),
      ("to_implementation", .string u.toImplementation), ("to_version", .ofUInt32 u.toVersion),
      ("appended_fields", fieldsToJson u.appendedFields)]

end UpgradeRecord

end SlotLedger
