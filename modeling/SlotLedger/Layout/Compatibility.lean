import SlotLedger.Layout.Schema

/-!
# Layout compatibility

Whether storage written under one schema may be read under another.  Three rules apply in order and
the first one broken rejects:

1. every old field keeps its name, slot, type and width;
2. new fields start after every slot the old layout uses;
3. no field starts before the end of the field before it.

## Main definitions

* `LayoutRule`, `LayoutViolation`: the rule broken, and how.
* `CompatibilityVerdict`: the answer with its reasons.
* `Schema.checkUpgrade`: the decision.
-/

namespace SlotLedger

/-- Whether a layout may take over. -/
inductive Outcome where
  | allow
  | reject
deriving DecidableEq, Repr

/-- The rules, in the order in which they apply. -/
inductive LayoutRule where
  | preservedField
  | appendOnly
  | noOverlap
deriving DecidableEq, Repr

/-- The rule's name. -/
def LayoutRule.text : LayoutRule → String
  | .preservedField => "preserved_field"
  | .appendOnly => "append_only"
  | .noOverlap => "no_overlap"

/-- What happened to the conflicting field. -/
inductive LayoutViolation where
  | removed
  | renamed (target : String)
  | moved (source target : SlotIndex)
  | retyped (source target : String)
  | resized (source target : UInt32)
  | inserted (below : SlotIndex)
  | overlap (other : String)
deriving DecidableEq, Repr

/-- The violation in words. -/
def LayoutViolation.text : LayoutViolation → String
  | .removed => "removed"
  | .renamed target => s!"renamed to {Text.quoted target}"
  | .moved source target => s!"moved from slot {source.toNat} to slot {target.toNat}"
  | .retyped source target => s!"retyped from {source} to {target}"
  | .resized source target => s!"resized from {source.toNat} to {target.toNat} bytes"
  | .inserted below => s!"inserted below the end of the existing layout (slot {below.toNat})"
  | .overlap other => s!"overlaps field {Text.quoted other}"

/-- The answer of one compatibility check. -/
structure CompatibilityVerdict where
  outcome : Outcome
  reason : Option String
  conflictingField : Option Field
  rule : Option LayoutRule
  violation : Option LayoutViolation
  /-- The fields the new layout adds; none where it is rejected. -/
  appendedFields : List Field
deriving DecidableEq, Repr

namespace CompatibilityVerdict

/-- The new layout may take over and adds the given fields. -/
def allow (appended : List Field) : CompatibilityVerdict :=
  ⟨.allow, none, none, none, none, appended⟩

/-- The new layout is refused for what happened to a field. -/
def reject (rule : LayoutRule) (field : Field) (violation : LayoutViolation) :
    CompatibilityVerdict :=
  let reason :=
    s!"[LAYOUT:{rule.text}] storage slot reinterpreted incompatibly: " ++
      s!"field {Text.quoted field.name} {violation.text}"
  ⟨.reject, some reason, some field, some rule, some violation, []⟩

/-- Whether the new layout may take over. -/
def isAllowed (v : CompatibilityVerdict) : Bool := v.outcome == .allow

end CompatibilityVerdict

namespace Schema

/-- What happened to an old field under the new schema, if it is not carried over intact. -/
def fieldChange (new : Schema) (f : Field) : Option LayoutViolation :=
  match new.field? f.name with
  | none =>
    -- A field of the same shape under another name is taken for the old one renamed.
    match new.fields.find? (·.sameShape f) with
    | some renamed => some (.renamed renamed.name)
    | none => some .removed
  | some g =>
    if g.slotIndex ≠ f.slotIndex then
      some (.moved f.slotIndex g.slotIndex)
    else if g.semanticType ≠ f.semanticType then
      if g.semanticType.sameFamily f.semanticType then
        some (.resized f.byteWidth g.byteWidth)
      else
        some (.retyped f.semanticType.text g.semanticType.text)
    else if g.byteWidth ≠ f.byteWidth then
      some (.resized f.byteWidth g.byteWidth)
    else
      none

/-- The first of the fields that is not carried over intact, and what happened to it. -/
def firstChange (new : Schema) : List Field → Option (Field × LayoutViolation)
  | [] => none
  | f :: rest =>
    match fieldChange new f with
    | some violation => some (f, violation)
    | none => firstChange new rest

/-- The fields of a new schema whose names the old one lacks, in order. -/
def appended (old new : Schema) : List Field :=
  new.fields.filter fun f => (old.field? f.name).isNone

/-- The first field that starts before the end of its predecessor, with the predecessor's name. -/
def firstOverlap : List Field → Option (Field × LayoutViolation)
  | f :: g :: rest =>
    if g.slotIndex < f.slotEnd then some (g, .overlap f.name) else firstOverlap (g :: rest)
  | _ => none

/-- Whether storage written under `old` may be taken over by `new`. -/
def checkUpgrade (old new : Schema) : CompatibilityVerdict :=
  if old.isEmpty then
    -- No field is stored yet, so none can be read in a wrong way.
    .allow new.fields
  else
    match firstChange new old.fields with
    | some (field, violation) => .reject .preservedField field violation
    | none =>
      match (appended old new).find? (·.slotIndex < old.slotEnd) with
      | some field => .reject .appendOnly field (.inserted old.slotEnd)
      | none =>
        match firstOverlap new.fields with
        | some (field, violation) => .reject .noOverlap field violation
        | none => .allow (appended old new)

end Schema

end SlotLedger
