import SlotLedger.Ledger.Logic

/-!
# Implementations

An implementation pairs a storage schema with the logic that runs over it.  A registry finds
implementations by name, so that an upgrade recorded by name can be carried out again.

## Main definitions

* `Schema.tokenV1`, `Schema.tokenV2`, `Schema.tokenV2Wrong`, `Schema.token`: the token's layouts.
* `Implementation`, `Registry`, `Registry.builtin`.
-/

namespace SlotLedger

namespace Schema

/-- The layout of the first version. -/
def tokenV1 : Schema :=
  ((((SchemaBuilder.start "TokenUpgradeableV1" 1).field FieldName.initialized .uint8).field
    FieldName.balances balancesType).field FieldName.totalSupply .uint256).field
    FieldName.roles rolesType |>.build

/-- The layout of the second version: the first with the audited counter appended. -/
def tokenV2 : Schema :=
  (((((SchemaBuilder.start "TokenUpgradeableV2" 2).field FieldName.initialized .uint8).field
    FieldName.balances balancesType).field FieldName.totalSupply .uint256).field
    FieldName.roles rolesType).field FieldName.totalAudited .uint256 |>.build

/-- A broken layout of the second version: the audited counter stands before the total supply and
shifts every later field. -/
def tokenV2Wrong : Schema :=
  (((((SchemaBuilder.start "TokenUpgradeableV2Wrong" 2).field FieldName.initialized .uint8).field
    FieldName.balances balancesType).field FieldName.totalAudited .uint256).field
    FieldName.totalSupply .uint256).field FieldName.roles rolesType |>.build

/-- The layout of the token that cannot be upgraded. -/
def token : Schema :=
  ((((SchemaBuilder.start "Token" 1).field FieldName.initialized .uint8).field
    FieldName.balances balancesType).field FieldName.totalSupply .uint256).field
    FieldName.roles rolesType |>.build

end Schema

/-- A schema and the logic that runs over it. -/
structure Implementation where
  name : String
  schema : Schema
  logic : Logic

namespace Implementation

/-- The implementations every process knows. -/
def builtin : List Implementation :=
  [⟨"Token", .token, .fixedToken⟩, ⟨"TokenUpgradeableV1", .tokenV1, .tokenV1⟩,
    ⟨"TokenUpgradeableV2", .tokenV2, .tokenV2⟩,
    ⟨"TokenUpgradeableV2Wrong", .tokenV2Wrong, .tokenV2⟩]

end Implementation

/-- The implementations known by name. -/
structure Registry where
  entries : Table String Implementation

namespace Registry

/-- The registry that knows no implementation. -/
def empty : Registry := ⟨.empty⟩

/-- Add an implementation under its name, in place of any other of that name. -/
def register (r : Registry) (i : Implementation) : Registry := ⟨r.entries.insert i.name i⟩

/-- The registry of the given implementations; of two with one name the later one counts. -/
def ofList (implementations : List Implementation) : Registry :=
  implementations.foldl register empty

/-- The registry of the four token implementations. -/
def builtin : Registry := ofList Implementation.builtin

/-- The implementation of a name. -/
def get? (r : Registry) (name : String) : Option Implementation := r.entries.get? name

/-- The names in ascending order. -/
def names (r : Registry) : List String := r.entries.keys

end Registry

end SlotLedger
