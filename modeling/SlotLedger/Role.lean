import SlotLedger.Digest.Keccak
import SlotLedger.Word

/-!
# Roles

The three roles of a ledger, their names and the keys their members are stored under.
-/

namespace SlotLedger

/-- What an account may be a member of. -/
inductive Role where
  | defaultAdmin
  | minter
  | audit
deriving DecidableEq, Repr

namespace Role

/-- Every role, in the order in which reports list them. -/
def all : List Role := [.defaultAdmin, .minter, .audit]

/-- The role's name in documents, records and messages. -/
def name : Role → String
  | .defaultAdmin => "DEFAULT_ADMIN_ROLE"
  | .minter => "MINTER_ROLE"
  | .audit => "AUDIT_ROLE"

/-- The role of a name. -/
def ofName? (name : String) : Option Role := all.find? fun r => r.name == name

/-- The key of the role's member mapping: zero for the admin role, else the digest of the name. -/
def key : Role → Word
  | .defaultAdmin => 0
  | role => Word.ofBytes (Keccak.digest (Bytes.utf8 role.name))

/-- The role whose members grant and revoke this one. -/
def administrator (_ : Role) : Role := .defaultAdmin

theorem mem_all (r : Role) : r ∈ all := by cases r <;> simp [all]

@[simp] theorem ofName?_name (r : Role) : ofName? r.name = some r := by cases r <;> rfl

theorem ofName?_eq_some_iff {name : String} {r : Role} : ofName? name = some r ↔ r.name = name := by
  constructor
  · intro h
    have := List.find?_some h
    simpa using this
  · rintro rfl
    exact ofName?_name r

end Role

end SlotLedger
