import SlotLedger.Document.Layout
import SlotLedger.Document.Value
import SlotLedger.Json.Reader
import SlotLedger.Ledger.Basic

/-!
# Snapshots

A snapshot holds a ledger as the text of a document, the digest of this text and the ledger's
fingerprint.  Nothing in it depends on when it was taken.

Restoring trusts nothing: it checks the digest, the version of the rules, the document, the
implementation against a registry and at last the fingerprint of the ledger that came about.

## Main definitions

* `LedgerImage`: a ledger's parts, its logic by name.
* `Snapshot.capture`, `Snapshot.restore`: a ledger to a snapshot and back.
* `Snapshot.ofJson?`, `Snapshot.toJson`: snapshots as documents.
-/

namespace SlotLedger

/-! ## Images -/

/-- The parts of a ledger; the implementation's name stands for its logic. -/
structure LedgerImage where
  implementation : String
  upgradeable : Bool
  schema : Schema
  history : List UpgradeRecord
  /-- The words in ascending slot order. -/
  words : List StorageWord
deriving DecidableEq

namespace LedgerImage

/-- The image of a ledger. -/
def ofLedger (l : Ledger) : LedgerImage :=
  ⟨l.implementation, l.upgradeable, l.schema, l.history, l.storage.words⟩

/-- An image. -/
def ofJson? (j : Json) : Option LedgerImage := do
  let r ← j.record? ["implementation", "upgradeable", "schema", "history", "storage"] .refused
  some
    { implementation := ← r.required "implementation" Json.string?
      upgradeable := ← r.required "upgradeable" Json.bool?
      schema := ← r.required "schema" Schema.ofJson?
      history := ← r.required "history" (Json.list? UpgradeRecord.ofJson?)
      words := ← r.required "storage" (Json.list? StorageWord.ofJson?) }

/-- An image as a document. -/
def toJson (i : LedgerImage) : Json :=
  .object
    [("implementation", .string i.implementation), ("upgradeable", .bool i.upgradeable),
      ("schema", i.schema.toJson), ("history", .array (i.history.map UpgradeRecord.toJson)),
      ("storage", .array (i.words.map StorageWord.toJson))]

end LedgerImage

/-! ## Snapshots -/

/-- A ledger at a position of its log. -/
structure Snapshot where
  /-- The number of the last record the ledger includes. -/
  sequence : UInt64
  kernelVersion : UInt32
  /-- The fingerprint of the ledger. -/
  fingerprint : String
  /-- The text of the ledger's image. -/
  content : String
  /-- The digest of the content. -/
  digest : String
deriving DecidableEq

/-- Why a snapshot was refused. -/
inductive SnapshotError where
  /-- The disk refused. -/
  | io
  /-- A text is not the document it should be. -/
  | json
  | hashMismatch (sequence : UInt64)
  | kernelVersion (sequence : UInt64) (found expected : UInt32)
  | unknownImplementation (sequence : UInt64) (implementation : String)
  | schemaMismatch (sequence : UInt64) (implementation : String)
  | fingerprintMismatch (sequence : UInt64) (expected actual : String)
  | restore (error : UpgradeError)
deriving DecidableEq

/-- The error's code; the code of a refusal within it follows after a dot. -/
def SnapshotError.code : SnapshotError → String
  | .io => "io"
  | .json => "json"
  | .hashMismatch _ => "hash_mismatch"
  | .kernelVersion .. => "kernel_version"
  | .unknownImplementation .. => "unknown_implementation"
  | .schemaMismatch .. => "schema_mismatch"
  | .fingerprintMismatch .. => "fingerprint_mismatch"
  | .restore error => "restore." ++ error.code

/-- The error in words. -/
def SnapshotError.message : SnapshotError → String
  | .io => "snapshot I/O"
  | .json => "snapshot JSON"
  | .hashMismatch sequence => s!"snapshot {sequence.toNat}: content hash mismatch"
  | .kernelVersion sequence found expected =>
    s!"snapshot {sequence.toNat}: written by kernel v{found.toNat}, " ++
      s!"this is kernel v{expected.toNat}"
  | .unknownImplementation sequence implementation =>
    s!"snapshot {sequence.toNat}: unknown implementation {implementation}"
  | .schemaMismatch sequence implementation =>
    s!"snapshot {sequence.toNat}: stored layout differs from registered {implementation}"
  | .fingerprintMismatch sequence expected actual =>
    s!"snapshot {sequence.toNat}: restored fingerprint {actual} does not match {expected}"
  | .restore error => s!"snapshot restore failed: {error.message}"

namespace Snapshot

/-- The snapshot of a ledger. -/
def capture (sequence : UInt64) (l : Ledger) : Snapshot :=
  let content := (LedgerImage.ofLedger l).toJson.compact
  { sequence
    kernelVersion := SlotLedger.kernelVersion
    fingerprint := l.fingerprint
    content
    digest := textDigest content }

/-- Whether the digest is that of the content. -/
def isIntact (s : Snapshot) : Bool := textDigest s.content == s.digest

/-- The ledger of an image, once its implementation is found to have the image's schema. -/
def restoreImage (sequence : UInt64) (image : LedgerImage) (registry : Registry) :
    Except SnapshotError Ledger :=
  match registry.get? image.implementation with
  | none => .error (.unknownImplementation sequence image.implementation)
  | some i =>
    -- The logic comes from the registry, so the layout it was written for has to be the stored one.
    if i.schema = image.schema then
      let parts : LedgerParts :=
        { schema := image.schema
          logic := i.logic
          storage := Storage.ofWords image.words
          history := image.history
          upgradeable := image.upgradeable }
      (Ledger.restore parts).mapError .restore
    else
      .error (.schemaMismatch sequence image.implementation)

/-- The ledger of a snapshot, if every check passes. -/
def restore (s : Snapshot) (registry : Registry) : Except SnapshotError Ledger := do
  if !s.isIntact then throw (.hashMismatch s.sequence)
  if s.kernelVersion ≠ SlotLedger.kernelVersion then
    throw (.kernelVersion s.sequence s.kernelVersion SlotLedger.kernelVersion)
  match (Json.parse? s.content).bind LedgerImage.ofJson? with
  | none => throw .json
  | some image =>
    let l ← restoreImage s.sequence image registry
    if l.fingerprint = s.fingerprint then return l
    else throw (.fingerprintMismatch s.sequence s.fingerprint l.fingerprint)

/-- A snapshot. -/
def ofJson? (j : Json) : Option Snapshot := do
  let r ← j.record? ["sequence", "kernel_version", "fingerprint", "canonical_json", "hash"] .refused
  some
    { sequence := ← r.required "sequence" Json.uint64?
      kernelVersion := ← r.required "kernel_version" Json.uint32?
      fingerprint := ← r.required "fingerprint" Json.string?
      content := ← r.required "canonical_json" Json.string?
      digest := ← r.required "hash" Json.string? }

/-- A snapshot as a document. -/
def toJson (s : Snapshot) : Json :=
  .object
    [("sequence", .natural s.sequence), ("kernel_version", .ofUInt32 s.kernelVersion),
      ("fingerprint", .string s.fingerprint), ("canonical_json", .string s.content),
      ("hash", .string s.digest)]

/-- A captured snapshot is intact. -/
theorem isIntact_capture (sequence : UInt64) (l : Ledger) :
    (capture sequence l).isIntact = true := by
  simp [capture, isIntact]

end Snapshot

end SlotLedger
