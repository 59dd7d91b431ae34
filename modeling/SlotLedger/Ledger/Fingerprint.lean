import SlotLedger.Digest.Sha256
import SlotLedger.Json.Printer
import SlotLedger.Layout.Schema
import SlotLedger.Storage

/-!
# Fingerprints

The canonical serialization of a ledger's state and its SHA-256 digest.  It names the schema by name
and version and lists the words in ascending slot order, so that it depends on what storage holds
and on nothing of how it came to hold it.
-/

namespace SlotLedger

/-- The version of the rules by which ledgers are run and fingerprinted. -/
def kernelVersion : UInt32 := 1

/-- A text's SHA-256 digest in lowercase hexadecimal digits. -/
def textDigest (text : String) : String := Bytes.hex (Sha256.digest (Bytes.utf8 text))

/-- The state of a ledger as a document. -/
def canonicalDocument (schema : Schema) (storage : Storage) : Json :=
  let words := storage.words.map fun w =>
    Json.array [.string (Word.hex w.slot), .string (Word.hex w.value)]
  .object
    [("kernel_version", .ofUInt32 kernelVersion),
      ("implementation", .string schema.name),
      ("schema_version", .ofUInt32 schema.version),
      ("storage", .array words)]

/-- The canonical serialization of a ledger's state. -/
def canonicalText (schema : Schema) (storage : Storage) : String :=
  (canonicalDocument schema storage).compact

/-- The fingerprint of a ledger's state. -/
def canonicalDigest (schema : Schema) (storage : Storage) : String :=
  textDigest (canonicalText schema storage)

end SlotLedger
