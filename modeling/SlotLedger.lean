import SlotLedger.Ledger.Diff
import SlotLedger.Main
import SlotLedger.Proofs.Layout.Slots
import SlotLedger.Proofs.Ledger.AuditCap
import SlotLedger.Proofs.Ledger.Refinement
import SlotLedger.Proofs.Wire.Fields
import SlotLedger.Proofs.Wire.Records
import SlotLedger.Proofs.OperationLog
import SlotLedger.Proofs.Disk.Paths
import SlotLedger.Proofs.Snapshot.Directory
import SlotLedger.Proofs.Session.Run
import SlotLedger.Proofs.Json.RoundTrip
import SlotLedger.Proofs.Document.ReadBack
import SlotLedger.Proofs.Disk.Parent
import SlotLedger.Proofs.Snapshot.Restore
import SlotLedger.Proofs.Snapshot.Behaviour
import SlotLedger.Proofs.Session.Reopen
import SlotLedger.Proofs.OperationLog.Truncation
import SlotLedger.Proofs.OperationLog.Acknowledged
import SlotLedger.Proofs.Session.Start
import SlotLedger.Proofs.Session.Recovery
import SlotLedger.Proofs.Session.Capture
import SlotLedger.Proofs.Layout.Preorder
import SlotLedger.Proofs.Ledger.Representation
import SlotLedger.Proofs.Ledger.Privilege
import SlotLedger.Proofs.Ledger.Lineage
import SlotLedger.Proofs.Layout.Descriptor
import SlotLedger.Proofs.Layout.Builder
import SlotLedger.Proofs.Layout.Packed
import SlotLedger.Proofs.Ledger.Diff
import SlotLedger.Proofs.Wire.Strict
import SlotLedger.Proofs.Amount
import SlotLedger.Proofs.Session.Scenario
import SlotLedger.Proofs.Storage
import SlotLedger.Proofs.Json.Strict
import SlotLedger.Proofs.Document.Operation
import SlotLedger.Proofs.Ledger.Overlay
import SlotLedger.Proofs.Ledger.Itemization
import SlotLedger.Proofs.Layout.Width
import SlotLedger.Proofs.Ledger.Addressing
