import SlotLedger.Proofs.Document.ReadBack
import SlotLedger.Proofs.Ledger.Registry
import SlotLedger.Proofs.Ledger.Restorable
import SlotLedger.Snapshot.Directory

/-!
# Restoring what was captured

A snapshot keeps the words of a ledger and the name of its implementation, and not its logic.  A
registry in which every implementation stands under the name of its own schema gives the logic back,
and binding it to the schema again gives the same bindings.  So what is restored from a snapshot of
a ledger is that ledger.

## Main results

* `Snapshot.of_restore_capture`: only the logic of what is restored can be another
* `Snapshot.eq_of_restore_capture`: what is restored is what was captured
* `Snapshot.eq_of_ofText?`: what is read from a snapshot's file is what was written
-/

namespace SlotLedger

/-- Every implementation stands under the name of its own schema. -/
def Registry.NamesSchemas (registry : Registry) : Prop :=
  ∀ name i, registry.get? name = some i → i.schema.name = name

/-- The builtin implementations stand under the names of their schemas. -/
theorem Registry.namesSchemas_builtin : Registry.NamesSchemas .builtin := by
  intro name i hi
  have hnames : ∀ i ∈ Implementation.builtin, i.schema.name = i.name := by decide
  obtain ⟨hmem, hname⟩ := mem_of_get?_ofList hi
  exact (hnames i hmem).trans hname

namespace Snapshot

variable {registry : Registry} {l l' : Ledger}

/-- What is restored where the registry knows the implementation. -/
theorem restoreImage_of_get? {sequence : UInt64} {image : LedgerImage} {i : Implementation}
    (hi : registry.get? image.implementation = some i) :
    restoreImage sequence image registry =
      if i.schema = image.schema then
        (Ledger.restore ⟨image.schema, i.logic, Storage.ofWords image.words, image.history,
          image.upgradeable⟩).mapError .restore
      else .error (.schemaMismatch sequence image.implementation) := by
  rw [restoreImage, hi]

/-- What is restored from an image has the logic that the registry keeps under the name of the
schema, and nothing else is new. -/
theorem of_restoreImage (hbound : l.IsBound) {sequence : UInt64}
    (h : restoreImage sequence (LedgerImage.ofLedger l) registry = .ok l') :
    ∃ i, registry.get? l.implementation = some i ∧ i.schema = l.schema ∧
      l' = { l with logic := i.logic } := by
  cases hi : registry.get? (LedgerImage.ofLedger l).implementation with
  | none =>
    rw [restoreImage, hi] at h
    cases h
  | some i =>
    rw [restoreImage_of_get? hi] at h
    split at h
    · rename_i hschema
      obtain ⟨hparts, ⟨-, hb⟩, -⟩ := Ledger.restore_eq_ok_iff.mp (mapError_eq_ok_iff.mp h)
      have hstorage : Storage.ofWords (LedgerImage.ofLedger l).words = l.storage :=
        Storage.ofWords_words l.storage
      rw [hstorage] at hparts
      obtain ⟨schema, logic, b, storage, history, upgradeable⟩ := l'
      cases hparts
      -- The image keeps no bindings; there is one way to bind to its schema.
      obtain rfl : b = l.bindings := Logic.eq_of_bind hbound.bound hb
      exact ⟨i, hi, hschema, rfl⟩
    · cases h

/-- What is restored from a snapshot was restored from the image in it. -/
theorem of_restore_capture (hbound : l.IsBound) {sequence : UInt64}
    (h : (capture sequence l).restore registry = .ok l') :
    ∃ i, registry.get? l.implementation = some i ∧ i.schema = l.schema ∧
      l' = { l with logic := i.logic } := by
  rw [restore, isIntact_capture, if_neg (by simp), if_neg (by simp [capture])] at h
  split at h
  · cases h
  rename_i image himage
  obtain rfl := LedgerImage.readsBack.parse?_compact himage
  obtain ⟨m, hm, hfingerprint⟩ := bind_eq_ok_iff.mp h
  split at hfingerprint
  · rw [← Except.ok.inj hfingerprint]
    exact of_restoreImage hbound hm
  · cases hfingerprint

/-- **What is restored is what was captured.** -/
theorem eq_of_restore_capture (hregistry : registry.NamesSchemas) (hknown : l.IsKnown registry)
    (hbound : l.IsBound) {sequence : UInt64}
    (h : (capture sequence l).restore registry = .ok l') : l' = l := by
  obtain ⟨name, i, hi, hschema, hlogic⟩ := hknown
  obtain ⟨i', hi', -, hl'⟩ := of_restore_capture hbound h
  -- The name in the image is the one under which the implementation was found.
  rw [Ledger.implementation, hschema, hregistry name i hi, hi] at hi'
  obtain rfl := Option.some.inj hi'
  rw [hl', ← hlogic]

/-- What is read from a snapshot's file is what was written. -/
theorem eq_of_ofText? {s s' : Snapshot} (h : ofText? s.toJson.compact = some s') : s' = s :=
  readsBack.parse?_compact h

end Snapshot

end SlotLedger
