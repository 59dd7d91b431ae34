import SlotLedger.Proofs.Document.Depth
import SlotLedger.Proofs.Ledger.Restorable
import SlotLedger.Proofs.Snapshot.Directory
import SlotLedger.Proofs.Snapshot.Restore

/-!
# Snapshots there and back

A snapshot that was saved is loaded as it was captured, and what it restores is the ledger that it
was captured of.  This holds of every ledger that operations within a registry lead to, if the
registry names its implementations after their schemas, their initializers are the standard one,
and the image does not nest deeper than documents may.

## Main definitions

* `Registry.SetsUpByDefault`: every implementation has the standard initializer

## Main results

* `Snapshot.load_of_save`: what was saved is loaded
* `Snapshot.restore_capture_of_get?`, `Snapshot.restore_capture`: what was captured is restored
* `Snapshot.roundTrip_operateAll`: both, of every ledger that operations lead to
-/

namespace SlotLedger

/-- The logic of every implementation has the standard initializer. -/
def Registry.SetsUpByDefault (registry : Registry) : Prop :=
  ∀ name i, registry.get? name = some i → i.logic.setUp = Logic.standardSetUp

theorem Registry.setsUpByDefault_builtin : Registry.SetsUpByDefault .builtin := by
  intro name i hi
  have hmem := (mem_of_get?_ofList hi).1
  simp only [Implementation.builtin, List.mem_cons, List.not_mem_nil, or_false] at hmem
  rcases hmem with rfl | rfl | rfl | rfl <;> rfl

/-- The image does not nest deeper than documents may. -/
def LedgerImage.IsShallow (i : LedgerImage) : Prop := i.toJson.depth ≤ Json.maxDepth

instance (i : LedgerImage) : Decidable i.IsShallow := inferInstanceAs (Decidable (_ ≤ _))

namespace Snapshot

/-- A snapshot nests nothing: the image in it is a text. -/
theorem ofText?_compact (s : Snapshot) : ofText? s.toJson.compact = some s := by
  have hwhole : Json.ReadsWhole ofJson? toJson := fun s _ => ofJson?_toJson s
  have hdepth : s.toJson.depth ≤ Json.maxDepth := by
    simp [toJson, Json.depth, Json.membersDepth, Json.ofUInt32, Json.maxDepth]
  exact hwhole.parse?_compact (readsBack.isPlain s) hdepth

/-- **What was saved is loaded.** -/
theorem load_of_save {disk disk' : Disk} {directory path : Path} {n : UInt64} {l : Ledger}
    (h : save disk directory n l = (.ok path, disk')) (hread : disk'.canRead path = true) :
    load disk' directory n = .ok (some (capture n l)) := by
  obtain ⟨hpath, hcontent⟩ := content?_of_save h
  obtain ⟨-, htext⟩ := readText?_of_save h hread
  rw [hpath] at hcontent htext
  rw [load, if_pos (Disk.has_of_content? hcontent), htext]
  dsimp only
  rw [ofText?_compact]

/-- **A snapshot is saved** where its directory can be made and its file can be written. -/
theorem exists_save {disk made : Disk} {directory : Path} {n : UInt64} {place : Place}
    (hmade : disk.makeDirectories directory = (true, made))
    (hplace : made.place? (directory.join (fileName n)) = some place)
    (hcan : Disk.canWriteAt made.root place = true) (hfree : place ∉ made.unwritable)
    (l : Ledger) :
    ∃ disk', save disk directory n l = (.ok (directory.join (fileName n)), disk') ∧
      ∀ path, disk'.canRead path = made.canRead path := by
  obtain ⟨disk', hwrite⟩ : ∃ disk', made.writeText? (directory.join (fileName n))
      (capture n l).toJson.compact = some disk' :=
    ⟨_, Disk.write?_eq_some_iff.mpr ⟨place, hplace, hcan, hfree, rfl⟩⟩
  refine ⟨disk', ?_, Disk.canRead_of_write? hwrite⟩
  rw [save, hmade]
  dsimp only
  rw [hwrite]

section Restore

variable {registry : Registry} {l : Ledger} {i : Implementation}

/-- **What was captured is restored** with the logic that the registry has under the name of the
schema, if that comes to a ledger that can be restored and the image does not nest too deep. -/
theorem restore_capture_of_get? (hi : registry.get? l.implementation = some i)
    (hschema : i.schema = l.schema) (hl : { l with logic := i.logic }.IsRestorable)
    (hshallow : (LedgerImage.ofLedger l).IsShallow) (n : UInt64) :
    (capture n l).restore registry = .ok { l with logic := i.logic } := by
  have himage : (Json.parse? (capture n l).content).bind LedgerImage.ofJson? =
      some (LedgerImage.ofLedger l) :=
    LedgerImage.readsWhole.parse?_compact (LedgerImage.readsBack.isPlain _) hshallow
  have hname : registry.get? (LedgerImage.ofLedger l).implementation = some i := hi
  have hstored : i.schema = (LedgerImage.ofLedger l).schema := hschema
  have hwords : Storage.ofWords (LedgerImage.ofLedger l).words = l.storage :=
    Storage.ofWords_words l.storage
  have hledger : restoreImage (capture n l).sequence (LedgerImage.ofLedger l) registry =
      .ok { l with logic := i.logic } := by
    rw [restoreImage_of_get? hname, if_pos hstored, hwords]
    exact congrArg (Except.mapError _) (Ledger.restore_snapshot hl)
  -- The digest and the version are those of the capture, and the logic is not in the fingerprint.
  rw [restore, isIntact_capture, if_neg (by simp), if_neg (by simp [capture]), himage]
  dsimp only
  rw [hledger]
  exact if_pos rfl

/-- What was captured is restored where implementations stand under the names of their schemas. -/
theorem restore_capture (hregistry : registry.NamesSchemas) (hknown : l.IsKnown registry)
    (hl : l.IsRestorable) (hshallow : (LedgerImage.ofLedger l).IsShallow) (n : UInt64) :
    (capture n l).restore registry = .ok l := by
  obtain ⟨name, i, hi, hschema, hlogic⟩ := hknown
  have hname : registry.get? l.implementation = some i := by
    rw [Ledger.implementation, hschema, hregistry name i hi, hi]
  have hsame : { l with logic := i.logic } = l := by rw [← hlogic]
  have hrestored := restore_capture_of_get? hname hschema.symm (hsame.symm ▸ hl) hshallow n
  rw [hrestored, hsame]

end Restore

/-- **A snapshot is saved, loaded and restored without loss**, of every ledger that a deployment and
any operations within a registry lead to.  The registry has to name its implementations after their
schemas and to use the standard initializer, and of the hash it is assumed that the cells that were
written are no low slots. -/
theorem roundTrip_operateAll {registry : Registry} (hregistry : registry.NamesSchemas)
    (hsetUp : registry.SetsUpByDefault) {d : Deployment} {fresh : Ledger}
    (hdeploy : d.deploy registry = .ok fresh) (operations : List Operation)
    {considered : Set Account} (hhigh : fresh.bindings.CellsHigh considered)
    (hwritten : ∀ w ∈ writtenCells (fresh.setUpEdits d.deployer ++
      fresh.runEdits (operations.filterMap (·.call? registry))), w.account ∈ considered)
    (hshallow : (LedgerImage.ofLedger (fresh.operateAll registry operations)).IsShallow)
    (n : UInt64) :
    (∀ disk directory path disk',
        save disk directory n (fresh.operateAll registry operations) = (.ok path, disk') →
          disk'.canRead path = true →
            load disk' directory n =
              .ok (some (capture n (fresh.operateAll registry operations)))) ∧
      (capture n (fresh.operateAll registry operations)).restore registry =
        .ok (fresh.operateAll registry operations) := by
  have hrestorable : (fresh.operateAll registry operations).IsRestorable := by
    obtain ⟨i, hi, hdeployed⟩ := Ledger.isDeployed_of_deploy hdeploy
    simp only [writtenCells_append, List.mem_append] at hwritten
    rw [Ledger.operateAll_eq_run]
    exact Ledger.isRestorable_run hdeployed (hsetUp _ i hi) _ hhigh
      (fun w hw => hwritten w (.inl hw)) fun w hw => hwritten w (.inr hw)
  have hknown := Ledger.isKnown_operateAll (Ledger.isKnown_of_deploy hdeploy) operations
  exact ⟨fun _ _ _ _ => load_of_save, restore_capture hregistry hknown hrestorable hshallow n⟩

/-- A mint and the upgrade to the second version of the token. -/
def mintThenUpgrade : List Operation := [.mint 0xd0 0xd0 5, .upgrade "TokenUpgradeableV2"]

set_option maxRecDepth 100000 in
/-- The ledger after an upgrade, saved on an empty disk. -/
theorem roundTrip_operateAll_mintThenUpgrade :
    ∃ fresh path disk', Deployment.deploy ⟨"TokenUpgradeableV1", 0xd0, true⟩ .builtin = .ok fresh ∧
      (fresh.operateAll .builtin mintThenUpgrade).history.length = 1 ∧
      save .empty ⟨"snapshots"⟩ 4 (fresh.operateAll .builtin mintThenUpgrade) =
        (.ok path, disk') ∧
      load disk' ⟨"snapshots"⟩ 4 =
        .ok (some (capture 4 (fresh.operateAll .builtin mintThenUpgrade))) ∧
      (capture 4 (fresh.operateAll .builtin mintThenUpgrade)).restore .builtin =
        .ok (fresh.operateAll .builtin mintThenUpgrade) := by
  have htest : passes (Deployment.deploy ⟨"TokenUpgradeableV1", 0xd0, true⟩ .builtin) (fun fresh =>
      decide ((fresh.bindings.balances = 1 ∧ fresh.bindings.roles = 3) ∧
        (∀ w ∈ writtenCells (fresh.setUpEdits 0xd0 ++
          fresh.runEdits (mintThenUpgrade.filterMap (·.call? .builtin))),
            w.account ∈ [0xd0, 0xb0]) ∧
        (LedgerImage.ofLedger (fresh.operateAll .builtin mintThenUpgrade)).IsShallow ∧
        (fresh.operateAll .builtin mintThenUpgrade).history.length = 1)) = true := by
    decide +kernel
  obtain ⟨fresh, hdeploy, htest⟩ := exists_of_passes htest
  obtain ⟨⟨hbalances, hroles⟩, hwritten, hshallow, hhistory⟩ := of_decide_eq_true htest
  have hdisk : (Disk.empty.makeDirectories ⟨"snapshots"⟩).1 = true ∧
      ((Disk.empty.makeDirectories ⟨"snapshots"⟩).2.place?
        (Path.join ⟨"snapshots"⟩ (fileName 4))).any (fun place =>
          Disk.canWriteAt (Disk.empty.makeDirectories ⟨"snapshots"⟩).2.root place) = true := by
    decide +kernel
  obtain ⟨place, hplace, hcan⟩ := (Option.any_eq_true _ _).mp hdisk.2
  obtain ⟨root, -, hmake⟩ := Disk.empty.makeDirectories_eq ⟨"snapshots"⟩
  have hfree : place ∉ (Disk.empty.makeDirectories ⟨"snapshots"⟩).2.unwritable := by
    rw [hmake]
    exact List.not_mem_nil
  obtain ⟨disk', hsave, hread⟩ := exists_save (Prod.ext hdisk.1 rfl) hplace hcan hfree
    (fresh.operateAll .builtin mintThenUpgrade)
  obtain ⟨hloads, hrestores⟩ := roundTrip_operateAll Registry.namesSchemas_builtin
    Registry.setsUpByDefault_builtin hdeploy mintThenUpgrade
    (Bindings.cells_of_token hbalances hroles).2 hwritten hshallow 4
  refine ⟨fresh, _, disk', hdeploy, hhistory, hsave, hloads _ _ _ _ hsave ?_, hrestores⟩
  have hreadable : (Disk.empty.makeDirectories ⟨"snapshots"⟩).2.unreadable = [] := by
    rw [hmake]
    rfl
  rw [hread, Disk.canRead, hplace, hreadable]
  rfl

end Snapshot

end SlotLedger
