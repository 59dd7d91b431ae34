import Mathlib.Data.List.Basic
import SlotLedger.Ledger.Fingerprint
import SlotLedger.Proofs.Document.Depth
import SlotLedger.Proofs.Storage

/-!
# Fingerprints identify states

The canonical serialization can be read back, so no two documents have one text, and the document
of a ledger tells its schema's name, its version and every word.  A fingerprint therefore stands for
one state only, unless the digests of two serializations collide.  What it stands for is the name
and the version of a schema: the fields of a schema are not in it.

## Main definitions

* `SameState`: one name, one version, and storages that read alike
* `Sha256.Collide`: different messages with one digest

## Main results

* `Bytes.hex_inj`, `Word.hex_inj`: digits of fixed width tell the octets
* `Json.compact_inj`: different documents have different texts
* `canonicalText_eq_iff`, `canonicalDigest_eq_iff`: what equal texts and equal fingerprints say
-/

namespace SlotLedger

/-! ## Hexadecimal digits -/

namespace Bytes

theorem digitChar_inj : ∀ m < 16, ∀ n < 16, Nat.digitChar m = Nat.digitChar n → m = n := by
  decide

/-- An octet is told by its two digits. -/
theorem octet_inj {a b : UInt8}
    (hhigh : Nat.digitChar (a.toNat / 16) = Nat.digitChar (b.toNat / 16))
    (hlow : Nat.digitChar (a.toNat % 16) = Nat.digitChar (b.toNat % 16)) : a = b := by
  have ha := a.toNat_lt
  have hb := b.toNat_lt
  have hquot := digitChar_inj _ (by omega) _ (by omega) hhigh
  have hrem := digitChar_inj _ (by omega) _ (by omega) hlow
  exact UInt8.toNat_inj.mp (by omega)

theorem hexChars_inj {a b : Bytes} (h : hexChars a = hexChars b) : a = b := by
  -- Every octet has two digits, so the octets in front have the digits in front.
  induction a generalizing b with
  | nil =>
    cases b with
    | nil => rfl
    | cons y b => cases h
  | cons x a ih =>
    cases b with
    | nil => cases h
    | cons y b =>
      obtain ⟨hhigh, hrest⟩ := List.cons_eq_cons.mp h
      obtain ⟨hlow, hrest⟩ := List.cons_eq_cons.mp hrest
      rw [octet_inj hhigh hlow, ih hrest]

/-- **Different octets have different digits.** -/
theorem hex_inj {a b : Bytes} (h : hex a = hex b) : a = b :=
  hexChars_inj (String.ofList_injective h)

end Bytes

theorem Word.hex_inj {v w : Word} (h : Word.hex v = Word.hex w) : v = w := by
  rw [← Word.ofBytes_bytes v, ← Word.ofBytes_bytes w, Bytes.hex_inj h]

/-! ## Documents -/

namespace Json

/-- **Different documents have different texts**, if they nest no deeper than the reader follows. -/
theorem compact_inj {j k : Json} (hj : j.isPlain = true) (hk : k.isPlain = true)
    (hj' : j.depth ≤ maxDepth) (hk' : k.depth ≤ maxDepth) (h : j.compact = k.compact) : j = k := by
  -- What is read of the one text is either document.
  have hread := parse?_compact hj
  rw [h, parse?_compact hk, toDepth_of_depth_le k hk', toDepth_of_depth_le j hj'] at hread
  exact (Option.some.inj hread).symm

theorem ofUInt32_inj {m n : UInt32} (h : ofUInt32 m = ofUInt32 n) : m = n := by
  have hread := uint32?_ofUInt32 m
  rw [h, uint32?_ofUInt32] at hread
  exact (Option.some.inj hread).symm

end Json

/-! ## The canonical serialization -/

/-- The document of a word. -/
def canonicalWord (w : StorageWord) : Json :=
  .array [.string (Word.hex w.slot), .string (Word.hex w.value)]

theorem canonicalWord_injective : Function.Injective canonicalWord := by
  rintro ⟨slot, value⟩ ⟨slot', value'⟩ h
  simp only [canonicalWord, Json.array.injEq, List.cons.injEq, Json.string.injEq] at h
  obtain ⟨hslot, hvalue, -⟩ := h
  rw [Word.hex_inj hslot, Word.hex_inj hvalue]

variable (s t : Schema) (x y : Storage)

theorem isPlain_canonicalDocument : (canonicalDocument s x).isPlain = true := by
  have hwords : Json.arePlain (x.words.map canonicalWord) = true :=
    Json.arePlain_iff.mpr (List.forall_mem_map.mpr fun _ _ => rfl)
  change (true && (true && (true && (Json.arePlain (x.words.map canonicalWord) && true)))) = true
  rw [hwords]
  rfl

theorem depth_canonicalDocument_le : (canonicalDocument s x).depth ≤ Json.maxDepth := by
  -- Three containers: the document, the list of words, and every word.
  have hwords : Json.itemsDepth (x.words.map canonicalWord) ≤ 1 :=
    Json.itemsDepth_le_iff.mpr (List.forall_mem_map.mpr fun _ _ => Nat.le_refl 1)
  have hdepth : (canonicalDocument s x).depth =
      max 0 (max 0 (max 0 (max (Json.itemsDepth (x.words.map canonicalWord) + 1) 0))) + 1 := rfl
  rw [hdepth, Json.maxDepth]
  omega

/-- Schemas of one name and one version, with storages that read alike. -/
structure SameState (s : Schema) (x : Storage) (t : Schema) (y : Storage) : Prop where
  name : s.name = t.name
  version : s.version = t.version
  load : ∀ slot, x.load slot = y.load slot

variable {s t x y}

theorem SameState.storage_eq (h : SameState s x t y) : x = y := Storage.ext_load h.load

theorem SameState.canonicalText_eq (h : SameState s x t y) :
    canonicalText s x = canonicalText t y := by
  rw [canonicalText, canonicalText, canonicalDocument, canonicalDocument, h.name, h.version,
    h.storage_eq]

theorem sameState_of_canonicalDocument_eq (h : canonicalDocument s x = canonicalDocument t y) :
    SameState s x t y := by
  simp only [canonicalDocument, Json.object.injEq, List.cons.injEq, Prod.mk.injEq, true_and,
    and_true, Json.string.injEq, Json.array.injEq] at h
  obtain ⟨hname, hversion, hwords⟩ := h
  have hstorage : x = y :=
    Storage.words_inj (List.map_injective_iff.mpr canonicalWord_injective hwords)
  exact ⟨hname, Json.ofUInt32_inj hversion, fun slot => by rw [hstorage]⟩

/-- **The canonical serialization identifies the state.** -/
theorem canonicalText_eq_iff : canonicalText s x = canonicalText t y ↔ SameState s x t y := by
  refine ⟨fun h => sameState_of_canonicalDocument_eq ?_, SameState.canonicalText_eq⟩
  exact Json.compact_inj (isPlain_canonicalDocument s x) (isPlain_canonicalDocument t y)
    (depth_canonicalDocument_le s x) (depth_canonicalDocument_le t y) h

/-! ## The fingerprint -/

/-- Two different messages have one digest. -/
def Sha256.Collide (a b : Bytes) : Prop := a ≠ b ∧ Sha256.digest a = Sha256.digest b

theorem textDigest_eq_iff {a b : String} : textDigest a = textDigest b ↔
    a = b ∨ Sha256.Collide (Bytes.utf8 a) (Bytes.utf8 b) := by
  constructor
  · intro h
    by_cases hsame : a = b
    · exact .inl hsame
    · exact .inr ⟨fun hbytes => hsame (Bytes.utf8_inj hbytes), Bytes.hex_inj h⟩
  · rintro (rfl | ⟨-, hdigest⟩)
    · rfl
    · rw [textDigest, textDigest, hdigest]

/-- **The fingerprint identifies the state**, but for collisions. -/
theorem canonicalDigest_eq_iff : canonicalDigest s x = canonicalDigest t y ↔
    SameState s x t y ∨
      Sha256.Collide (Bytes.utf8 (canonicalText s x)) (Bytes.utf8 (canonicalText t y)) := by
  rw [canonicalDigest, canonicalDigest, textDigest_eq_iff, canonicalText_eq_iff]

/-- **The canonical serialization and the fingerprint identify the state.**  The octets of two
serializations are the same exactly if name and version are and every slot reads alike, whatever was
written and cleared before; and the fingerprints are the same exactly then or where SHA-256
collides. -/
theorem canonicalText_identifies (s t : Schema) (x y : Storage) :
    (Bytes.utf8 (canonicalText s x) = Bytes.utf8 (canonicalText t y) ↔
      s.name = t.name ∧ s.version = t.version ∧ ∀ slot, x.load slot = y.load slot) ∧
    (canonicalDigest s x = canonicalDigest t y ↔
      (s.name = t.name ∧ s.version = t.version ∧ ∀ slot, x.load slot = y.load slot) ∨
      Sha256.Collide (Bytes.utf8 (canonicalText s x)) (Bytes.utf8 (canonicalText t y))) := by
  have hsame : SameState s x t y ↔
      s.name = t.name ∧ s.version = t.version ∧ ∀ slot, x.load slot = y.load slot :=
    ⟨fun h => ⟨h.name, h.version, h.load⟩, fun ⟨hname, hversion, hload⟩ => ⟨hname, hversion, hload⟩⟩
  have htext : Bytes.utf8 (canonicalText s x) = Bytes.utf8 (canonicalText t y) ↔
      canonicalText s x = canonicalText t y := ⟨Bytes.utf8_inj, congrArg Bytes.utf8⟩
  rw [htext, canonicalText_eq_iff, canonicalDigest_eq_iff, hsame]
  exact ⟨Iff.rfl, Iff.rfl⟩

end SlotLedger
