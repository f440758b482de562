/-
What a proof with RDF canonicalization leaves unsigned. The documents are expanded in lenient mode, so a
member that expansion passes over can be added to every document that has an object, and the proof still
verifies.
-/
import AffinidiTdk.DataIntegrity.Proof

namespace AffinidiTdk.DataIntegrity

open Fallible
open AffinidiTdk.Rdf AffinidiTdk.Jsonld

variable {prims : Primitives} {orders : Orders} {now : ℤ} {proof : DataIntegrityProof} {document twin : Json}
  {key : List UInt8} {options : VerifyOptions}

/-- The proof as it is hashed. -/
def proofConfig (proof : DataIntegrityProof) : DataIntegrityProof := { proof with proofValue := none }

theorem verifyWithPublicKey_eq_ok (h : verifyWithPublicKey prims orders now proof document key options = .ok ()) :
    ∃ signature data, hashData prims orders document (proofConfig proof) = .ok data ∧ proof.cryptosuite.verify
    prims key data signature = .ok () ∧ ∀ other, hashData prims orders other (proofConfig proof) = .ok data →
    verifyWithPublicKey prims orders now proof other key options = .ok () := by
  obtain ⟨hsuite, h⟩ := guard_eq_ok_iff.1 h
  obtain ⟨hcontext, h⟩ := guard_eq_ok_iff.1 h
  obtain ⟨signature, hsignature, h⟩ := bind_eq_ok_iff.1 h
  obtain ⟨htype, h⟩ := guard_eq_ok_iff.1 h
  obtain ⟨hcreated, h⟩ := unit_bind_eq_ok_iff.1 h
  obtain ⟨data, hdata, hverify⟩ := bind_eq_ok_iff.1 h
  refine ⟨signature, data, hdata, hverify, fun other hother => ?_⟩
  refine guard_eq_ok_iff.2 ⟨hsuite, guard_eq_ok_iff.2 ⟨hcontext, ?_⟩⟩
  refine bind_eq_ok_iff.2 ⟨signature, hsignature, guard_eq_ok_iff.2 ⟨htype, ?_⟩⟩
  exact unit_bind_eq_ok_iff.2 ⟨hcreated, bind_eq_ok_iff.2 ⟨data, hother, hverify⟩⟩

theorem hashData_of_isRdfc (h : proof.cryptosuite.isRdfc = true) (orders : Orders) (document : Json) :
    hashData prims orders document (proofConfig proof) =
      hashingRdfc prims orders document (proofConfig proof).toJson := by
  rw [hashData, proofConfig, h]
  rfl

section

variable (h : expandDocument prims.bundled twin = expandDocument prims.bundled document)
include h

theorem expandCanonicalizeAndHash_congr (order : HashOrder) : expandCanonicalizeAndHash prims order twin =
    expandCanonicalizeAndHash prims order document := by
  rw [expandCanonicalizeAndHash, expandCanonicalizeAndHash, expandAndToRdf, expandAndToRdf, h]

theorem hashingRdfc_congr (orders : Orders) (config : Json) : hashingRdfc prims orders twin config =
    hashingRdfc prims orders document config := by
  rw [hashingRdfc, hashingRdfc, expandCanonicalizeAndHash_congr h]

end

/-- Members whose value is a text. -/
def IsText (_ : String) (value : Json) : Prop := ∃ text, value = .str text

/-- No document with one more text in it hashes alike, whatever the order of the hash maps. -/
def LeavesNothingUnsigned (prims : Primitives) (proof : DataIntegrityProof) (document : Json) : Prop :=
  ∀ twin, document.Adds IsText twin → ∀ orders orders' data,
    hashingRdfc prims orders document (proofConfig proof).toJson = .ok data →
      hashingRdfc prims orders' twin (proofConfig proof).toJson ≠ .ok data

/-- **Unsigned members**: a proof that verifies over a document leaves nothing unsigned exactly when the
document has no object, so that there is nothing to add a member to. -/
theorem leavesNothingUnsigned_iff (hrdfc : proof.cryptosuite.isRdfc = true)
    (h : verifyWithPublicKey prims orders now proof document key options = .ok ()) :
    LeavesNothingUnsigned prims proof document ↔ ¬document.HasObject := by
  constructor
  · intro hsigned hobject
    have htexts : ∀ key ∉ reservedKeys, ∃ value, IsText key value := fun _ _ => ⟨.str "unsigned", "unsigned", rfl⟩
    obtain ⟨twin, hadds, hsame⟩ := exists_expandDocumentInner_eq htexts prims.bundled false hobject
    obtain ⟨signature, data, hdata, -⟩ := verifyWithPublicKey_eq_ok h
    rw [hashData_of_isRdfc hrdfc] at hdata
    exact hsigned twin hadds orders orders data hdata ((hashingRdfc_congr hsame orders _).trans hdata)
  · intro hobject twin hadds
    exact absurd hadds.hasObject hobject

theorem verifyWithPublicKey_congr (hrdfc : proof.cryptosuite.isRdfc = true)
    (hsame : expandDocument prims.bundled twin = expandDocument prims.bundled document)
    (h : verifyWithPublicKey prims orders now proof document key options = .ok ()) :
    verifyWithPublicKey prims orders now proof twin key options = .ok () := by
  obtain ⟨signature, data, hdata, -, htwin⟩ := verifyWithPublicKey_eq_ok h
  refine htwin twin ?_
  rw [hashData_of_isRdfc hrdfc] at hdata ⊢
  rw [hashingRdfc_congr hsame, hdata]

/-! ## A membership card -/

section
open Json

/-- Every signature is accepted, and the digest of a text is its characters, three bytes each. -/
def openPrimitives : Primitives where
  bundled _ := none
  doubles := ⟨fun _ => none, fun text => text.toList⟩
  digest text := text.flatMap fun c => [(c.toNat / 65536).toUInt8, (c.toNat / 256).toUInt8, c.toNat.toUInt8]
  jcs _ := .ok []
  multibaseDecode _ := .ok []
  parseDate _ := .ok 0
  ed25519Key _ := true
  ed25519Signature _ := true
  ed25519Verify _ _ _ := true
  mlDsa44Verify _ _ _ := true
  slhDsaVerify _ _ _ := true

def insertionOrders : Orders := ⟨⟨id, fun _ => .rfl⟩, ⟨id, fun _ => .rfl⟩⟩

def cardProof : DataIntegrityProof :=
  ⟨"DataIntegrityProof", .eddsaRdfc2022, none, "urn:key", "assertionMethod", some "z", none⟩

def cardMembers : Fields :=
  [("@context", obj [("name", str "urn:name")]), ("@id", str "urn:alice"), ("name", str "Alice")]

/-- A card for Alice under a context that only knows names. -/
def card : Json := obj cardMembers

/-- The card with a level that the context does not define. -/
def goldCard : Json := obj (cardMembers.insert "level" (str "gold"))

theorem card_verifies :
    verifyWithPublicKey openPrimitives insertionOrders 0 cardProof card [] ⟨none, []⟩ = .ok () := by
  decide +kernel

theorem leavesNothingUnsigned_iff_card : LeavesNothingUnsigned openPrimitives cardProof card ↔ ¬card.HasObject :=
  leavesNothingUnsigned_iff (by decide) card_verifies

theorem goldCard_expands : expandDocument openPrimitives.bundled goldCard =
    expandDocument openPrimitives.bundled card := by
  decide +kernel

/-- The proof over the card verifies over the gold card: the level was never signed. -/
theorem goldCard_verifies :
    verifyWithPublicKey openPrimitives insertionOrders 0 cardProof card [] ⟨none, []⟩ = .ok () ∧
      card.Adds IsText goldCard ∧
      verifyWithPublicKey openPrimitives insertionOrders 0 cardProof goldCard [] ⟨none, []⟩ = .ok () ∧
      ¬LeavesNothingUnsigned openPrimitives cardProof card := by
  have hadds : card.Adds IsText goldCard := .member (by decide) ⟨"gold", rfl⟩
  refine ⟨card_verifies, hadds, verifyWithPublicKey_congr (by decide) goldCard_expands card_verifies,
    fun hsigned => ?_⟩
  obtain ⟨signature, data, hdata, -⟩ := verifyWithPublicKey_eq_ok card_verifies
  rw [hashData_of_isRdfc (by decide)] at hdata
  exact hsigned goldCard hadds insertionOrders insertionOrders data hdata
    ((hashingRdfc_congr goldCard_expands insertionOrders _).trans hdata)

end

end AffinidiTdk.DataIntegrity
